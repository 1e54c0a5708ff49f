import TraitIndex.FileSystem.Tree

/-!
# File systems

A file system is a tree with a working directory, where relative paths start.  A path is followed
segment by segment, and every segment must be followed from a directory: a double dot goes up, an
empty segment or a single dot stays, and any other segment goes down to the entry of that name.
Paths and names have limited lengths and hold no NUL byte.  An operation that fails half way leaves
what it created until then.
-/

namespace TraitIndex

structure FileSystem where
  top : Node
  working : List Name
  deriving Inhabited

namespace FileSystem

inductive Fault where
  | notFound
  | notDirectory
  | isDirectory
  | alreadyExists
  | nameTooLong
  | nulByte
  deriving DecidableEq, Repr

def Fault.message : Fault → String
  | notFound => "No such file or directory (os error 2)"
  | notDirectory => "Not a directory (os error 20)"
  | isDirectory => "Is a directory (os error 21)"
  | alreadyExists => "File exists (os error 17)"
  | nameTooLong => "File name too long (os error 36)"
  | nulByte => "file name contained an unexpected NUL byte"

/-- The length that no path reaches. -/
def pathLimit : Nat :=
  4096

/-- The length of the longest names. -/
def nameLimit : Nat :=
  255

/-- The fault of a path that no file system looks up. -/
def pathFault? (path : Path) : Option Fault :=
  if path.bytes.contains 0 then some .nulByte
  else if path.bytes = [] then some .notFound
  else if pathLimit ≤ path.bytes.length then some .nameTooLong
  else none

def follow (files : FileSystem) (place : List Name) (segment : Name) :
    Except Fault (List Name) :=
  match files.top.at? place with
  | none => .error .notFound
  | some (.file _) => .error .notDirectory
  | some (.directory entries) =>
      if segment = [] ∨ segment = [Path.dot] then .ok place
      else if segment = [Path.dot, Path.dot] then .ok place.dropLast
      else if nameLimit < segment.length then .error .nameTooLong
      else if (entries.lookup segment).isSome then .ok (place ++ [segment])
      else .error .notFound

def followAll (files : FileSystem) (place : List Name) : List Name → Except Fault (List Name)
  | [] => .ok place
  | segment :: segments =>
      match files.follow place segment with
      | .error fault => .error fault
      | .ok next => files.followAll next segments

def start (files : FileSystem) (path : Path) : List Name :=
  if path.isAbsolute then [] else files.working

def locate (files : FileSystem) (path : Path) : Except Fault (List Name) :=
  match pathFault? path with
  | some fault => .error fault
  | none => files.followAll (files.start path) path.segments

def node (files : FileSystem) (path : Path) : Except Fault Node :=
  match files.locate path with
  | .error fault => .error fault
  | .ok place =>
      match files.top.at? place with
      | none => .error .notFound
      | some node => .ok node

def isDirectory (files : FileSystem) (path : Path) : Bool :=
  match files.node path with
  | .ok node => node.isDirectory
  | .error _ => false

def read (files : FileSystem) (path : Path) : Except Fault (List UInt8) :=
  match files.node path with
  | .error fault => .error fault
  | .ok (.file contents) => .ok contents
  | .ok (.directory _) => .error .isDirectory

/-- The files at and below a path.  Every directory on the walk is looked up by its own path; the
first one that cannot be is the one that the walk fails at. -/
def walk (files : FileSystem) (path : Path) : Except (Path × Fault) (List Path) :=
  match files.node path with
  | .error fault => .error (path, fault)
  | .ok node =>
      let refused := fun directory => (pathFault? directory).map fun fault => (directory, fault)
      match (node.directories path).findSome? refused with
      | some failure => .error failure
      | none => .ok (node.walk path)

def put (files : FileSystem) (place : List Name) (node : Node) : FileSystem :=
  { files with top := files.top.put place node }

/-- The segments of a path without the empty ones at its end. -/
def trimmedSegments (path : Path) : List Name :=
  (path.segments.reverse.dropWhile List.isEmpty).reverse

/-- Creates one directory in a directory that is there already. -/
def createDirectory (files : FileSystem) (path : Path) : Except Fault FileSystem :=
  match pathFault? path with
  | some fault => .error fault
  | none =>
      match (trimmedSegments path).getLast? with
      | none => .error .alreadyExists
      | some last =>
          match files.followAll (files.start path) (trimmedSegments path).dropLast with
          | .error fault => .error fault
          | .ok place =>
              match files.follow place last with
              | .ok _ => .error .alreadyExists
              | .error .notFound => .ok (files.put (place ++ [last]) (.directory []))
              | .error fault => .error fault

def ensureDirectory (files : FileSystem) (path : Path) : FileSystem × Option Fault :=
  match files.createDirectory path with
  | .ok files => (files, none)
  | .error fault => (files, if files.isDirectory path then none else some fault)

/-- Creates the first of the directories, and before it the others if it has nowhere to stand. -/
def createFrom (files : FileSystem) : List Path → FileSystem × Option Fault
  | [] => (files, none)
  | path :: above =>
      match files.ensureDirectory path with
      | (_, some .notFound) =>
          match files.createFrom above with
          | (files, some fault) => (files, some fault)
          | (files, none) => files.ensureDirectory path
      | settled => settled

/-- Creates a directory and the directories above it, as far as they are missing. -/
def createDirectories (files : FileSystem) (path : Path) : FileSystem × Option Fault :=
  files.createFrom path.ancestors

/-- The place of the file that is opened for writing at a path, whether it is there or not. -/
def filePlace (files : FileSystem) (path : Path) : Except Fault (List Name) :=
  match pathFault? path with
  | some fault => .error fault
  | none =>
      match files.followAll (files.start path) path.segments.dropLast with
      | .error fault => .error fault
      | .ok place =>
          let last := path.segments.getLastD []
          match files.follow place last with
          | .error .notFound => .ok (place ++ [last])
          | .error fault => .error fault
          | .ok next =>
              match files.top.at? next with
              | some (.directory _) => .error .isDirectory
              | _ => .ok next

/-- Writes a file into a directory that is there already. -/
def write (files : FileSystem) (path : Path) (contents : List UInt8) :
    Except Fault FileSystem :=
  match files.filePlace path with
  | .error fault => .error fault
  | .ok place => .ok (files.put place (.file contents))

/-- What the file at a place holds; nothing if there is no file. -/
def contents (files : FileSystem) (place : List Name) : List UInt8 :=
  match files.top.at? place with
  | some (.file contents) => contents
  | _ => []

/-- Appends to the file at a place, which is created if there is none. -/
def append (files : FileSystem) (place : List Name) (bytes : List UInt8) : FileSystem :=
  files.put place (.file (files.contents place ++ bytes))

end FileSystem

end TraitIndex
