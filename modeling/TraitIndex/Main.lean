import TraitIndex.CommandLine.Run

/-!
# The program

Takes a picture of the files that a run can reach, hands it to the run, and does what the run
reports: it prints, changes the files and exits.
-/

namespace TraitIndex.Program

def textOf (bytes : List UInt8) : String :=
  String.ofList (Text.Utf8.decodeLossy bytes)

def nameOf (text : String) : Name :=
  Text.Utf8.encode text.toList

/-- The file or the directory behind an entry, with everything below it; nothing if it cannot be
read. -/
partial def readNode (entry : IO.FS.DirEntry) : IO (Option Node) := do
  try
    if ← entry.path.isDir then
      let entries ← (← entry.path.readDir).toList.filterMapM fun child => do
        return (← readNode child).map fun node => (nameOf child.fileName, node)
      return some (.directory entries)
    else
      return some (.file (← IO.FS.readBinFile entry.path).toList)
  catch _ => return none

def entryAt (place : List Name) : IO.FS.DirEntry :=
  ⟨"/", "/".intercalate (place.map textOf)⟩

/-- Adds what is at a place, without what is below it. -/
def addPlace (files : FileSystem) (place : List Name) : IO FileSystem := do
  if (files.top.at? place).isSome then return files
  let path := (entryAt place).path
  if ← path.isDir then return files.put place (.directory [])
  if ← path.pathExists then return files.put place (.file [])
  return files

/-- The place that one more segment leads to. -/
def step (place : List Name) (segment : Name) : List Name :=
  if segment = [] ∨ segment = [Path.dot] then place
  else if segment = [Path.dot, Path.dot] then place.dropLast
  else place ++ [segment]

/-- Adds what a path passes. -/
def addWay (files : FileSystem) (path : Path) : IO FileSystem :=
  let places := path.segments.foldl
    (fun places segment => places ++ [step (places.getLastD []) segment]) [files.start path]
  places.foldlM addPlace files

/-- Adds what a directory holds, without what is below and in it. -/
def addEntries (files : FileSystem) (path : Path) : IO FileSystem := do
  match files.locate path with
  | .error _ => return files
  | .ok place =>
      let directory := (entryAt place).path
      if ← directory.isDir then
        (← directory.readDir).toList.foldlM
          (fun files entry => addPlace files (place ++ [nameOf entry.fileName])) files
      else return files

/-- Adds everything at and below a path. -/
def addTree (files : FileSystem) (path : Path) : IO FileSystem := do
  match files.locate path with
  | .error _ => return files
  | .ok place =>
      match ← readNode (entryAt place) with
      | none => return files
      | some node => return files.put place node

/-- The files that a run with these arguments can reach. -/
def filesOfRun (arguments : CommandLine.Arguments) : IO FileSystem := do
  let working := Path.ofString (← IO.currentDir).toString
  let top : FileSystem := ⟨.directory [], []⟩
  let files : FileSystem :=
    { ← addWay top working with working := working.segments.foldl step [] }
  let files ← (arguments.logDirectory.toList ++ [arguments.root]).foldlM addWay files
  let files ← arguments.logDirectory.toList.foldlM addEntries files
  addTree files arguments.root

/-- The files that a request is about; a question is about none. -/
def filesFor : CommandLine.Request → IO FileSystem
  | .assemble arguments => filesOfRun arguments
  | _ => return default

/-- Brings what stands at a place from one picture to the next: directories and files that are new
are created, files that are gone are removed, and files that grew are appended to. -/
partial def change (place : List Name) (old? : Option Node) (new : Node) : IO Unit := do
  let path := (entryAt place).path
  match new with
  | .file contents =>
      let known := match old? with
        | some (.file contents) => contents.length
        | _ => 0
      if old?.isNone ∨ known < contents.length then
        let handle ← IO.FS.Handle.mk path .append
        handle.write ⟨(contents.drop known).toArray⟩
  | .directory entries =>
      let known := match old? with
        | some (.directory entries) => entries
        | _ => []
      if old?.isNone then IO.FS.createDir path
      for (name, _) in known do
        if (entries.lookup name).isNone then
          IO.FS.removeFile (entryAt (place ++ [name])).path
      for (name, node) in entries do change (place ++ [name]) (known.lookup name) node

def start (arguments : List String) : IO UInt32 := do
  match CommandLine.Request.ofList? (arguments.map nameOf) with
  | none =>
      IO.eprint CommandLine.usageLine
      return 2
  | some request =>
      let files ← filesFor request
      let report := CommandLine.respond ⟨files, 1⟩ request
      change [] files.top report.files.top
      IO.print report.output
      IO.eprint report.errorText
      return report.code.toUInt32

end TraitIndex.Program

def main (arguments : List String) : IO UInt32 :=
  TraitIndex.Program.start arguments
