import TraitIndex.Path.Basic

/-!
# File trees

A node of a file tree is a file with its contents or a directory with named entries, in the order in
which the file system lists them.  A place is the list of names that leads from the top to a node.
-/

namespace TraitIndex

inductive Node where
  | file (contents : List UInt8)
  | directory (entries : List (Name × Node))

namespace Node

instance : Inhabited Node :=
  ⟨directory []⟩

def isDirectory : Node → Bool
  | file _ => false
  | directory _ => true

def at? : Node → List Name → Option Node
  | node, [] => some node
  | file _, _ :: _ => none
  | directory entries, name :: place =>
      match entries.lookup name with
      | some node => node.at? place
      | none => none

/-- Replaces the entry with the given name, or adds it behind the others. -/
def setEntry (name : Name) (node : Node) : List (Name × Node) → List (Name × Node)
  | [] => [(name, node)]
  | entry :: entries =>
      if entry.1 = name then (name, node) :: entries else entry :: setEntry name node entries

/-- Puts a node at a place and creates the directories on the way; a file on the way stays. -/
def put : Node → List Name → Node → Node
  | _, [], node => node
  | file contents, _ :: _, _ => file contents
  | directory entries, name :: place, node =>
      let child := (entries.lookup name).getD (directory [])
      directory (setEntry name (put child place node) entries)

/-- Orders entries by the bytes of their names. -/
def sortEntries (entries : List (Name × Node)) : List (Name × Node) :=
  entries.mergeSort fun left right => decide (left.1 ≤ right.1)

/-- The paths of the files at and below a node that stands at `path`: depth first, the entries of
each directory in the order of their names. -/
def walk (path : Path) (node : Node) : List Path :=
  match node with
  | file _ => [path]
  | directory entries =>
      (sortEntries entries).attach.flatMap fun ⟨(name, child), _⟩ => walk (path.join name) child
termination_by sizeOf node
decreasing_by
  rename_i listed
  have smaller := List.sizeOf_lt_of_mem (List.mem_mergeSort.mp listed)
  simp only [Prod.mk.sizeOf_spec] at smaller
  simp only [directory.sizeOf_spec]
  omega

/-- The paths of the directories at and below a node that stands at `path`, in the order in which
`walk` comes to them. -/
def directories (path : Path) (node : Node) : List Path :=
  match node with
  | file _ => []
  | directory entries =>
      path :: (sortEntries entries).attach.flatMap fun ⟨(name, child), _⟩ =>
        directories (path.join name) child
termination_by sizeOf node
decreasing_by
  rename_i listed
  have smaller := List.sizeOf_lt_of_mem (List.mem_mergeSort.mp listed)
  simp only [Prod.mk.sizeOf_spec] at smaller
  simp only [directory.sizeOf_spec]
  omega

end Node

end TraitIndex
