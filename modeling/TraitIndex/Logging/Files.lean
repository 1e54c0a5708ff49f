import TraitIndex.FileSystem.Basic

/-!
# Log files

A log directory holds the current log file and earlier ones, which have numbers in their names.
When the current one is opened, only the earlier ones with the greatest names stay.
-/

namespace TraitIndex.Logging

/-- What the names of log files begin with. -/
def logFileStart : Name :=
  Text.Utf8.encode "implindex".toList

/-- What the names of log files end with. -/
def logFileEnd : Name :=
  Text.Utf8.encode ".log".toList

/-- The name of the current log file in its directory. -/
def logFileName : Name :=
  Text.Utf8.encode "implindex_rCURRENT.log".toList

/-- The number of earlier log files that stay. -/
def keptFiles : Nat :=
  3

/-- Decides whether a part of a name is the mark of earlier log files with a number. -/
def isNumber (part : List UInt8) : Bool :=
  match part with
  | mark :: digit :: _ :: _ => mark = 0x72 && 0x30 ≤ digit && digit ≤ 0x39
  | _ => false

/-- Decides whether a name is that of an earlier log file.  The number stands one byte behind the
start of the name and reaches to the next dot. -/
def isEarlier (name : Name) : Bool :=
  let stem := name.take (name.length - logFileEnd.length)
  let part := (stem.drop (logFileStart.length + 1)).takeWhile (· ≠ Path.dot)
  logFileStart.isPrefixOf name && logFileEnd.isSuffixOf name && isNumber part

/-- The names of the earlier log files among the entries of a directory, the greatest first. -/
def earlierNames (entries : List (Name × Node)) : List Name :=
  let earlier := entries.filter fun entry => !entry.2.isDirectory && isEarlier entry.1
  (Node.sortEntries earlier).reverse.map Prod.fst

/-- The entries of a directory without the earlier log files that are too many. -/
def retain (entries : List (Name × Node)) : List (Name × Node) :=
  let outdated := (earlierNames entries).drop keptFiles
  entries.filter fun entry => !outdated.contains entry.1

/-- Opens the log file at a place. -/
def openLogFile (files : FileSystem) (place : List Name) : FileSystem :=
  let files := files.append place []
  match files.top.at? place.dropLast with
  | some (.directory entries) => files.put place.dropLast (.directory (retain entries))
  | _ => files

/-- The log files at and below a path and what they hold. -/
def logFiles (files : FileSystem) (path : Path) : List (Path × List UInt8) :=
  match files.node path with
  | .error _ => []
  | .ok node =>
      (node.walk path).filterMap fun path => do
        let name ← path.fileName?
        if logFileEnd.isSuffixOf name then return (path, ← (files.read path).toOption) else none

end TraitIndex.Logging
