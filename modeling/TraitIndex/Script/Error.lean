import TraitIndex.Fragment
import TraitIndex.FileSystem.Basic
import TraitIndex.Json.Failure

/-!
# Failures of loading

Loading a script fails when the file cannot be read, when its text does not hold a table, when the
table is not JSON, when a value in it has the wrong shape, or when the fragment is malformed.
Finding the scripts fails when there is nothing at the root or a directory below it cannot be read.
-/

namespace TraitIndex.Script

inductive ReadFault where
  | fileSystem (fault : FileSystem.Fault)
  | notUtf8
  deriving DecidableEq, Repr

def ReadFault.message : ReadFault → String
  | fileSystem fault => fault.message
  | notUtf8 => "stream did not contain valid UTF-8"

inductive LoadError where
  | unreadable (path : Path) (fault : ReadFault)
  | noTree (path : Path) (fault : FileSystem.Fault)
  | missingTable
  | notJson (error : Json.Error)
  | invalidSymbolValue (symbol : String)
  | invalidEntry (symbol : String) (index : Nat)
  | malformed (fault : Fragment.Fault)

namespace LoadError

/-- The message of the failure that caused this one, if there is one. -/
def source? : LoadError → Option String
  | unreadable _ fault => some fault.message
  | noTree path fault => some s!"IO error for operation on {path.display}: {fault.message}"
  | notJson error => some error.message
  | malformed fault => some fault.message
  | missingTable => none
  | invalidSymbolValue _ => none
  | invalidEntry _ _ => none

def message : LoadError → String
  | unreadable path fault => s!"failed to read `{path.display}`: {fault.message}"
  | noTree path fault =>
      s!"failed to walk implementors tree: IO error for operation on {path.display}: " ++
        fault.message
  | missingTable => "script does not assign an `implementors` table"
  | notJson error => "implementors table is not valid JSON: " ++ error.message
  | invalidSymbolValue symbol => s!"entries for `{symbol}` must be an array"
  | invalidEntry symbol index => s!"entry {index} of `{symbol}` has no markup string"
  | malformed fault => fault.message

end LoadError

end TraitIndex.Script
