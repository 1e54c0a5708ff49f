import TraitIndex.Text.Canonical

/-!
# Log levels

Levels are ordered by how much they let through.  They are recognised by their canonical names, with
one further name for warnings.
-/

namespace TraitIndex.Log

inductive Level where
  | error
  | warn
  | info
  | debug
  | trace
  deriving DecidableEq, Repr, Inhabited

namespace Level

def name : Level → String
  | error => "error"
  | warn => "warn"
  | info => "info"
  | debug => "debug"
  | trace => "trace"

/-- The form in which a record shows its level. -/
def label : Level → String
  | error => "ERROR"
  | warn => "WARN"
  | info => "INFO"
  | debug => "DEBUG"
  | trace => "TRACE"

def verbosity : Level → Nat
  | error => 0
  | warn => 1
  | info => 2
  | debug => 3
  | trace => 4

/-- Decides whether a record of the second level passes at the first. -/
def admits (level record : Level) : Bool :=
  record.verbosity ≤ level.verbosity

/-- Reads a level by its canonical name; otherwise yields that name. -/
def ofName (name : String) : Except String Level :=
  match Text.canonical name with
  | "trace" => .ok trace
  | "debug" => .ok debug
  | "info" => .ok info
  | "warn" => .ok warn
  | "warning" => .ok warn
  | "error" => .ok error
  | other => .error other

def standard : Level :=
  debug

end Level

end TraitIndex.Log
