import TraitIndex.Index.Policy
import TraitIndex.Path.Basic

/-!
# Command-line arguments

There is one root, given by position, and there are options with a value and flags without one.  An
option takes the text behind its equals sign or the next argument, unless that looks like an option.
Behind a double dash everything is positional.  Nothing may be given twice, the root must be given,
and paths must not be empty.  A question about the program is answered as soon as it is met, if
everything before it was understood.
-/

namespace TraitIndex.CommandLine

structure Arguments where
  root : Path
  merge : MergePolicy
  attachFirst : Bool
  json : Bool
  logLevel : Option String
  logDirectory : Option Path
  deriving DecidableEq, Repr

/-- What was given so far. -/
structure Draft where
  root : Option Path
  merge : Option MergePolicy
  attachFirst : Bool
  json : Bool
  logLevel : Option String
  logDirectory : Option Path

namespace Draft

def empty : Draft :=
  ⟨none, none, false, false, none, none⟩

/-- The value of something given for the first time. -/
def once {α : Type} (known : Option α) (given : α) : Option (Option α) :=
  match known with
  | none => some (some given)
  | some _ => none

def path? (bytes : List UInt8) : Option Path :=
  if bytes.isEmpty then none else some ⟨bytes⟩

def text? (bytes : List UInt8) : Option String :=
  (Text.Utf8.decode? bytes).map String.ofList

def positional (draft : Draft) (argument : List UInt8) : Option Draft := do
  let path ← path? argument
  let root ← once draft.root path
  return { draft with root := root }

def flag (draft : Draft) (name : String) : Option Draft :=
  match name with
  | "attach-first" => if draft.attachFirst then none else some { draft with attachFirst := true }
  | "json" => if draft.json then none else some { draft with json := true }
  | _ => none

def option (draft : Draft) (name : String) (value : List UInt8) : Option Draft :=
  match name with
  | "merge" => do
      let text ← text? value
      let policy ← (MergePolicy.ofName text).toOption
      let merge ← once draft.merge policy
      return { draft with merge := merge }
  | "log-level" => do
      let text ← text? value
      let level ← once draft.logLevel text
      return { draft with logLevel := level }
  | "log-dir" => do
      let path ← path? value
      let directory ← once draft.logDirectory path
      return { draft with logDirectory := directory }
  | _ => none

def finish (draft : Draft) : Option Arguments :=
  draft.root.map fun root =>
    ⟨root, draft.merge.getD .append, draft.attachFirst, draft.json, draft.logLevel,
      draft.logDirectory⟩

end Draft

def dash : UInt8 := 0x2D

def equalsSign : UInt8 := 0x3D

/-- A lone dash is a value; whatever else starts with a dash is not. -/
def looksLikeOption (argument : List UInt8) : Bool :=
  argument.head? = some dash && argument ≠ [dash]

def takesValue (name : String) : Bool :=
  ["merge", "log-level", "log-dir"].contains name

/-- The name of a long option and the value behind its equals sign. -/
def longOption? (argument : List UInt8) : Option (String × Option (List UInt8)) :=
  match argument with
  | first :: second :: body =>
      if first = dash ∧ second = dash then
        let name := body.takeWhile (· ≠ equalsSign)
        let value := match body.dropWhile (· ≠ equalsSign) with
          | [] => none
          | _ :: value => some value
        (Draft.text? name).map fun name => (name, value)
      else none
  | _ => none

/-- What a command line asks for. -/
inductive Request where
  | assemble (arguments : Arguments)
  | showVersion
  | showHelp
  deriving DecidableEq, Repr

/-- The request behind the arguments that are understood so far, when there are no more of them. -/
def Draft.request? (draft : Draft) : Option Request :=
  draft.finish.map .assemble

/-- A question that is answered as soon as it is met, whatever follows it. -/
def question? (name : String) : Option Request :=
  match name with
  | "version" => some .showVersion
  | "help" => some .showHelp
  | _ => none

/-- The question of a letter behind a single dash. -/
def shortQuestion? (argument : List UInt8) : Option Request :=
  match argument with
  | _ :: 0x56 :: _ => some .showVersion
  | _ :: 0x68 :: _ => some .showHelp
  | _ => none

/-- Reads the arguments behind those that `draft` stands for. -/
def read (draft : Draft) : List (List UInt8) → Option Request
  | [] => draft.request?
  | argument :: arguments =>
      if argument = [dash, dash] then
        (arguments.foldlM Draft.positional draft).bind Draft.request?
      else if looksLikeOption argument then
        match longOption? argument with
        | none => shortQuestion? argument
        | some (name, some value) =>
            if takesValue name then
              match draft.option name value with
              | some draft => read draft arguments
              | none => none
            else none
        | some (name, none) =>
            if takesValue name then
              match arguments with
              | [] => none
              | value :: arguments =>
                  if looksLikeOption value then none
                  else
                    match draft.option name value with
                    | some draft => read draft arguments
                    | none => none
            else
              match question? name with
              | some question => some question
              | none =>
                  match draft.flag name with
                  | some draft => read draft arguments
                  | none => none
      else
        match draft.positional argument with
        | some draft => read draft arguments
        | none => none

/-- The request of a command line, unless it is not understood. -/
def Request.ofList? (arguments : List (List UInt8)) : Option Request :=
  read Draft.empty arguments

end TraitIndex.CommandLine
