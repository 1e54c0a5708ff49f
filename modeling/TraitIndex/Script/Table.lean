import TraitIndex.Json.Document
import TraitIndex.Script.Assignment
import TraitIndex.Script.Error

/-!
# From scripts to fragments

The table of a script gives for each symbol a list, whose items are markup texts or lists that start
with one.  It is read as a whole before its shapes are looked at, and the shapes of all symbols are
looked at before the fragment is validated; so a misspelt table is reported before a misshapen one,
and that before a malformed fragment.  What follows the table is not looked at.
-/

namespace TraitIndex.Script

/-- The markup of one item: the item itself or its first element. -/
def markup? : Json.Value → Option String
  | .string markup => some markup
  | .array (.string markup :: _) => some markup
  | _ => none

/-- The descriptors of the items from a position on. -/
def descriptorsFrom (symbol : String) (position : Nat) :
    List Json.Value → Except LoadError (List Descriptor)
  | [] => .ok []
  | item :: items =>
      match markup? item with
      | none => .error (.invalidEntry symbol position)
      | some markup =>
          match descriptorsFrom symbol (position + 1) items with
          | .error error => .error error
          | .ok descriptors => .ok (⟨markup⟩ :: descriptors)

def entryOf (symbol : String) : Json.Value → Except LoadError Entry
  | .array items =>
      match descriptorsFrom symbol 0 items with
      | .error error => .error error
      | .ok descriptors => .ok ⟨symbol, descriptors⟩
  | _ => .error (.invalidSymbolValue symbol)

/-- The entries of a table, in its order; the first wrong shape counts. -/
def entriesOf : List (String × Json.Value) → Except LoadError (List Entry)
  | [] => .ok []
  | (symbol, value) :: members =>
      match entryOf symbol value with
      | .error error => .error error
      | .ok entry =>
          match entriesOf members with
          | .error error => .error error
          | .ok entries => .ok (entry :: entries)

/-- The fragment of a table under a scope. -/
def fragmentOf (scope : Option String) (members : List (String × Json.Value)) :
    Except LoadError Fragment :=
  match entriesOf members with
  | .error error => .error error
  | .ok entries =>
      match (Fragment.mk scope entries).fault? with
      | some fault => .error (.malformed fault)
      | none => .ok ⟨scope, entries⟩

def expectedTable : String :=
  "an object mapping crate names to implementor entries"

/-- The fragment of the table at the head of a text; positions in it start at one. -/
def parseLiteral (scope : Option String) (literal : List Char) : Except LoadError Fragment :=
  if (Json.skipBlanks literal).isEmpty then .error .missingTable
  else
    match Json.readObject expectedTable literal with
    | .error failure => .error (.notJson (failure.locate literal))
    | .ok (members, _) => fragmentOf scope members

def parse (scope : Option String) (script : String) : Except LoadError Fragment :=
  match literal? script.toList with
  | none => .error .missingTable
  | some literal => parseLiteral scope literal

end TraitIndex.Script
