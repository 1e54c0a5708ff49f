/-!
# JSON values

Objects keep their members in the order of the text, repeated keys included, so that whoever reads
one can see a repetition.
-/

namespace TraitIndex.Json

/-- Integers that fit into 64 bits are kept exactly; all other numbers are binary floats. -/
inductive Number where
  | natural (value : Nat)
  /-- Stands for the number below zero with this magnitude. -/
  | negative (magnitude : Nat)
  | float (value : Float)

inductive Value where
  | null
  | bool (value : Bool)
  | number (value : Number)
  | string (text : String)
  | array (elements : List Value)
  | object (members : List (String × Value))

instance : Inhabited Value :=
  ⟨.null⟩

/-- The blanks that may stand between the tokens of a JSON text. -/
def isBlank (character : Char) : Bool :=
  character = ' ' || character = '\n' || character = '\t' || character = '\r'

def skipBlanks (text : List Char) : List Char :=
  text.dropWhile isBlank

end TraitIndex.Json
