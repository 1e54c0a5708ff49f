import TraitIndex.Json.Number
import TraitIndex.Text.Quoted

/-!
# Failures of reading

A reader fails for a reason and at a place.  While reading, the place is what was left of the text,
and how many bytes beyond it the report points.  Afterwards it is a line, counted from one, and a
column, the number of bytes since the last line break; a report never points beyond the text.
-/

namespace TraitIndex.Json

/-- What stands where something else was asked for. -/
inductive Unexpected where
  | scalar (value : Value)
  | sequence
  | map

inductive Reason where
  | endOfValue
  | endOfList
  | endOfObject
  | endOfString
  | expectedValue
  | expectedIdent
  | expectedColon
  | expectedListCommaOrEnd
  | expectedObjectCommaOrEnd
  | keyMustBeString
  | trailingComma
  | trailingCharacters
  | controlCharacter
  | invalidEscape
  | loneSurrogate
  | brokenSurrogatePair
  | invalidNumber
  | numberOutOfRange
  | nestingTooDeep
  | invalidType (found : Unexpected) (expected : String)

/-- The failure points `ahead` bytes beyond the part of the text that was read before `rest`. -/
structure Failure where
  reason : Reason
  rest : List Char
  ahead : Nat

structure Position where
  line : Nat
  column : Nat
  deriving DecidableEq, Repr

structure Error where
  reason : Reason
  position : Position

def byteCount (text : List Char) : Nat :=
  text.foldr (fun character count => character.utf8Size + count) 0

/-- The position `offset` bytes further in the text, or at its end if it is shorter. -/
def Position.advance (position : Position) : List Char → Nat → Position
  | [], _ => position
  | character :: rest, offset =>
      if character.utf8Size ≤ offset then
        Position.advance
          (if character = '\n' then ⟨position.line + 1, 0⟩
          else ⟨position.line, position.column + character.utf8Size⟩)
          rest (offset - character.utf8Size)
      else ⟨position.line, position.column + offset⟩

def Failure.locate (text : List Char) (failure : Failure) : Error where
  reason := failure.reason
  position := Position.advance ⟨1, 0⟩ text
    (byteCount text - byteCount failure.rest + failure.ahead)

def Unexpected.describe : Unexpected → String
  | scalar .null => "null"
  | scalar (.bool value) => if value then "boolean `true`" else "boolean `false`"
  | scalar (.number (.float value)) => "floating point `" ++ (Number.float value).text ++ "`"
  | scalar (.number number) => "integer `" ++ number.text ++ "`"
  | scalar (.string text) => "string " ++ Text.quote text
  | scalar (.array _) => "sequence"
  | scalar (.object _) => "map"
  | sequence => "sequence"
  | map => "map"

def Reason.message : Reason → String
  | endOfValue => "EOF while parsing a value"
  | endOfList => "EOF while parsing a list"
  | endOfObject => "EOF while parsing an object"
  | endOfString => "EOF while parsing a string"
  | expectedValue => "expected value"
  | expectedIdent => "expected ident"
  | expectedColon => "expected `:`"
  | expectedListCommaOrEnd => "expected `,` or `]`"
  | expectedObjectCommaOrEnd => "expected `,` or `\x7d`"
  | keyMustBeString => "key must be a string"
  | trailingComma => "trailing comma"
  | trailingCharacters => "trailing characters"
  | controlCharacter => "control character (\\u0000-\\u001F) found while parsing a string"
  | invalidEscape => "invalid escape"
  | loneSurrogate => "lone leading surrogate in hex escape"
  | brokenSurrogatePair => "unexpected end of hex escape"
  | invalidNumber => "invalid number"
  | numberOutOfRange => "number out of range"
  | nestingTooDeep => "recursion limit exceeded"
  | invalidType found expected => "invalid type: " ++ found.describe ++ ", expected " ++ expected

def Error.message (error : Error) : String :=
  s!"{error.reason.message} at line {error.position.line} column {error.position.column}"

end TraitIndex.Json
