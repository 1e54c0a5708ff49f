import TraitIndex.Json.Number

/-!
# Writing JSON

A string is written with the escapes that its reader needs and no others: a letter where there is
one, a code unit for the remaining control characters.  Values are written compactly, or with one
line per element or member and two blanks of indentation per level.
-/

namespace TraitIndex.Json

def hexDigit (value : Nat) : Char :=
  if value < 10 then Char.ofNat ('0'.toNat + value) else Char.ofNat ('a'.toNat + (value - 10))

def escapeChar (character : Char) : List Char :=
  if character = '"' then ['\\', '"']
  else if character = '\\' then ['\\', '\\']
  else if character = '\x08' then ['\\', 'b']
  else if character = '\x0c' then ['\\', 'f']
  else if character = '\n' then ['\\', 'n']
  else if character = '\r' then ['\\', 'r']
  else if character = '\t' then ['\\', 't']
  else if character.toNat < 0x20 then
    ['\\', 'u', '0', '0', hexDigit (character.toNat / 16), hexDigit (character.toNat % 16)]
  else [character]

def writeString (text : String) : List Char :=
  '"' :: (text.toList.flatMap escapeChar ++ ['"'])

mutual

def writeCompact : Value → List Char
  | .null => ['n', 'u', 'l', 'l']
  | .bool true => ['t', 'r', 'u', 'e']
  | .bool false => ['f', 'a', 'l', 's', 'e']
  | .number number => number.text.toList
  | .string text => writeString text
  | .array elements => '[' :: (writeElements elements ++ [']'])
  | .object members => '\x7b' :: (writeMembers members ++ ['\x7d'])

def writeElements : List Value → List Char
  | [] => []
  | [element] => writeCompact element
  | element :: elements => writeCompact element ++ ',' :: writeElements elements

def writeMembers : List (String × Value) → List Char
  | [] => []
  | [(key, value)] => writeString key ++ ':' :: writeCompact value
  | (key, value) :: members =>
      writeString key ++ ':' :: (writeCompact value ++ ',' :: writeMembers members)

end

def newline (level : Nat) : List Char :=
  '\n' :: List.replicate (2 * level) ' '

mutual

/-- Writes a value that stands at the given level of indentation. -/
def writePretty (level : Nat) : Value → List Char
  | .array [] => ['[', ']']
  | .array elements =>
      '[' :: (prettyElements (level + 1) elements ++ newline level ++ [']'])
  | .object [] => ['\x7b', '\x7d']
  | .object members =>
      '\x7b' :: (prettyMembers (level + 1) members ++ newline level ++ ['\x7d'])
  | .null => ['n', 'u', 'l', 'l']
  | .bool true => ['t', 'r', 'u', 'e']
  | .bool false => ['f', 'a', 'l', 's', 'e']
  | .number number => number.text.toList
  | .string text => writeString text

def prettyElements (level : Nat) : List Value → List Char
  | [] => []
  | [element] => newline level ++ writePretty level element
  | element :: elements =>
      newline level ++ writePretty level element ++ ',' :: prettyElements level elements

def prettyMembers (level : Nat) : List (String × Value) → List Char
  | [] => []
  | [(key, value)] => newline level ++ writeString key ++ ':' :: ' ' :: writePretty level value
  | (key, value) :: members =>
      newline level ++ writeString key ++
        ':' :: ' ' :: (writePretty level value ++ ',' :: prettyMembers level members)

end

def Value.compact (value : Value) : String :=
  String.ofList (writeCompact value)

def Value.pretty (value : Value) : String :=
  String.ofList (writePretty 0 value)

end TraitIndex.Json
