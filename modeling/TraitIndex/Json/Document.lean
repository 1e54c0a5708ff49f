import TraitIndex.Json.Reader.Value

/-!
# Texts of a required type

Where an object or a string is required, anything else is an error that names what was found.  A
scalar is read to its end first, so that it can be named; a bracket is named without being read.
-/

namespace TraitIndex.Json

/-- The failure for a value of another type than the expected one; `text` starts with it. -/
def wrongType (expected : String) (text : List Char) : Failure :=
  match text with
  | '[' :: _ => ⟨.invalidType .sequence expected, text, 0⟩
  | '\x7b' :: _ => ⟨.invalidType .map expected, text, 0⟩
  | _ =>
      match runValue none text with
      | .error failure => failure
      | .ok (found, rest) => ⟨.invalidType (.scalar found) expected, rest, 0⟩

/-- Reads the members of an object, in order and with repetitions. -/
def readObject (expected : String) (text : List Char) : Reading (List (String × Value)) :=
  match skipBlanks text with
  | [] => .error ⟨.endOfValue, [], 0⟩
  | first :: rest =>
      if first = '\x7b' then readItems objectBracket (member (value (maxDepth - 1))) rest
      else .error (wrongType expected (first :: rest))

/-- Reads a text that consists of one string and blanks around it. -/
def readOnlyString (expected : String) (text : List Char) : Except Failure String :=
  match skipBlanks text with
  | [] => .error ⟨.endOfValue, [], 0⟩
  | first :: rest =>
      if first = '"' then
        match readString [] rest with
        | .error failure => .error failure
        | .ok (content, after) =>
            match skipBlanks after with
            | [] => .ok content
            | left => .error ⟨.trailingCharacters, left, 1⟩
      else .error (wrongType expected (first :: rest))

end TraitIndex.Json
