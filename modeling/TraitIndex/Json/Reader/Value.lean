import TraitIndex.Json.Reader.String
import TraitIndex.Json.Reader.Number
import TraitIndex.Json.Reader.Sequence

/-!
# Reading values

The first character decides what a value is.  Brackets nest to a limited depth; the reader for the
values inside a bracket is the one for a depth that is smaller by one.
-/

namespace TraitIndex.Json

/-- Reads the characters of `word`; a wrong byte counts as read. -/
def readWord {α : Type} (value : α) : List Char → List Char → Reading α
  | [], text => .ok (value, text)
  | _ :: _, [] => .error ⟨.endOfValue, [], 0⟩
  | expected :: word, character :: rest =>
      if character = expected then readWord value word rest
      else .error ⟨.expectedIdent, character :: rest, 1⟩

theorem length_le_of_readWord {α : Type} {value : α} {word text : List Char} {found : α}
    {rest : List Char} (read : readWord value word text = .ok (found, rest)) :
    rest.length ≤ text.length := by
  induction word generalizing text with
  | nil =>
      simp only [readWord, Except.ok.injEq, Prod.mk.injEq] at read
      exact Nat.le_of_eq (congrArg List.length read.2.symm)
  | cons expected word ih =>
      cases text with
      | nil => simp [readWord] at read
      | cons character text =>
          rw [readWord] at read
          split at read
          · exact Nat.le_succ_of_le (ih read)
          · cases read

def runMember (value : Reader Value) (text : List Char) : Reading (String × Value) :=
  match text with
  | [] => .error ⟨.endOfValue, [], 0⟩
  | first :: rest =>
      if first ≠ '"' then .error ⟨.keyMustBeString, text, 1⟩
      else
        match readString [] rest with
        | .error failure => .error failure
        | .ok (key, afterKey) =>
            match skipBlanks afterKey with
            | [] => .error ⟨.endOfObject, [], 0⟩
            | colon :: afterColon =>
                if colon ≠ ':' then .error ⟨.expectedColon, colon :: afterColon, 1⟩
                else Reading.map (key, ·) (value.run afterColon)

theorem shortens_runMember (value : Reader Value) (text : List Char) :
    Reading.Shortens text (runMember value text) := by
  unfold runMember
  split
  · exact Reading.shortens_error
  · rename_i first rest
    split
    · exact Reading.shortens_error
    · cases read : readString [] rest with
      | error => exact Reading.shortens_error
      | ok found =>
          have shorter := shortens_readString [] rest _ _ read
          have le := length_skipBlanks_le found.2
          dsimp only
          split
          · exact Reading.shortens_error
          · rename_i colon afterColon skipped
            rw [skipped, List.length_cons] at le
            split
            · exact Reading.shortens_error
            · refine ((value.shortens afterColon).map _).mono ?_
              rw [List.length_cons]
              omega

def member (value : Reader Value) : Reader (String × Value) :=
  ⟨runMember value, shortens_runMember value⟩

/-- Reads a value; `nested` reads the values inside brackets, and is absent where the text may not
nest any deeper. -/
def runValue (nested : Option (Reader Value)) (text : List Char) : Reading Value :=
  match skipBlanks text with
  | [] => .error ⟨.endOfValue, [], 0⟩
  | first :: rest =>
      if first = 'n' then readWord .null ['u', 'l', 'l'] rest
      else if first = 't' then readWord (.bool true) ['r', 'u', 'e'] rest
      else if first = 'f' then readWord (.bool false) ['a', 'l', 's', 'e'] rest
      else if first = '-' then Reading.map .number (readNumber true rest)
      else if first.isDigit then Reading.map .number (readNumber false (first :: rest))
      else if first = '"' then Reading.map .string (readString [] rest)
      else if first = '[' ∨ first = '\x7b' then
        match nested with
        | none => .error ⟨.nestingTooDeep, first :: rest, 1⟩
        | some value =>
            if first = '[' then Reading.map .array (readItems listBracket value rest)
            else Reading.map .object (readItems objectBracket (member value) rest)
      else .error ⟨.expectedValue, first :: rest, 1⟩

theorem shortens_readWord {α : Type} {value : α} {word text : List Char} {first : Char}
    {rest : List Char} (le : (first :: rest).length ≤ text.length) :
    Reading.Shortens text (readWord value word rest) := by
  intro found after read
  have kept := length_le_of_readWord read
  rw [List.length_cons] at le
  omega

theorem shortens_runValue (nested : Option (Reader Value)) (text : List Char) :
    Reading.Shortens text (runValue nested text) := by
  have le := length_skipBlanks_le text
  unfold runValue
  split
  · exact Reading.shortens_error
  · rename_i first rest skipped
    rw [skipped] at le
    have restLe : rest.length ≤ text.length := by
      rw [List.length_cons] at le
      omega
    repeat' split
    · exact shortens_readWord le
    · exact shortens_readWord le
    · exact shortens_readWord le
    · exact ((shortens_readNumber true rest).map _).mono restLe
    · exact ((shortens_readNumber false (first :: rest)).map _).mono le
    · exact ((shortens_readString [] rest).map _).mono restLe
    · exact Reading.shortens_error
    · exact ((shortens_readItems _ _ rest).map _).mono restLe
    · exact ((shortens_readItems _ _ rest).map _).mono restLe
    · exact Reading.shortens_error

/-- Reads a value that nests at most `depth` brackets. -/
def value : Nat → Reader Value
  | 0 => ⟨runValue none, shortens_runValue none⟩
  | depth + 1 => ⟨runValue (some (value depth)), shortens_runValue (some (value depth))⟩

/-- The number of brackets that a text may nest. -/
def maxDepth : Nat :=
  127

end TraitIndex.Json
