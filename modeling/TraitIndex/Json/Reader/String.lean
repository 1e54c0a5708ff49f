import TraitIndex.Json.Reading

/-!
# Reading strings

The characters between two quotes stand for themselves, control characters excepted, or are given by
escapes: one letter after a backslash, or a code unit in hexadecimal digits.  A character outside
the basic plane takes two code units, the halves of a surrogate pair.
-/

namespace TraitIndex.Json

def hexValue (digit : Char) : Option Nat :=
  if digit.isDigit then some (digit.toNat - '0'.toNat)
  else if 'a' ≤ digit ∧ digit ≤ 'f' then some (digit.toNat - 'a'.toNat + 10)
  else if 'A' ≤ digit ∧ digit ≤ 'F' then some (digit.toNat - 'A'.toNat + 10)
  else none

/-- Reads the four hexadecimal digits of a code unit. -/
def readUnit (text : List Char) : Reading Nat :=
  let refusal : Failure :=
    if byteCount text < 4 then ⟨.endOfString, [], 0⟩ else ⟨.invalidEscape, text, 4⟩
  match text with
  | first :: second :: third :: fourth :: rest =>
      match hexValue first, hexValue second, hexValue third, hexValue fourth with
      | some a, some b, some c, some d => .ok (((a * 16 + b) * 16 + c) * 16 + d, rest)
      | _, _, _, _ => .error refusal
  | _ => .error refusal

def isHighSurrogate (codeUnit : Nat) : Bool :=
  0xD800 ≤ codeUnit && codeUnit ≤ 0xDBFF

def isLowSurrogate (codeUnit : Nat) : Bool :=
  0xDC00 ≤ codeUnit && codeUnit ≤ 0xDFFF

def readLowHalf (high : Nat) (text : List Char) : Reading Char :=
  match text with
  | [] => .error ⟨.endOfString, [], 0⟩
  | first :: rest =>
      if first ≠ '\\' then .error ⟨.brokenSurrogatePair, text, 1⟩
      else
        match rest with
        | [] => .error ⟨.endOfString, [], 0⟩
        | second :: digits =>
            if second ≠ 'u' then .error ⟨.brokenSurrogatePair, rest, 1⟩
            else
              match readUnit digits with
              | .error failure => .error failure
              | .ok (low, rest) =>
                  if isLowSurrogate low then
                    .ok (Char.ofNat (0x10000 + (high - 0xD800) * 0x400 + (low - 0xDC00)), rest)
                  else .error ⟨.loneSurrogate, rest, 0⟩

/-- Reads a character given by its code unit or by the two halves of a surrogate pair. -/
def readCodePoint (text : List Char) : Reading Char :=
  match readUnit text with
  | .error failure => .error failure
  | .ok (codeUnit, rest) =>
      if isLowSurrogate codeUnit then .error ⟨.loneSurrogate, rest, 0⟩
      else if isHighSurrogate codeUnit then readLowHalf codeUnit rest
      else .ok (Char.ofNat codeUnit, rest)

def unescape? : Char → Option Char
  | '"' => some '"'
  | '\\' => some '\\'
  | '/' => some '/'
  | 'b' => some '\x08'
  | 'f' => some '\x0c'
  | 'n' => some '\n'
  | 'r' => some '\r'
  | 't' => some '\t'
  | _ => none

def readEscape (text : List Char) : Reading Char :=
  match text with
  | [] => .error ⟨.endOfString, [], 0⟩
  | letter :: rest =>
      if letter = 'u' then readCodePoint rest
      else
        match unescape? letter with
        | some character => .ok (character, rest)
        | none => .error ⟨.invalidEscape, text, 1⟩

theorem shortens_readUnit (text : List Char) : Reading.Shortens text (readUnit text) := by
  unfold readUnit
  dsimp only
  split
  · split
    · apply Reading.shortens_ok
      simp only [List.length_cons]
      omega
    · exact Reading.shortens_error
  · exact Reading.shortens_error

theorem shortens_readLowHalf (high : Nat) (text : List Char) :
    Reading.Shortens text (readLowHalf high text) := by
  unfold readLowHalf
  split
  · exact Reading.shortens_error
  · split
    · exact Reading.shortens_error
    · split
      · exact Reading.shortens_error
      · rename_i first _ second digits
        split
        · exact Reading.shortens_error
        · cases read : readUnit digits with
          | error => exact Reading.shortens_error
          | ok found =>
              have shorter := shortens_readUnit digits found.1 found.2 read
              dsimp only
              split
              · apply Reading.shortens_ok
                simp only [List.length_cons]
                omega
              · exact Reading.shortens_error

theorem shortens_readCodePoint (text : List Char) :
    Reading.Shortens text (readCodePoint text) := by
  unfold readCodePoint
  cases read : readUnit text with
  | error => exact Reading.shortens_error
  | ok found =>
      have shorter := shortens_readUnit text found.1 found.2 read
      dsimp only
      split
      · exact Reading.shortens_error
      · split
        · exact (shortens_readLowHalf found.1 found.2).mono (Nat.le_of_lt shorter)
        · exact Reading.shortens_ok shorter

theorem shortens_readEscape (text : List Char) : Reading.Shortens text (readEscape text) := by
  unfold readEscape
  split
  · exact Reading.shortens_error
  · split
    · exact (shortens_readCodePoint _).mono (by simp)
    · split
      · exact Reading.shortens_ok (by simp)
      · exact Reading.shortens_error

/-- Reads the rest of a string whose opening quote has been read; `read` holds its characters so
far, the latest first. -/
def readString (read : List Char) (text : List Char) : Reading String :=
  match text with
  | [] => .error ⟨.endOfString, [], 0⟩
  | character :: rest =>
      if character = '"' then .ok (String.ofList read.reverse, rest)
      else if character = '\\' then
        match escape : readEscape rest with
        | .error failure => .error failure
        | .ok (escaped, after) =>
            have : after.length < rest.length := shortens_readEscape rest escaped after escape
            readString (escaped :: read) after
      else if character.toNat < 0x20 then .error ⟨.controlCharacter, rest, 0⟩
      else readString (character :: read) rest
termination_by text.length

theorem shortens_readString (read text : List Char) :
    Reading.Shortens text (readString read text) := by
  fun_induction readString read text with
  | case1 => exact Reading.shortens_error
  | case2 => exact Reading.shortens_ok (by simp)
  | case3 => exact Reading.shortens_error
  | case4 read rest _ escaped after _ shorter ih =>
      exact ih.mono (by simp only [List.length_cons]; omega)
  | case5 => exact Reading.shortens_error
  | case6 _ _ _ _ _ _ ih => exact ih.mono (by simp)

end TraitIndex.Json
