import TraitIndex.Json.Reading

/-!
# Reading numbers

A numeral has a sign, a whole part without superfluous zeros, and possibly a fraction and an
exponent.  It is read from left to right, and its value is taken only at its end, so a misspelt
numeral is reported before one that is too large.
-/

namespace TraitIndex.Json

/-- Reads the digits of an exponent up to the first with which it exceeds a signed 32-bit integer.
Returns the exponent and whether it did. -/
def readExponentDigits (exponent : Nat) : List Char → Nat × Bool × List Char
  | [] => (exponent, false, [])
  | digit :: rest =>
      if digit.isDigit then
        let next := exponent * 10 + digitValue digit
        if UInt32.size / 2 ≤ next then (next, true, rest) else readExponentDigits next rest
      else (exponent, false, digit :: rest)

/-- Finishes a numeral with the power of ten read so far. -/
def finishFloat (isNegative : Bool) (significand : Nat) (exponent : Int) (rest : List Char) :
    Reading Number :=
  match scale? significand exponent with
  | some value => .ok (signed isNegative value, rest)
  | none => .error ⟨.numberOutOfRange, rest, 0⟩

/-- Reads the exponent whose sign, if any, has been read. -/
def readExponent (isNegative : Bool) (significand : Nat) (exponent : Int) (below : Bool)
    (text : List Char) : Reading Number :=
  match text with
  | [] => .error ⟨.endOfValue, [], 0⟩
  | digit :: _ =>
      if !digit.isDigit then .error ⟨.invalidNumber, text, 1⟩
      else
        match readExponentDigits 0 text with
        | (given, false, rest) =>
            finishFloat isNegative significand
              (if below then exponent - Int.ofNat given else exponent + Int.ofNat given) rest
        | (_, true, rest) =>
            if significand ≠ 0 ∧ below = false then .error ⟨.numberOutOfRange, rest, 0⟩
            else .ok (signed isNegative 0.0, rest.dropWhile Char.isDigit)

def readSignedExponent (isNegative : Bool) (significand : Nat) (exponent : Int)
    (text : List Char) : Reading Number :=
  match text with
  | '+' :: rest => readExponent isNegative significand exponent false rest
  | '-' :: rest => readExponent isNegative significand exponent true rest
  | _ => readExponent isNegative significand exponent false text

def readFloatEnd (isNegative : Bool) (significand : Nat) (exponent : Int) (text : List Char) :
    Reading Number :=
  match text with
  | 'e' :: rest => readSignedExponent isNegative significand exponent rest
  | 'E' :: rest => readSignedExponent isNegative significand exponent rest
  | _ => finishFloat isNegative significand exponent text

def readFraction (isNegative : Bool) (significand : Nat) (exponent : Int) (text : List Char) :
    Reading Number :=
  let digits := text.takeWhile Char.isDigit
  let rest := text.dropWhile Char.isDigit
  if digits.isEmpty then
    .error ⟨if rest.isEmpty then .endOfValue else .invalidNumber, rest, 1⟩
  else
    let absorbed := absorb significand digits
    readFloatEnd isNegative absorbed.1
      (exponent - Int.ofNat (digits.length - absorbed.2.length)) rest

/-- Reads what follows the whole part of a numeral; `extra` digits of that part did not fit. -/
def readNumberEnd (isNegative : Bool) (significand extra : Nat) (text : List Char) :
    Reading Number :=
  match text with
  | '.' :: rest => readFraction isNegative significand (Int.ofNat extra) rest
  | 'e' :: rest => readSignedExponent isNegative significand (Int.ofNat extra) rest
  | 'E' :: rest => readSignedExponent isNegative significand (Int.ofNat extra) rest
  | _ =>
      if extra = 0 then .ok (wholeNumber isNegative significand, text)
      else finishFloat isNegative significand (Int.ofNat extra) text

def readNumber (isNegative : Bool) (text : List Char) : Reading Number :=
  match text with
  | [] => .error ⟨.endOfValue, [], 0⟩
  | first :: rest =>
      if first = '0' then
        if (rest.head?.map Char.isDigit).getD false then .error ⟨.invalidNumber, rest, 1⟩
        else readNumberEnd isNegative 0 0 rest
      else if first.isDigit then
        let absorbed := absorb 0 (text.takeWhile Char.isDigit)
        readNumberEnd isNegative absorbed.1 absorbed.2.length (text.dropWhile Char.isDigit)
      else .error ⟨.invalidNumber, text, 1⟩

theorem length_readExponentDigits_le (exponent : Nat) (text : List Char) :
    (readExponentDigits exponent text).2.2.length ≤ text.length := by
  fun_induction readExponentDigits exponent text with
  | case1 => exact Nat.le_refl _
  | case2 => simp
  | case3 exponent digit rest _ _ _ ih =>
      exact Nat.le_succ_of_le ih
  | case4 => exact Nat.le_refl _

theorem keeps_finishFloat (isNegative : Bool) (significand : Nat) (exponent : Int)
    (text : List Char) :
    Reading.Keeps text (finishFloat isNegative significand exponent text) := by
  unfold finishFloat
  split
  · exact Reading.keeps_ok (Nat.le_refl _)
  · exact Reading.keeps_error

theorem keeps_readExponent (isNegative : Bool) (significand : Nat) (exponent : Int)
    (below : Bool) (text : List Char) :
    Reading.Keeps text (readExponent isNegative significand exponent below text) := by
  unfold readExponent
  split
  · exact Reading.keeps_error
  · rename_i digit others
    split
    · exact Reading.keeps_error
    · have shorter := length_readExponentDigits_le 0 (digit :: others)
      split
      · rename_i given rest same
        rw [same] at shorter
        exact (keeps_finishFloat _ _ _ _).mono shorter
      · rename_i given rest same
        rw [same] at shorter
        split
        · exact Reading.keeps_error
        · exact Reading.keeps_ok (Nat.le_trans (length_dropWhile_le _ _) shorter)

theorem keeps_readSignedExponent (isNegative : Bool) (significand : Nat) (exponent : Int)
    (text : List Char) :
    Reading.Keeps text (readSignedExponent isNegative significand exponent text) := by
  unfold readSignedExponent
  split
  · exact (keeps_readExponent _ _ _ _ _).mono (by simp)
  · exact (keeps_readExponent _ _ _ _ _).mono (by simp)
  · exact keeps_readExponent _ _ _ _ _

theorem keeps_readFloatEnd (isNegative : Bool) (significand : Nat) (exponent : Int)
    (text : List Char) :
    Reading.Keeps text (readFloatEnd isNegative significand exponent text) := by
  unfold readFloatEnd
  split
  · exact (keeps_readSignedExponent _ _ _ _).mono (by simp)
  · exact (keeps_readSignedExponent _ _ _ _).mono (by simp)
  · exact keeps_finishFloat _ _ _ _

theorem keeps_readFraction (isNegative : Bool) (significand : Nat) (exponent : Int)
    (text : List Char) :
    Reading.Keeps text (readFraction isNegative significand exponent text) := by
  unfold readFraction
  dsimp only
  split
  · exact Reading.keeps_error
  · exact (keeps_readFloatEnd _ _ _ _).mono (length_dropWhile_le _ _)

theorem keeps_readNumberEnd (isNegative : Bool) (significand extra : Nat) (text : List Char) :
    Reading.Keeps text (readNumberEnd isNegative significand extra text) := by
  unfold readNumberEnd
  split
  · exact (keeps_readFraction _ _ _ _).mono (by simp)
  · exact (keeps_readSignedExponent _ _ _ _).mono (by simp)
  · exact (keeps_readSignedExponent _ _ _ _).mono (by simp)
  · split
    · exact Reading.keeps_ok (Nat.le_refl _)
    · exact keeps_finishFloat _ _ _ _

theorem shortens_readNumber (isNegative : Bool) (text : List Char) :
    Reading.Shortens text (readNumber isNegative text) := by
  unfold readNumber
  split
  · exact Reading.shortens_error
  · rename_i first rest
    split
    · split
      · exact Reading.shortens_error
      · exact (keeps_readNumberEnd _ _ _ _).shortens (by simp)
    · split
      · rename_i digit
        dsimp only
        refine (keeps_readNumberEnd _ _ _ _).shortens ?_
        rw [List.dropWhile_cons, if_pos digit]
        exact Nat.lt_succ_of_le (length_dropWhile_le _ _)
      · exact Reading.shortens_error

end TraitIndex.Json
