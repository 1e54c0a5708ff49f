import TraitIndex.Json.Reader.Number
import TraitIndex.Proofs.Json.Extension

/-!
# Numerals in longer texts

A numeral goes on as long as digits, a point or an exponent follow.  Where it ended before the text
did, the character behind it has been seen; where it ended with the text, a longer text must not
begin with such a character.
-/

namespace TraitIndex.Json

theorem selfDelimiting_finishFloat (isNegative : Bool) (significand : Nat) (exponent : Int) :
    SelfDelimiting (finishFloat isNegative significand exponent) := by
  intro text rest value found suffix
  unfold finishFloat at found ⊢
  cases scaled : scale? significand exponent with
  | none => simp [scaled] at found
  | some float =>
      simp only [scaled] at found ⊢
      exact ok_append found suffix

theorem eq_of_finishFloat {isNegative : Bool} {significand : Nat} {exponent : Int}
    {text rest : List Char} {value : Number}
    (found : finishFloat isNegative significand exponent text = .ok (value, rest)) :
    rest = text := by
  unfold finishFloat at found
  split at found
  · simp only [Except.ok.injEq, Prod.mk.injEq] at found
    exact found.2.symm
  · cases found

theorem readExponentDigits_append {exponent given : Nat} {exceeds : Bool}
    {text rest : List Char} (found : readExponentDigits exponent text = (given, exceeds, rest))
    (suffix : List Char) (ends : exceeds = false → rest = [] → EndsNumeral suffix) :
    readExponentDigits exponent (text ++ suffix) = (given, exceeds, rest ++ suffix) := by
  induction text generalizing exponent with
  | nil =>
      simp only [readExponentDigits, Prod.mk.injEq] at found
      rcases found with ⟨rfl, rfl, rfl⟩
      cases suffix with
      | nil => rfl
      | cons first suffix =>
          have stops := (ends rfl rfl).not_digit first rfl
          simp [readExponentDigits, stops]
  | cons digit text ih =>
      rw [List.cons_append, readExponentDigits]
      rw [readExponentDigits] at found
      by_cases isDigit : digit.isDigit = true
      · simp only [isDigit, if_true] at found ⊢
        by_cases large : UInt32.size / 2 ≤ exponent * 10 + digitValue digit
        · simp only [large, if_true, Prod.mk.injEq] at found ⊢
          rcases found with ⟨rfl, rfl, rfl⟩
          exact ⟨rfl, rfl, rfl⟩
        · simp only [large, if_false] at found ⊢
          exact ih found
      · simp only [isDigit, Bool.false_eq_true, if_false, Prod.mk.injEq] at found ⊢
        rcases found with ⟨rfl, rfl, rfl⟩
        exact ⟨rfl, rfl, rfl⟩

theorem delimited_readExponent (isNegative : Bool) (significand : Nat) (exponent : Int)
    (below : Bool) : Delimited (readExponent isNegative significand exponent below) := by
  intro text rest value found suffix ends
  cases text with
  | nil => simp [readExponent] at found
  | cons digit text =>
      rw [List.cons_append, readExponent]
      rw [readExponent] at found
      by_cases isDigit : digit.isDigit = true
      · simp only [isDigit, Bool.not_true, Bool.false_eq_true, if_false] at found ⊢
        rw [← List.cons_append]
        rcases digits : readExponentDigits 0 (digit :: text) with ⟨given, exceeds, left⟩
        rw [digits] at found
        cases exceeds with
        | false =>
            simp only at found
            have same : rest = left := eq_of_finishFloat found
            rw [readExponentDigits_append digits suffix fun _ nothing => ends (same ▸ nothing)]
            exact selfDelimiting_finishFloat _ _ _ found suffix
        | true =>
            rw [readExponentDigits_append digits suffix fun impossible => by cases impossible]
            simp only at found ⊢
            split at found
            · cases found
            · rename_i fits
              simp only [Except.ok.injEq, Prod.mk.injEq] at found
              rcases found with ⟨rfl, rfl⟩
              rw [if_neg fits, dropWhile_append_of_ends fun nothing => (ends nothing).not_digit]
      · simp [isDigit] at found

theorem readSignedExponent_of_unsigned {isNegative : Bool} {significand : Nat} {exponent : Int}
    {first : Char} {text : List Char} (plus : first ≠ '+') (minus : first ≠ '-') :
    readSignedExponent isNegative significand exponent (first :: text) =
      readExponent isNegative significand exponent false (first :: text) := by
  unfold readSignedExponent
  split
  · simp_all
  · simp_all
  · rfl

theorem delimited_readSignedExponent (isNegative : Bool) (significand : Nat) (exponent : Int) :
    Delimited (readSignedExponent isNegative significand exponent) := by
  intro text rest value found suffix ends
  cases text with
  | nil => simp [readSignedExponent, readExponent] at found
  | cons first text =>
      by_cases plus : first = '+'
      · subst plus
        exact delimited_readExponent _ _ _ _ found suffix ends
      · by_cases minus : first = '-'
        · subst minus
          exact delimited_readExponent _ _ _ _ found suffix ends
        · rw [readSignedExponent_of_unsigned plus minus] at found
          rw [List.cons_append, readSignedExponent_of_unsigned plus minus]
          exact delimited_readExponent _ _ _ _ found suffix ends

theorem readFloatEnd_of_ends {isNegative : Bool} {significand : Nat} {exponent : Int}
    {text : List Char} (ends : ∀ first ∈ text.head?, first ≠ 'e' ∧ first ≠ 'E') :
    readFloatEnd isNegative significand exponent text =
      finishFloat isNegative significand exponent text := by
  unfold readFloatEnd
  split
  · exact absurd rfl (ends 'e' rfl).1
  · exact absurd rfl (ends 'E' rfl).2
  · rfl

theorem delimited_readFloatEnd (isNegative : Bool) (significand : Nat) (exponent : Int) :
    Delimited (readFloatEnd isNegative significand exponent) := by
  intro text rest value found suffix ends
  cases text with
  | nil =>
      rw [readFloatEnd_of_ends (by simp)] at found
      have nothing : rest = [] := eq_of_finishFloat found
      have closed := selfDelimiting_finishFloat _ _ _ found suffix
      rw [readFloatEnd_of_ends]
      · exact closed
      · intro first head
        exact (ends nothing first head).2.2
  | cons first text =>
      by_cases lower : first = 'e'
      · subst lower
        exact delimited_readSignedExponent _ _ _ found suffix ends
      · by_cases upper : first = 'E'
        · subst upper
          exact delimited_readSignedExponent _ _ _ found suffix ends
        · rw [readFloatEnd_of_ends (by simp [lower, upper])] at found
          rw [readFloatEnd_of_ends (by simp [lower, upper])]
          exact selfDelimiting_finishFloat _ _ _ found suffix

theorem delimited_readFraction (isNegative : Bool) (significand : Nat) (exponent : Int) :
    Delimited (readFraction isNegative significand exponent) := by
  intro text rest value found suffix ends
  have noDigit : text.dropWhile Char.isDigit = [] →
      ∀ first ∈ suffix.head?, first.isDigit = false := by
    intro nothing
    unfold readFraction at found
    dsimp only at found
    split at found
    · cases found
    · rw [nothing] at found
      exact (ends (nil_of_keeps (keeps_readFloatEnd _ _ _ _) found)).not_digit
  unfold readFraction at found ⊢
  dsimp only at found ⊢
  rw [takeWhile_append_of_ends noDigit, dropWhile_append_of_ends noDigit]
  split at found
  · cases found
  · rename_i some
    rw [if_neg some]
    exact delimited_readFloatEnd _ _ _ found suffix ends

theorem readNumberEnd_of_ends {isNegative : Bool} {significand extra : Nat} {text : List Char}
    (ends : ∀ first ∈ text.head?, first ≠ '.' ∧ first ≠ 'e' ∧ first ≠ 'E') :
    readNumberEnd isNegative significand extra text =
      if extra = 0 then .ok (wholeNumber isNegative significand, text)
      else finishFloat isNegative significand (Int.ofNat extra) text := by
  unfold readNumberEnd
  split
  · exact absurd rfl (ends '.' rfl).1
  · exact absurd rfl (ends 'e' rfl).2.1
  · exact absurd rfl (ends 'E' rfl).2.2
  · rfl

theorem selfDelimiting_wholeEnd (isNegative : Bool) (significand extra : Nat) :
    SelfDelimiting fun text =>
      if extra = 0 then .ok (wholeNumber isNegative significand, text)
      else finishFloat isNegative significand (Int.ofNat extra) text := by
  intro text rest value found suffix
  by_cases exact : extra = 0
  · simp only [exact, if_true] at found ⊢
    exact ok_append found suffix
  · simp only [exact, if_false] at found ⊢
    exact selfDelimiting_finishFloat _ _ _ found suffix

theorem delimited_readNumberEnd (isNegative : Bool) (significand extra : Nat) :
    Delimited (readNumberEnd isNegative significand extra) := by
  intro text rest value found suffix ends
  cases text with
  | nil =>
      have nothing : rest = [] := nil_of_keeps (keeps_readNumberEnd _ _ _ _) found
      rw [readNumberEnd_of_ends (by simp)] at found
      have closed := selfDelimiting_wholeEnd isNegative significand extra found suffix
      rw [readNumberEnd_of_ends]
      · exact closed
      · intro first head
        exact (ends nothing first head).2
  | cons first text =>
      by_cases point : first = '.'
      · subst point
        exact delimited_readFraction _ _ _ found suffix ends
      · by_cases lower : first = 'e'
        · subst lower
          exact delimited_readSignedExponent _ _ _ found suffix ends
        · by_cases upper : first = 'E'
          · subst upper
            exact delimited_readSignedExponent _ _ _ found suffix ends
          · rw [readNumberEnd_of_ends (by simp [point, lower, upper])] at found
            rw [readNumberEnd_of_ends (by simp [point, lower, upper])]
            exact selfDelimiting_wholeEnd isNegative significand extra found suffix

theorem delimited_readNumber (isNegative : Bool) : Delimited (readNumber isNegative) := by
  intro text rest value found suffix ends
  cases text with
  | nil => simp [readNumber] at found
  | cons first text =>
      rw [List.cons_append]
      by_cases zero : first = '0'
      · simp only [readNumber, zero, if_true] at found ⊢
        split at found
        · cases found
        · rename_i noDigit
          rw [if_neg]
          · exact delimited_readNumberEnd _ _ _ found suffix ends
          · cases text with
            | cons second text => simpa using noDigit
            | nil =>
                have nothing := nil_of_keeps (keeps_readNumberEnd _ _ _ _) found
                cases suffix with
                | nil => simp
                | cons second suffix => simp [(ends nothing).not_digit second rfl]
      · by_cases digit : first.isDigit = true
        · simp only [readNumber, zero, digit, if_true, if_false] at found ⊢
          have noDigit : (first :: text).dropWhile Char.isDigit = [] →
              ∀ second ∈ suffix.head?, second.isDigit = false := by
            intro nothing
            rw [nothing] at found
            exact (ends (nil_of_keeps (keeps_readNumberEnd _ _ _ _) found)).not_digit
          rw [← List.cons_append, takeWhile_append_of_ends noDigit,
            dropWhile_append_of_ends noDigit]
          exact delimited_readNumberEnd _ _ _ found suffix ends
        · simp [readNumber, zero, digit] at found

end TraitIndex.Json
