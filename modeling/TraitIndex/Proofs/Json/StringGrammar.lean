import Mathlib.Logic.Basic
import TraitIndex.Proofs.Json.Extension.String

/-!
# The grammar of strings

Between its quotes a string is spelt character by character.  A character stands for itself, unless
it is a quote, a backslash or a control character, or an escape stands for it: one of a few letters,
a code unit in four hexadecimal digits, or the code units of a surrogate pair.  The grammar says
nothing of how a text is read.  The reader takes exactly the texts of the grammar, for the strings
that they spell.
-/

namespace TraitIndex.Json

section Units

/-- Holds of the hexadecimal digits with the given value; letters may be small or capital. -/
def IsHexDigit (value : Nat) (digit : Char) : Prop :=
  "0123456789abcdef".toList[value]? = some digit ∨ "0123456789ABCDEF".toList[value]? = some digit

instance (value : Nat) (digit : Char) : Decidable (IsHexDigit value digit) :=
  inferInstanceAs (Decidable (_ ∨ _))

/-- Holds of the four digits that a code unit is written in. -/
inductive WritesUnit : Nat → List Char → Prop where
  | digits {a b c d : Nat} {first second third fourth : Char} (isFirst : IsHexDigit a first)
      (isSecond : IsHexDigit b second) (isThird : IsHexDigit c third)
      (isFourth : IsHexDigit d fourth) :
      WritesUnit (((a * 16 + b) * 16 + c) * 16 + d) [first, second, third, fourth]

theorem IsHexDigit.lt {value : Nat} {digit : Char} (isDigit : IsHexDigit value digit) :
    value < 16 := by
  rcases isDigit with listed | listed
  · exact (List.getElem?_eq_some_iff.mp listed).1
  · exact (List.getElem?_eq_some_iff.mp listed).1

theorem toNat_lt_of_hexValue {value : Nat} {digit : Char} (found : hexValue digit = some value) :
    digit.toNat < 128 := by
  have upTo : ∀ last : Char, digit ≤ last → digit.toNat ≤ last.toNat := fun _ le => le
  rw [hexValue] at found
  split at found
  · rename_i isDigit
    simp only [Char.isDigit, Bool.and_eq_true, decide_eq_true_eq] at isDigit
    have le : digit.toNat ≤ '9'.toNat := isDigit.2
    exact Nat.lt_of_le_of_lt le (by decide)
  · split at found
    · rename_i isSmall
      exact Nat.lt_of_le_of_lt (upTo 'f' isSmall.2) (by decide)
    · split at found
      · rename_i isCapital
        exact Nat.lt_of_le_of_lt (upTo 'F' isCapital.2) (by decide)
      · cases found

theorem hexValue_of_listed {digits : List Char} {value : Nat} {digit : Char}
    (values : digits.map hexValue = (List.range 16).map some)
    (listed : digits[value]? = some digit) : hexValue digit = some value := by
  have found : (digits.map hexValue)[value]? = some (hexValue digit) := by
    rw [List.getElem?_map, listed, Option.map_some]
  rw [values, List.getElem?_map] at found
  obtain ⟨position, isPosition, eq⟩ := Option.map_eq_some_iff.mp found
  obtain ⟨isBelow, rfl⟩ := List.getElem?_eq_some_iff.mp isPosition
  rw [← eq, List.getElem_range]

theorem hexValue_eq_some_iff {value : Nat} {digit : Char} :
    hexValue digit = some value ↔ IsHexDigit value digit := by
  constructor
  · intro found
    have all : ∀ code : Fin 128, ∀ value ∈ hexValue (Char.ofNat code),
        IsHexDigit value (Char.ofNat code) := by decide
    have own := all ⟨digit.toNat, toNat_lt_of_hexValue found⟩ value
    rw [Char.ofNat_toNat] at own
    exact own found
  · rintro (small | capital)
    · exact hexValue_of_listed (by decide) small
    · exact hexValue_of_listed (by decide) capital

theorem WritesUnit.lt {codeUnit : Nat} {digits : List Char} (written : WritesUnit codeUnit digits) :
    codeUnit < 0x10000 := by
  cases written with
  | digits isFirst isSecond isThird isFourth =>
      have first := isFirst.lt
      have second := isSecond.lt
      have third := isThird.lt
      have fourth := isFourth.lt
      omega

theorem WritesUnit.readUnit_append {codeUnit : Nat} {digits : List Char}
    (written : WritesUnit codeUnit digits) (rest : List Char) :
    readUnit (digits ++ rest) = .ok (codeUnit, rest) := by
  rcases written with ⟨isFirst, isSecond, isThird, isFourth⟩
  rw [← hexValue_eq_some_iff] at isFirst isSecond isThird isFourth
  simp [readUnit, isFirst, isSecond, isThird, isFourth]

theorem readUnit_eq_ok_iff {codeUnit : Nat} {text rest : List Char} :
    readUnit text = .ok (codeUnit, rest) ↔
      ∃ digits, WritesUnit codeUnit digits ∧ text = digits ++ rest := by
  constructor
  · intro found
    rcases text with _ | ⟨first, _ | ⟨second, _ | ⟨third, _ | ⟨fourth, left⟩⟩⟩⟩
    · simp [readUnit] at found
    · simp [readUnit] at found
    · simp [readUnit] at found
    · simp [readUnit] at found
    · simp only [readUnit] at found
      split at found
      · rename_i a b c d isFirst isSecond isThird isFourth
        cases found
        rw [hexValue_eq_some_iff] at isFirst isSecond isThird isFourth
        exact ⟨_, .digits isFirst isSecond isThird isFourth, rfl⟩
      · cases found
  · rintro ⟨digits, written, rfl⟩
    exact written.readUnit_append rest

end Units

section Escapes

/-- The letters that may stand behind a backslash, and what each stands for. -/
def letterEscapes : List (Char × Char) :=
  [('"', '"'), ('\\', '\\'), ('/', '/'), ('b', '\x08'), ('f', '\x0c'), ('n', '\n'), ('r', '\r'),
    ('t', '\t')]

/-- What may stand behind a backslash for a character.  No character has the number of half a
surrogate pair, so neither half can stand alone. -/
inductive Escapes : Char → List Char → Prop where
  | letter {letter character : Char} (listed : (letter, character) ∈ letterEscapes) :
      Escapes character [letter]
  | codeUnit {character : Char} {digits : List Char}
      (written : WritesUnit character.toNat digits) : Escapes character ('u' :: digits)
  | pair {character : Char} {high low : Nat} {first second : List Char}
      (isHigh : 0xD800 ≤ high ∧ high ≤ 0xDBFF) (isLow : 0xDC00 ≤ low ∧ low ≤ 0xDFFF)
      (together : character.toNat = 0x10000 + (high - 0xD800) * 0x400 + (low - 0xDC00))
      (writtenHigh : WritesUnit high first) (writtenLow : WritesUnit low second) :
      Escapes character ('u' :: (first ++ '\\' :: 'u' :: second))

theorem unescape?_eq_some_iff {letter character : Char} :
    unescape? letter = some character ↔ (letter, character) ∈ letterEscapes := by
  constructor
  · intro found
    unfold unescape? at found
    split at found
    all_goals cases found
    all_goals decide
  · intro listed
    simp only [letterEscapes, List.mem_cons, Prod.mk.injEq, List.not_mem_nil, or_false] at listed
    rcases listed with h | h | h | h | h | h | h | h
    all_goals
      rcases h with ⟨rfl, rfl⟩
      rfl

theorem isHighSurrogate_iff {codeUnit : Nat} :
    isHighSurrogate codeUnit = true ↔ 0xD800 ≤ codeUnit ∧ codeUnit ≤ 0xDBFF := by
  simp [isHighSurrogate]

theorem isLowSurrogate_iff {codeUnit : Nat} :
    isLowSurrogate codeUnit = true ↔ 0xDC00 ≤ codeUnit ∧ codeUnit ≤ 0xDFFF := by
  simp [isLowSurrogate]

theorem toNat_ofNat_of_valid {code : Nat} (valid : code.isValidChar) :
    (Char.ofNat code).toNat = code := by
  rw [Char.ofNat, dif_pos valid]
  rfl

theorem exists_digits_of_readLowHalf {high : Nat} {character : Char} {text rest : List Char}
    (found : readLowHalf high text = .ok (character, rest)) :
    ∃ digits, text = '\\' :: 'u' :: digits := by
  rcases text with _ | ⟨first, _ | ⟨second, digits⟩⟩
  · cases found
  · simp only [readLowHalf] at found
    split at found <;> cases found
  · by_cases backslash : first = '\\'
    · by_cases letter : second = 'u'
      · exact ⟨digits, by rw [backslash, letter]⟩
      · simp [readLowHalf, backslash, letter] at found
    · simp [readLowHalf, backslash] at found

theorem readLowHalf_eq_ok_iff {high : Nat} {character : Char} {text rest : List Char}
    (isHigh : 0xD800 ≤ high ∧ high ≤ 0xDBFF) :
    readLowHalf high text = .ok (character, rest) ↔
      ∃ low digits, (0xDC00 ≤ low ∧ low ≤ 0xDFFF) ∧ WritesUnit low digits ∧
        character.toNat = 0x10000 + (high - 0xD800) * 0x400 + (low - 0xDC00) ∧
        text = '\\' :: 'u' :: (digits ++ rest) := by
  constructor
  · intro found
    rcases exists_digits_of_readLowHalf found with ⟨digits, rfl⟩
    rcases unit : readUnit digits with failure | ⟨low, left⟩
    · simp [readLowHalf, unit] at found
    · rcases readUnit_eq_ok_iff.mp unit with ⟨digits, written, rfl⟩
      by_cases isLow : isLowSurrogate low = true
      · simp only [readLowHalf, unit, isLow, ne_eq, not_true_eq_false, if_true, if_false,
          Except.ok.injEq, Prod.mk.injEq] at found
        rcases found with ⟨rfl, rfl⟩
        rw [isLowSurrogate_iff] at isLow
        have valid : (0x10000 + (high - 0xD800) * 0x400 + (low - 0xDC00)).isValidChar :=
          .inr ⟨by omega, by omega⟩
        exact ⟨low, digits, isLow, written, toNat_ofNat_of_valid valid, rfl⟩
      · simp [readLowHalf, unit, isLow] at found
  · rintro ⟨low, digits, isLow, written, together, rfl⟩
    have whole : Char.ofNat (0x10000 + (high - 0xD800) * 0x400 + (low - 0xDC00)) = character := by
      rw [← together, Char.ofNat_toNat]
    simp [readLowHalf, written.readUnit_append, isLowSurrogate_iff.mpr isLow, whole]

theorem isValidChar_of_unit {codeUnit : Nat} {digits : List Char}
    (written : WritesUnit codeUnit digits) (notHigh : ¬ isHighSurrogate codeUnit = true)
    (notLow : ¬ isLowSurrogate codeUnit = true) : codeUnit.isValidChar := by
  have small := written.lt
  rw [isHighSurrogate_iff] at notHigh
  rw [isLowSurrogate_iff] at notLow
  rw [Nat.isValidChar]
  omega

/-- No character has the number of half a surrogate pair. -/
theorem not_surrogate_toNat (character : Char) :
    isHighSurrogate character.toNat = false ∧ isLowSurrogate character.toNat = false := by
  have valid : character.toNat < 0xD800 ∨ 0xDFFF < character.toNat ∧ character.toNat < 0x110000 :=
    character.valid
  simp only [isHighSurrogate, isLowSurrogate, Bool.and_eq_false_iff, decide_eq_false_iff_not]
  omega

theorem readCodePoint_eq_ok_iff {character : Char} {text rest : List Char} :
    readCodePoint text = .ok (character, rest) ↔
      ∃ escape, Escapes character ('u' :: escape) ∧ text = escape ++ rest := by
  constructor
  · intro found
    unfold readCodePoint at found
    rcases unit : readUnit text with failure | ⟨codeUnit, left⟩
    · simp [unit] at found
    · simp only [unit] at found
      rcases readUnit_eq_ok_iff.mp unit with ⟨digits, written, rfl⟩
      split at found
      · cases found
      · rename_i notLow
        split at found
        · rename_i high
          rw [isHighSurrogate_iff] at high
          rcases (readLowHalf_eq_ok_iff high).mp found with
            ⟨low, lowDigits, isLow, writtenLow, together, rfl⟩
          exact ⟨digits ++ '\\' :: 'u' :: lowDigits, .pair high isLow together written writtenLow,
            by simp⟩
        · rename_i notHigh
          cases found
          refine ⟨digits, .codeUnit ?_, rfl⟩
          rwa [toNat_ofNat_of_valid (isValidChar_of_unit written notHigh notLow)]
  · rintro ⟨escape, escapes, rfl⟩
    rw [readCodePoint]
    -- an escape that begins with this letter is not one of the single letters
    generalize opened : 'u' :: escape = whole at escapes
    cases escapes with
    | letter listed =>
        cases opened
        exact absurd listed (by simp [letterEscapes])
    | codeUnit written =>
        cases opened
        rw [written.readUnit_append]
        simp [not_surrogate_toNat]
    | @pair _ high low first second isHigh isLow together writtenHigh writtenLow =>
        cases opened
        have notLow : isLowSurrogate high = false := by
          simp only [isLowSurrogate, Bool.and_eq_false_iff, decide_eq_false_iff_not]
          omega
        rw [List.append_assoc, writtenHigh.readUnit_append]
        simp only [notLow, isHighSurrogate_iff.mpr isHigh]
        exact (readLowHalf_eq_ok_iff isHigh).mpr ⟨low, second, isLow, writtenLow, together, rfl⟩

theorem readEscape_eq_ok_iff {character : Char} {text rest : List Char} :
    readEscape text = .ok (character, rest) ↔
      ∃ escape, Escapes character escape ∧ text = escape ++ rest := by
  constructor
  · intro found
    cases text with
    | nil => cases found
    | cons letter text =>
        simp only [readEscape] at found
        split at found
        · rename_i isUnit
          subst isUnit
          rcases readCodePoint_eq_ok_iff.mp found with ⟨escape, escapes, rfl⟩
          exact ⟨'u' :: escape, escapes, rfl⟩
        · split at found
          · rename_i meaning
            cases found
            exact ⟨[letter], .letter (unescape?_eq_some_iff.mp meaning), rfl⟩
          · cases found
  · rintro ⟨escape, escapes, rfl⟩
    by_cases isUnit : ∃ digits, escape = 'u' :: digits
    · rcases isUnit with ⟨digits, rfl⟩
      exact readCodePoint_eq_ok_iff.mpr ⟨digits, escapes, rfl⟩
    · cases escapes with
      | @letter letter _ listed =>
          have notUnit : letter ≠ 'u' := by
            rintro rfl
            exact isUnit ⟨[], rfl⟩
          simp [readEscape, notUnit, unescape?_eq_some_iff.mpr listed]
      | codeUnit => exact absurd ⟨_, rfl⟩ isUnit
      | pair => exact absurd ⟨_, rfl⟩ isUnit

end Escapes

section Strings

/-- Holds of the texts that may stand between quotes for the given characters. -/
inductive Spells : List Char → List Char → Prop where
  | nil : Spells [] []
  | plain {character : Char} {characters text : List Char} (quote : character ≠ '"')
      (backslash : character ≠ '\\') (visible : 0x20 ≤ character.toNat)
      (others : Spells characters text) : Spells (character :: characters) (character :: text)
  | escape {character : Char} {characters escape text : List Char}
      (escapes : Escapes character escape) (others : Spells characters text) :
      Spells (character :: characters) ('\\' :: (escape ++ text))

/-- Holds of the texts of a string, with its quotes. -/
inductive SpellsString (content : String) : List Char → Prop where
  | quoted {inner : List Char} (spelt : Spells content.toList inner) :
      SpellsString content ('"' :: (inner ++ ['"']))

theorem readString_of_spells {characters inner : List Char} (spelt : Spells characters inner)
    (read rest : List Char) :
    readString read (inner ++ '"' :: rest) =
      .ok (String.ofList (read.reverse ++ characters), rest) := by
  induction spelt generalizing read with
  | nil => simp [readString_quote]
  | plain quote backslash visible _ ih =>
      rw [List.cons_append, readString_plain quote backslash (Nat.not_lt.mpr visible), ih]
      simp
  | escape escapes _ ih =>
      rw [List.cons_append, List.append_assoc,
        readString_escape (readEscape_eq_ok_iff.mpr ⟨_, escapes, rfl⟩), ih]
      simp

theorem exists_spells_of_readString {read text rest : List Char} {content : String}
    (found : readString read text = .ok (content, rest)) :
    ∃ characters inner, Spells characters inner ∧ text = inner ++ '"' :: rest ∧
      content = String.ofList (read.reverse ++ characters) := by
  fun_induction readString read text with
  | case1 => cases found
  | case2 read text =>
      cases found
      exact ⟨[], [], .nil, rfl, by simp⟩
  | case3 => cases found
  | case4 read text escaped after escape _ _ ih =>
      rcases ih found with ⟨characters, inner, spelt, rfl, rfl⟩
      rcases readEscape_eq_ok_iff.mp escape with ⟨written, escapes, rfl⟩
      exact ⟨escaped :: characters, '\\' :: (written ++ inner), .escape escapes spelt, by simp,
        by simp⟩
  | case5 => cases found
  | case6 read character text quote backslash visible ih =>
      rcases ih found with ⟨characters, inner, spelt, rfl, rfl⟩
      exact ⟨character :: characters, character :: inner,
        .plain quote backslash (Nat.not_lt.mp visible) spelt, rfl, by simp⟩

/-- Behind an opening quote, the reader takes what spells a string up to its closing quote. -/
theorem readString_eq_ok_iff {content : String} {text rest : List Char} :
    readString [] text = .ok (content, rest) ↔
      ∃ token, SpellsString content token ∧ '"' :: text = token ++ rest := by
  constructor
  · intro found
    rcases exists_spells_of_readString found with ⟨characters, inner, spelt, rfl, rfl⟩
    exact ⟨'"' :: (inner ++ ['"']), .quoted (by simpa using spelt), by simp⟩
  · rintro ⟨_, ⟨spelt⟩, same⟩
    simp only [List.cons_append, List.append_assoc, List.cons.injEq, true_and] at same
    rw [same]
    simpa using readString_of_spells spelt [] rest

end Strings

end TraitIndex.Json
