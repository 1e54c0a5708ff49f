import TraitIndex.Json.Reader.String
import TraitIndex.Proofs.Json.Extension

/-!
# Strings in longer texts

Escapes have a fixed length and a string ends with its quote, so none of them depends on what stands
behind it.
-/

namespace TraitIndex.Json

theorem selfDelimiting_readUnit : SelfDelimiting readUnit := by
  intro text rest value found suffix
  rcases text with _ | ⟨first, _ | ⟨second, _ | ⟨third, _ | ⟨fourth, text⟩⟩⟩⟩
  · simp [readUnit] at found
  · simp [readUnit] at found
  · simp [readUnit] at found
  · simp [readUnit] at found
  · simp only [readUnit, List.cons_append] at found ⊢
    split at found
    · exact ok_append found suffix
    · cases found

theorem selfDelimiting_readLowHalf (high : Nat) : SelfDelimiting (readLowHalf high) := by
  intro text rest value found suffix
  rcases text with _ | ⟨first, _ | ⟨second, digits⟩⟩
  · simp [readLowHalf] at found
  · simp only [readLowHalf] at found
    split at found <;> cases found
  · simp only [readLowHalf, List.cons_append] at found ⊢
    split at found
    · cases found
    · rename_i backslash
      split at found
      · cases found
      · rename_i letter
        rw [if_neg backslash, if_neg letter]
        rcases unit : readUnit digits with failure | ⟨low, left⟩
        · simp [unit] at found
        · rw [selfDelimiting_readUnit unit suffix]
          simp only [unit] at found ⊢
          split at found
          · rename_i isLow
            rw [if_pos isLow]
            exact ok_append found suffix
          · cases found

theorem selfDelimiting_readCodePoint : SelfDelimiting readCodePoint := by
  intro text rest value found suffix
  unfold readCodePoint at found ⊢
  rcases unit : readUnit text with failure | ⟨codeUnit, left⟩
  · simp [unit] at found
  · rw [selfDelimiting_readUnit unit suffix]
    simp only [unit] at found ⊢
    by_cases low : isLowSurrogate codeUnit = true
    · simp [low] at found
    · by_cases high : isHighSurrogate codeUnit = true
      · simp only [low, high, Bool.false_eq_true, if_true, if_false] at found ⊢
        exact selfDelimiting_readLowHalf _ found suffix
      · simp only [low, high, Bool.false_eq_true, if_false] at found ⊢
        exact ok_append found suffix

theorem selfDelimiting_readEscape : SelfDelimiting readEscape := by
  intro text rest value found suffix
  cases text with
  | nil => simp [readEscape] at found
  | cons letter text =>
      simp only [readEscape, List.cons_append] at found ⊢
      by_cases codePoint : letter = 'u'
      · simp only [codePoint, if_true] at found ⊢
        exact selfDelimiting_readCodePoint found suffix
      · simp only [codePoint, if_false] at found ⊢
        cases meaning : unescape? letter with
        | none => simp [meaning] at found
        | some character =>
            simp only [meaning] at found ⊢
            exact ok_append found suffix

theorem readString_quote (read text : List Char) :
    readString read ('"' :: text) = .ok (String.ofList read.reverse, text) := by
  rw [readString, if_pos rfl]

theorem readString_escape {read text after : List Char} {escaped : Char}
    (escape : readEscape text = .ok (escaped, after)) :
    readString read ('\\' :: text) = readString (escaped :: read) after := by
  rw [readString, if_neg (by decide), if_pos rfl]
  split
  · simp_all
  · simp_all

theorem readString_plain {read text : List Char} {character : Char} (quote : character ≠ '"')
    (backslash : character ≠ '\\') (visible : ¬ character.toNat < 0x20) :
    readString read (character :: text) = readString (character :: read) text := by
  rw [readString, if_neg quote, if_neg backslash, if_neg visible]

theorem selfDelimiting_readString (read : List Char) : SelfDelimiting (readString read) := by
  intro text rest value found suffix
  fun_induction readString read text with
  | case1 => cases found
  | case2 read text =>
      rw [List.cons_append, readString_quote]
      exact ok_append found suffix
  | case3 => cases found
  | case4 read text escaped after escape _ _ ih =>
      rw [List.cons_append, readString_escape (selfDelimiting_readEscape escape suffix)]
      exact ih found
  | case5 => cases found
  | case6 read character text quote backslash visible ih =>
      rw [List.cons_append, readString_plain quote backslash visible]
      exact ih found

end TraitIndex.Json
