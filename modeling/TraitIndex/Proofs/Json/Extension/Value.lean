import TraitIndex.Json.Document
import TraitIndex.Proofs.Json.Extension.Number
import TraitIndex.Proofs.Json.Extension.String

/-!
# Values in longer texts

A sequence is closed by its bracket even if its items are merely delimited: whatever an item is
followed by, a comma or the bracket has been seen.  The induction on the depth of values rests on
this.
-/

namespace TraitIndex.Json

variable {α : Type}

theorem selfDelimiting_readWord (value : α) (word : List Char) :
    SelfDelimiting (readWord value word) := by
  intro text rest found read suffix
  induction word generalizing text with
  | nil =>
      simp only [readWord] at read ⊢
      exact ok_append read suffix
  | cons expected word ih =>
      cases text with
      | nil => simp [readWord] at read
      | cons character text =>
          rw [readWord] at read
          rw [List.cons_append, readWord]
          split at read
          · rename_i same
            rw [if_pos same]
            exact ih read
          · cases read

section Sequences

variable {bracket : Bracket} {item : Reader α}

theorem readMore_close {text rest : List Char}
    (skipped : skipBlanks text = bracket.close :: rest) :
    readMore bracket item text = .ok ([], rest) := by
  rw [readMore]
  split
  · simp_all
  · simp_all

theorem readMore_comma {text rest others after : List Char} {next : Char} {value : α}
    (skipped : skipBlanks text = ',' :: rest) (comma : ',' ≠ bracket.close)
    (nextSkipped : skipBlanks rest = next :: others) (nextItem : next ≠ bracket.close)
    (found : item.run (next :: others) = .ok (value, after)) :
    readMore bracket item text = Reading.map (value :: ·) (readMore bracket item after) := by
  rw [readMore]
  split
  · simp_all
  · rename_i first left same
    rw [skipped] at same
    cases same
    rw [if_neg comma, if_pos rfl]
    split
    · simp_all
    · rename_i second left same
      rw [nextSkipped] at same
      cases same
      rw [if_neg nextItem]
      split
      · rename_i failure failed
        rw [nextSkipped, found] at failed
        cases failed
      · rename_i inner left read
        rw [nextSkipped, found] at read
        cases read
        rfl

theorem ne_nil_of_readMore {text rest : List Char} {values : List α}
    (found : readMore bracket item text = .ok (values, rest)) : text ≠ [] := by
  rintro rfl
  rw [readMore] at found
  cases found

theorem selfDelimiting_readMore (comma : ',' ≠ bracket.close) (delimited : Delimited item.run) :
    SelfDelimiting (readMore bracket item) := by
  intro text rest values found suffix
  fun_induction readMore bracket item text generalizing values with
  | case1 => cases found
  | case2 text left skipped =>
      simp only [Except.ok.injEq, Prod.mk.injEq] at found
      rcases found with ⟨rfl, rfl⟩
      exact readMore_close (skipBlanks_append skipped suffix)
  | case3 => cases found
  | case4 => cases found
  | case5 => cases found
  | case6 text left next others nextSkipped nextItem value after read skipped _ _ ih =>
      rcases map_eq_ok.mp found with ⟨values, more, rfl⟩
      rw [nextSkipped] at read
      -- the item does not end the text, as the sequence goes on behind it
      have longer : item.run (next :: (others ++ suffix)) = .ok (value, after ++ suffix) :=
        delimited read suffix fun nothing => absurd nothing (ne_nil_of_readMore more)
      rw [readMore_comma (skipBlanks_append skipped suffix) comma
        (skipBlanks_append nextSkipped suffix) nextItem longer]
      exact map_eq_ok.mpr ⟨values, ih more, rfl⟩
  | case7 => cases found

theorem readItems_close {text rest : List Char}
    (skipped : skipBlanks text = bracket.close :: rest) :
    readItems bracket item text = .ok ([], rest) := by
  rw [readItems, skipped]
  exact if_pos rfl

theorem readItems_item {text others after : List Char} {first : Char} {value : α}
    (skipped : skipBlanks text = first :: others) (firstItem : first ≠ bracket.close)
    (found : item.run (first :: others) = .ok (value, after)) :
    readItems bracket item text = Reading.map (value :: ·) (readMore bracket item after) := by
  rw [readItems, skipped]
  simp only [firstItem, if_false, found]

theorem selfDelimiting_readItems (comma : ',' ≠ bracket.close) (delimited : Delimited item.run) :
    SelfDelimiting (readItems bracket item) := by
  intro text rest values found suffix
  have reading := found
  rw [readItems] at found
  split at found
  · cases found
  · rename_i first left skipped
    have skippedLonger := skipBlanks_append skipped suffix
    by_cases close : first = bracket.close
    · simp only [close, if_true, Except.ok.injEq, Prod.mk.injEq] at found
      rcases found with ⟨rfl, rfl⟩
      rw [close] at skippedLonger
      exact readItems_close skippedLonger
    · rw [if_neg close] at found
      rcases read : item.run (first :: left) with failure | ⟨value, after⟩
      · simp [read] at found
      · simp only [read] at found
        rcases map_eq_ok.mp found with ⟨values, more, rfl⟩
        have longer : item.run (first :: (left ++ suffix)) = .ok (value, after ++ suffix) :=
          delimited read suffix fun nothing => absurd nothing (ne_nil_of_readMore more)
        rw [readItems_item skippedLonger close longer]
        exact map_eq_ok.mpr ⟨values, selfDelimiting_readMore comma delimited more suffix, rfl⟩

end Sequences

theorem delimited_runMember {value : Reader Value} (delimited : Delimited value.run) :
    Delimited (runMember value) := by
  intro text rest found read suffix ends
  cases text with
  | nil => simp [runMember] at read
  | cons quote text =>
      simp only [runMember, List.cons_append] at read ⊢
      by_cases quoted : quote = '"'
      · simp only [quoted, ne_eq, not_true, if_false] at read ⊢
        rcases readKey : readString [] text with failure | ⟨key, afterKey⟩
        · simp [readKey] at read
        · rw [selfDelimiting_readString [] readKey suffix]
          simp only [readKey] at read ⊢
          cases skipped : skipBlanks afterKey with
          | nil => simp [skipped] at read
          | cons colon afterColon =>
              rw [skipBlanks_append skipped]
              simp only [skipped] at read ⊢
              split at read
              · cases read
              · rename_i isColon
                rw [if_neg isColon]
                exact delimited.map _ read suffix ends
      · simp [quoted] at read

theorem delimited_runValue {nested : Option (Reader Value)}
    (delimited : ∀ value ∈ nested, Delimited value.run) : Delimited (runValue nested) := by
  intro text rest found read suffix ends
  unfold runValue at read ⊢
  cases skipped : skipBlanks text with
  | nil => simp [skipped] at read
  | cons first left =>
      rw [skipBlanks_append skipped]
      simp only [skipped] at read ⊢
      by_cases isNull : first = 'n'
      · rw [if_pos isNull] at read ⊢
        exact selfDelimiting_readWord _ _ read suffix
      rw [if_neg isNull] at read ⊢
      by_cases isTrue : first = 't'
      · rw [if_pos isTrue] at read ⊢
        exact selfDelimiting_readWord _ _ read suffix
      rw [if_neg isTrue] at read ⊢
      by_cases isFalse : first = 'f'
      · rw [if_pos isFalse] at read ⊢
        exact selfDelimiting_readWord _ _ read suffix
      rw [if_neg isFalse] at read ⊢
      by_cases isNegative : first = '-'
      · rw [if_pos isNegative] at read ⊢
        exact (delimited_readNumber true).map _ read suffix ends
      rw [if_neg isNegative] at read ⊢
      by_cases isDigit : first.isDigit = true
      · rw [if_pos isDigit] at read ⊢
        exact (delimited_readNumber false).map _ read suffix ends
      rw [if_neg isDigit] at read ⊢
      by_cases isString : first = '"'
      · rw [if_pos isString] at read ⊢
        exact (selfDelimiting_readString []).map _ read suffix
      rw [if_neg isString] at read ⊢
      by_cases opens : first = '[' ∨ first = '\x7b'
      · rw [if_pos opens] at read ⊢
        cases nested with
        | none => cases read
        | some value =>
            have inside : Delimited value.run := delimited value rfl
            have insideMember : Delimited (member value).run := delimited_runMember inside
            by_cases isList : first = '['
            · simp only [isList, if_true] at read ⊢
              exact (selfDelimiting_readItems (by decide) inside).map _ read suffix
            · simp only [isList, if_false] at read ⊢
              exact (selfDelimiting_readItems (by decide) insideMember).map _ read suffix
      · rw [if_neg opens] at read
        cases read

theorem delimited_value (depth : Nat) : Delimited (value depth).run := by
  induction depth with
  | zero =>
      change Delimited (runValue none)
      apply delimited_runValue
      intro nested impossible
      cases impossible
  | succ depth ih =>
      change Delimited (runValue (some (value depth)))
      apply delimited_runValue
      intro nested same
      cases same
      exact ih

/-- An object is closed by its bracket, so nothing behind it is looked at. -/
theorem selfDelimiting_readObject (expected : String) : SelfDelimiting (readObject expected) := by
  intro text rest members read suffix
  unfold readObject at read ⊢
  cases skipped : skipBlanks text with
  | nil => simp [skipped] at read
  | cons first left =>
      rw [skipBlanks_append skipped]
      simp only [skipped] at read ⊢
      by_cases opens : first = '\x7b'
      · rw [if_pos opens] at read ⊢
        have inside := delimited_runMember (delimited_value (maxDepth - 1))
        exact selfDelimiting_readItems (by decide) inside read suffix
      · rw [if_neg opens] at read
        cases read

end TraitIndex.Json
