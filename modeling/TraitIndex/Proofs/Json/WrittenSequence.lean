import Mathlib.Data.List.Forall2
import TraitIndex.Proofs.Json.Extension.Value

/-!
# Written sequences are read back

A sequence is written by writing its items one after another, with a comma between any two, the
closing bracket at the end and blanks wherever they may stand.  How an item is written is left open,
and what is written need not be what is read: it is enough that the reader of the items takes each
item's text, whatever follows it, for a value that fits the item.
-/

namespace TraitIndex.Json

variable {α β : Type}

/-- What may stand behind an item: commas and further items up to the closing bracket. -/
inductive WritesMore (close : Char) (writes : α → List Char → Prop) :
    List α → List Char → Prop where
  | close {gap : List Char} (blank : gap.all isBlank = true) :
      WritesMore close writes [] (gap ++ [close])
  | comma {gap gapAfter text more : List Char} {item : α} {items : List α}
      (blank : gap.all isBlank = true) (blankAfter : gapAfter.all isBlank = true)
      (written : writes item text) (others : WritesMore close writes items more) :
      WritesMore close writes (item :: items) (gap ++ ',' :: (gapAfter ++ (text ++ more)))

/-- What may stand behind an opening bracket. -/
inductive WritesItems (close : Char) (writes : α → List Char → Prop) :
    List α → List Char → Prop where
  | close {gap : List Char} (blank : gap.all isBlank = true) :
      WritesItems close writes [] (gap ++ [close])
  | item {gap text more : List Char} {item : α} {items : List α}
      (blank : gap.all isBlank = true) (written : writes item text)
      (others : WritesMore close writes items more) :
      WritesItems close writes (item :: items) (gap ++ (text ++ more))

/-- The reader takes the text for the value, whatever follows it, and the text does not begin with
the bracket that closes the sequence around it. -/
def Legible (bracket : Bracket) (item : Reader β) (value : β) (text : List Char) : Prop :=
  ∀ suffix, EndsNumeral suffix → ∃ first rest, skipBlanks (text ++ suffix) = first :: rest ∧
    first ≠ bracket.close ∧ item.run (first :: rest) = .ok (value, suffix)

theorem WritesMore.mono {close : Char} {writes writes' : α → List Char → Prop}
    (weaker : ∀ item text, writes item text → writes' item text) {items : List α}
    {text : List Char} (written : WritesMore close writes items text) :
    WritesMore close writes' items text := by
  induction written with
  | close blank => exact .close blank
  | comma blank blankAfter written _ ih => exact .comma blank blankAfter (weaker _ _ written) ih

theorem skipBlanks_gap {gap : List Char} (blank : gap.all isBlank = true) (text : List Char) :
    skipBlanks (gap ++ text) = skipBlanks text := by
  induction gap with
  | nil => rfl
  | cons character gap ih =>
      rw [List.all_cons, Bool.and_eq_true] at blank
      rw [List.cons_append, skipBlanks, List.dropWhile_cons, if_pos blank.1]
      exact ih blank.2

theorem skipBlanks_cons {character : Char} (visible : isBlank character = false)
    (text : List Char) : skipBlanks (character :: text) = character :: text := by
  rw [skipBlanks, List.dropWhile_cons, if_neg (by simp [visible])]

theorem skipBlanks_eq_iff {text rest : List Char}
    (visible : ∀ first ∈ rest.head?, isBlank first = false) :
    skipBlanks text = rest ↔ ∃ gap, gap.all isBlank = true ∧ text = gap ++ rest := by
  constructor
  · rintro rfl
    exact ⟨text.takeWhile isBlank, List.all_takeWhile, List.takeWhile_append_dropWhile.symm⟩
  · rintro ⟨gap, blank, rfl⟩
    rw [skipBlanks_gap blank]
    cases rest with
    | nil => rfl
    | cons first rest => exact skipBlanks_cons (visible first rfl) rest

theorem endsNumeral_gap {gap text : List Char} (blank : gap.all isBlank = true)
    (ends : EndsNumeral text) : EndsNumeral (gap ++ text) := by
  cases gap with
  | nil => exact ends
  | cons character gap =>
      rw [List.all_cons, Bool.and_eq_true] at blank
      rcases blank with ⟨blank, _⟩
      intro first head
      cases head
      simp only [isBlank, Bool.or_eq_true, decide_eq_true_eq] at blank
      rcases blank with ((rfl | rfl) | rfl) | rfl <;> decide

/-- Closing brackets and commas are neither blank nor part of a numeral. -/
structure Bracket.Separates (bracket : Bracket) : Prop where
  comma : ',' ≠ bracket.close
  visible : isBlank bracket.close = false
  ends : ∀ text, EndsNumeral (bracket.close :: text)

theorem separates_listBracket : listBracket.Separates where
  comma := by decide
  visible := by decide
  ends text := by
    intro first head
    cases head
    decide

theorem separates_objectBracket : objectBracket.Separates where
  comma := by decide
  visible := by decide
  ends text := by
    intro first head
    cases head
    decide

section Reading

variable {bracket : Bracket} {item : Reader β} {writes : α → List Char → Prop}
  {fits : β → α → Prop}

theorem WritesMore.endsNumeral (separates : bracket.Separates) {items : List α}
    {text : List Char} (written : WritesMore bracket.close writes items text)
    (suffix : List Char) : EndsNumeral (text ++ suffix) := by
  cases written with
  | close blank =>
      rw [List.append_assoc]
      exact endsNumeral_gap blank (separates.ends suffix)
  | comma blank =>
      rw [List.append_assoc]
      apply endsNumeral_gap blank
      intro first head
      cases head
      decide

theorem readMore_of_writes (separates : bracket.Separates)
    (legible : ∀ source text, writes source text →
      ∃ value, fits value source ∧ Legible bracket item value text)
    {items : List α} {text : List Char} (written : WritesMore bracket.close writes items text) :
    ∃ values, List.Forall₂ fits values items ∧
      ∀ suffix, readMore bracket item (text ++ suffix) = .ok (values, suffix) := by
  induction written with
  | close blank =>
      refine ⟨[], .nil, ?_⟩
      intro suffix
      apply readMore_close
      rw [List.append_assoc, skipBlanks_gap blank]
      exact skipBlanks_cons separates.visible suffix
  | @comma gap gapAfter text more source _ blank blankAfter written others ih =>
      rcases legible source text written with ⟨value, fit, reads⟩
      rcases ih with ⟨values, fitted, readOthers⟩
      refine ⟨value :: values, .cons fit fitted, ?_⟩
      intro suffix
      rcases reads (more ++ suffix) (others.endsNumeral separates suffix) with
        ⟨first, rest, skipped, isItem, read⟩
      have afterGap : skipBlanks ((gap ++ ',' :: (gapAfter ++ (text ++ more))) ++ suffix) =
          ',' :: (gapAfter ++ (text ++ (more ++ suffix))) := by
        simp only [List.append_assoc, List.cons_append]
        rw [skipBlanks_gap blank]
        exact skipBlanks_cons (by decide) _
      have afterComma : skipBlanks (gapAfter ++ (text ++ (more ++ suffix))) = first :: rest := by
        rw [skipBlanks_gap blankAfter, skipped]
      rw [readMore_comma afterGap separates.comma afterComma isItem read]
      exact map_eq_ok.mpr ⟨values, readOthers suffix, rfl⟩

theorem readItems_of_writes (separates : bracket.Separates)
    (legible : ∀ source text, writes source text →
      ∃ value, fits value source ∧ Legible bracket item value text)
    {items : List α} {text : List Char} (written : WritesItems bracket.close writes items text) :
    ∃ values, List.Forall₂ fits values items ∧
      ∀ suffix, readItems bracket item (text ++ suffix) = .ok (values, suffix) := by
  cases written with
  | close blank =>
      refine ⟨[], .nil, ?_⟩
      intro suffix
      apply readItems_close
      rw [List.append_assoc, skipBlanks_gap blank]
      exact skipBlanks_cons separates.visible suffix
  | @item gap text more source _ blank written others =>
      rcases legible source text written with ⟨value, fit, reads⟩
      rcases readMore_of_writes separates legible others with ⟨values, fitted, readOthers⟩
      refine ⟨value :: values, .cons fit fitted, ?_⟩
      intro suffix
      rcases reads (more ++ suffix) (others.endsNumeral separates suffix) with
        ⟨first, rest, skipped, isItem, read⟩
      have afterGap : skipBlanks ((gap ++ (text ++ more)) ++ suffix) = first :: rest := by
        rw [List.append_assoc, skipBlanks_gap blank, List.append_assoc, skipped]
      rw [readItems_item afterGap isItem read]
      exact map_eq_ok.mpr ⟨values, readOthers suffix, rfl⟩

theorem readItems_of_legible (separates : bracket.Separates) {values : List β}
    {text : List Char} (written : WritesItems bracket.close (Legible bracket item) values text)
    (suffix : List Char) : readItems bracket item (text ++ suffix) = .ok (values, suffix) := by
  have itself : ∀ value text, Legible bracket item value text →
      ∃ found, found = value ∧ Legible bracket item found text :=
    fun value text legible => ⟨value, rfl, legible⟩
  rcases readItems_of_writes separates itself written with ⟨found, same, read⟩
  rw [List.forall₂_eq_eq_eq] at same
  subst same
  exact read suffix

end Reading

end TraitIndex.Json
