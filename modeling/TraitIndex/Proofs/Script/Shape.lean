import Mathlib.Data.List.Forall2
import TraitIndex.Script.Table

/-!
# The shapes of a table

The table is taken apart twice, over its members and over the items of each, and both times the
first misfit ends the search.  What it finds is described here without the search: either every
member has the shape of an entry, and the entries stand one for one beside the members, or some
member is the first that has not.  Nothing is asked of the symbols and of the markup themselves.
-/

namespace TraitIndex.Script

section Misfits

variable {α : Type} {fits : α → Prop} {misfit : Nat → α → Prop}

/-- Some item is a misfit at its place and all items before it fit. -/
def FirstMisfit (fits : α → Prop) (misfit : Nat → α → Prop) (items : List α) : Prop :=
  ∃ earlier item later, items = earlier ++ item :: later ∧
    (∀ other ∈ earlier, fits other) ∧ misfit earlier.length item

@[simp]
theorem firstMisfit_nil : ¬ FirstMisfit fits misfit [] := by
  rintro ⟨earlier, item, later, same, _⟩
  simp at same

theorem firstMisfit_cons {item : α} {items : List α} :
    FirstMisfit fits misfit (item :: items) ↔
      misfit 0 item ∨
        fits item ∧ FirstMisfit fits (fun position => misfit (position + 1)) items := by
  constructor
  · rintro ⟨earlier, first, later, same, before, isMisfit⟩
    cases earlier with
    | nil =>
        cases same
        exact .inl isMisfit
    | cons other earlier =>
        cases same
        refine .inr ⟨before item List.mem_cons_self, earlier, first, later, rfl, ?_, isMisfit⟩
        intro other mem
        exact before other (List.mem_cons_of_mem _ mem)
  · rintro (isMisfit | ⟨fit, earlier, first, later, rfl, before, isMisfit⟩)
    · exact ⟨[], item, items, rfl, by simp, isMisfit⟩
    · refine ⟨item :: earlier, first, later, rfl, ?_, isMisfit⟩
      intro other mem
      rcases List.mem_cons.mp mem with rfl | mem
      · exact fit
      · exact before other mem

end Misfits

/-- An item stands for a markup text that it is or that it starts with. -/
inductive Marks : Json.Value → String → Prop where
  | text (markup : String) : Marks (.string markup) markup
  | first (markup : String) (further : List Json.Value) :
      Marks (.array (.string markup :: further)) markup

def Marked (item : Json.Value) : Prop :=
  ∃ markup, Marks item markup

/-- A member with the shape of an entry has an item for each of its descriptors. -/
inductive Shapes : String × Json.Value → Entry → Prop where
  | list {symbol : String} {items : List Json.Value} {descriptors : List Descriptor}
      (marks : List.Forall₂ (fun item descriptor => Marks item descriptor.text)
        items descriptors) :
      Shapes (symbol, .array items) ⟨symbol, descriptors⟩

def Shaped (member : String × Json.Value) : Prop :=
  ∃ entry, Shapes member entry

/-- A member without the shape of an entry, and the error that names its first misfit. -/
inductive Misshapen : String × Json.Value → LoadError → Prop where
  | value {symbol : String} {value : Json.Value} (noList : ∀ items, value ≠ .array items) :
      Misshapen (symbol, value) (.invalidSymbolValue symbol)
  | item {symbol : String} {earlier later : List Json.Value} {item : Json.Value}
      (before : ∀ other ∈ earlier, Marked other) (unmarked : ¬ Marked item) :
      Misshapen (symbol, .array (earlier ++ item :: later)) (.invalidEntry symbol earlier.length)

def FirstMisshapen (members : List (String × Json.Value)) (error : LoadError) : Prop :=
  FirstMisfit Shaped (fun _ member => Misshapen member error) members

theorem markup?_eq_some_iff {item : Json.Value} {markup : String} :
    markup? item = some markup ↔ Marks item markup := by
  constructor
  · intro found
    unfold markup? at found
    split at found
    · cases found
      exact .text markup
    · cases found
      exact .first markup _
    · cases found
  · intro marks
    cases marks with
    | text => rfl
    | first => rfl

theorem markup?_eq_none_iff {item : Json.Value} : markup? item = none ↔ ¬ Marked item := by
  rw [Option.eq_none_iff_forall_ne_some, Marked, not_exists]
  exact forall_congr' fun markup => not_congr markup?_eq_some_iff

theorem descriptorsFrom_eq_ok_iff {symbol : String} {position : Nat} {items : List Json.Value}
    {descriptors : List Descriptor} :
    descriptorsFrom symbol position items = .ok descriptors ↔
      List.Forall₂ (fun item descriptor => Marks item descriptor.text) items descriptors := by
  induction items generalizing position descriptors with
  | nil => simp [descriptorsFrom, eq_comm]
  | cons item items ih =>
      rw [descriptorsFrom, List.forall₂_cons_left_iff]
      constructor
      · intro found
        cases marked : markup? item with
        | none => simp [marked] at found
        | some markup =>
            rcases others : descriptorsFrom symbol (position + 1) items with error | rest
            · simp [marked, others] at found
            · simp only [marked, others, Except.ok.injEq] at found
              exact ⟨⟨markup⟩, rest, markup?_eq_some_iff.mp marked, ih.mp others, found.symm⟩
      · rintro ⟨descriptor, rest, marks, others, rfl⟩
        rw [markup?_eq_some_iff.mpr marks]
        simp [ih.mpr others]

theorem descriptorsFrom_eq_error_iff {symbol : String} {position : Nat}
    {items : List Json.Value} {error : LoadError} :
    descriptorsFrom symbol position items = .error error ↔
      FirstMisfit Marked
        (fun index item => ¬ Marked item ∧ error = .invalidEntry symbol (position + index))
        items := by
  induction items generalizing position with
  | nil => simp [descriptorsFrom]
  | cons item items ih =>
      rw [descriptorsFrom, firstMisfit_cons]
      cases marked : markup? item with
      | none =>
          have unmarked := markup?_eq_none_iff.mp marked
          simp only [unmarked, not_false_eq_true, true_and, false_and, or_false, Nat.add_zero,
            Except.error.injEq]
          exact eq_comm
      | some markup =>
          have marks : Marked item := ⟨markup, markup?_eq_some_iff.mp marked⟩
          have others := @ih (position + 1)
          simp only [Nat.add_assoc, Nat.add_comm 1] at others
          simp only [marks, not_true, false_and, false_or, true_and, ← others]
          cases descriptorsFrom symbol (position + 1) items <;> simp

theorem entryOf_eq_ok_iff {symbol : String} {value : Json.Value} {entry : Entry} :
    entryOf symbol value = .ok entry ↔ Shapes (symbol, value) entry := by
  constructor
  · intro found
    unfold entryOf at found
    split at found
    · rename_i items
      rcases taken : descriptorsFrom symbol 0 items with error | descriptors
      · simp [taken] at found
      · simp only [taken, Except.ok.injEq] at found
        subst found
        exact .list (descriptorsFrom_eq_ok_iff.mp taken)
    · cases found
  · rintro ⟨marks⟩
    simp [entryOf, descriptorsFrom_eq_ok_iff.mpr marks]

theorem entryOf_eq_error_iff {symbol : String} {value : Json.Value} {error : LoadError} :
    entryOf symbol value = .error error ↔ Misshapen (symbol, value) error := by
  constructor
  · intro found
    unfold entryOf at found
    split at found
    · rename_i items
      rcases taken : descriptorsFrom symbol 0 items with failure | descriptors
      · simp only [taken, Except.error.injEq] at found
        subst found
        rcases descriptorsFrom_eq_error_iff.mp taken with
          ⟨earlier, item, later, rfl, before, unmarked, same⟩
        rw [Nat.zero_add] at same
        subst same
        exact .item before unmarked
      · simp [taken] at found
    · rename_i noList
      cases found
      exact .value noList
  · intro misshapen
    cases misshapen with
    | value noList =>
        unfold entryOf
        split
        · exact absurd rfl (noList _)
        · rfl
    | @item _ earlier later item before unmarked =>
        have taken : descriptorsFrom symbol 0 (earlier ++ item :: later) =
            .error (.invalidEntry symbol earlier.length) := by
          apply descriptorsFrom_eq_error_iff.mpr
          exact ⟨earlier, item, later, rfl, before, unmarked, by rw [Nat.zero_add]⟩
        simp [entryOf, taken]

theorem entriesOf_eq_ok_iff {members : List (String × Json.Value)} {entries : List Entry} :
    entriesOf members = .ok entries ↔ List.Forall₂ Shapes members entries := by
  induction members generalizing entries with
  | nil => simp [entriesOf, eq_comm]
  | cons member members ih =>
      rcases member with ⟨symbol, value⟩
      rw [entriesOf, List.forall₂_cons_left_iff]
      constructor
      · intro found
        rcases taken : entryOf symbol value with error | entry
        · simp [taken] at found
        · rcases others : entriesOf members with error | rest
          · simp [taken, others] at found
          · simp only [taken, others, Except.ok.injEq] at found
            exact ⟨entry, rest, entryOf_eq_ok_iff.mp taken, ih.mp others, found.symm⟩
      · rintro ⟨entry, rest, shapes, others, rfl⟩
        simp [entryOf_eq_ok_iff.mpr shapes, ih.mpr others]

theorem entriesOf_eq_error_iff {members : List (String × Json.Value)} {error : LoadError} :
    entriesOf members = .error error ↔ FirstMisshapen members error := by
  unfold FirstMisshapen
  induction members with
  | nil => simp [entriesOf]
  | cons member members ih =>
      rcases member with ⟨symbol, value⟩
      rw [entriesOf, firstMisfit_cons, ← ih, ← entryOf_eq_error_iff]
      rcases taken : entryOf symbol value with failure | entry
      · have unshaped : ¬ Shaped (symbol, value) := by
          rintro ⟨entry, shapes⟩
          rw [entryOf_eq_ok_iff.mpr shapes] at taken
          cases taken
        simp [unshaped]
      · have shaped : Shaped (symbol, value) := ⟨entry, entryOf_eq_ok_iff.mp taken⟩
        simp only [shaped, true_and, reduceCtorEq, false_or]
        cases entriesOf members <;> simp

end TraitIndex.Script
