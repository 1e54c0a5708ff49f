import Mathlib.Data.List.Induction
import TraitIndex.Proofs.Fragment

/-!
# The first fault

Whether entries are valid is a matter of all of them together: every text in them shows a character
and no symbol occurs twice.  The search for a fault goes from entry to entry and keeps the symbols
it has passed.  It stops at the first entry with which validity is lost, and blames it for the first
thing that is wrong with it; what stands behind that entry is never looked at.
-/

namespace TraitIndex

/-- Holds of a text with a character that is not blank. -/
def Text.Shows (text : String) : Prop :=
  ∃ character ∈ text.toList, Text.isBlank character = false

theorem Text.shows_iff {text : String} : Text.Shows text ↔ Text.allBlank text = false := by
  simp [Text.Shows, Text.allBlank]

theorem Descriptor.isWellFormed_iff_shows {descriptor : Descriptor} :
    descriptor.isWellFormed = true ↔ Text.Shows descriptor.text := by
  rw [Text.shows_iff, Descriptor.isWellFormed, Bool.not_eq_true']

namespace Fragment

/-- Entries that are valid together. -/
structure Valid (entries : List Entry) : Prop where
  symbols : ∀ entry ∈ entries, Text.Shows entry.symbol
  descriptors : ∀ entry ∈ entries, ∀ descriptor ∈ entry.descriptors, Text.Shows descriptor.text
  distinct : entries.Pairwise fun earlier later => earlier.symbol ≠ later.symbol

/-- The entry with which validity is lost, and the entries in front of it. -/
structure FirstInvalid (entries before : List Entry) (entry : Entry) : Prop where
  splits : ∃ after, entries = before ++ entry :: after
  valid : Valid before
  invalid : ¬ Valid (before ++ [entry])

/-- What an entry is blamed for behind the entries `before`; a position is counted from zero. -/
inductive Blames (before : List Entry) (entry : Entry) : Fault → Prop where
  | blankSymbol (blank : ¬ Text.Shows entry.symbol) :
      Blames before entry (.blankSymbol before.length)
  | duplicateSymbol (visible : Text.Shows entry.symbol)
      (known : ∃ earlier ∈ before, earlier.symbol = entry.symbol) :
      Blames before entry (.duplicateSymbol entry.symbol)
  | blankDescriptor {index : Nat} {descriptor : Descriptor} (visible : Text.Shows entry.symbol)
      (new : ∀ earlier ∈ before, earlier.symbol ≠ entry.symbol)
      (listed : entry.descriptors[index]? = some descriptor)
      (blank : ¬ Text.Shows descriptor.text)
      (first : ∀ earlier ∈ entry.descriptors.take index, Text.Shows earlier.text) :
      Blames before entry (.blankDescriptor entry.symbol index)

theorem wellFormed_iff_valid {fragment : Fragment} :
    fragment.WellFormed ↔ Valid fragment.entries := by
  rw [wellFormed_iff, symbols, List.Nodup, List.pairwise_map]
  constructor
  · rintro ⟨visible, distinct⟩
    refine ⟨?_, ?_, distinct⟩
    · intro entry mem
      exact Text.shows_iff.mpr (visible entry mem).1
    · intro entry mem descriptor listed
      exact Descriptor.isWellFormed_iff_shows.mp ((visible entry mem).2 descriptor listed)
  · rintro ⟨symbols, descriptors, distinct⟩
    refine ⟨?_, distinct⟩
    intro entry mem
    refine ⟨Text.shows_iff.mp (symbols entry mem), ?_⟩
    intro descriptor listed
    exact Descriptor.isWellFormed_iff_shows.mpr (descriptors entry mem descriptor listed)

/-- Entries that are not valid together have a first one with which validity is lost. -/
theorem exists_firstInvalid {entries : List Entry} (invalid : ¬ Valid entries) :
    ∃ before entry, FirstInvalid entries before entry := by
  induction entries using List.reverseRecOn with
  | nil => exact absurd ⟨by simp, by simp, .nil⟩ invalid
  | append_singleton entries last ih =>
      by_cases valid : Valid entries
      · exact ⟨entries, last, ⟨[], rfl⟩, valid, invalid⟩
      · rcases ih valid with ⟨before, entry, first⟩
        rcases first.splits with ⟨after, split⟩
        refine ⟨before, entry, ⟨after ++ [last], ?_⟩, first.valid, first.invalid⟩
        rw [split, List.append_assoc, List.cons_append]

theorem firstFault?_cons (earlier : List String) (position : Nat) (entry : Entry)
    (entries : List Entry) :
    firstFault? earlier position (entry :: entries) =
      (entryFault? earlier position entry).or
        (firstFault? (entry.symbol :: earlier) (position + 1) entries) := by
  rw [firstFault?]
  cases entryFault? earlier position entry with
  | none => rfl
  | some fault => rfl

theorem firstFault?_append (earlier : List String) (position : Nat)
    (before entries : List Entry) :
    firstFault? earlier position (before ++ entries) =
      (firstFault? earlier position before).or
        (firstFault? ((before.map Entry.symbol).reverse ++ earlier) (position + before.length)
          entries) := by
  induction before generalizing earlier position with
  | nil => rfl
  | cons entry before ih =>
      rw [List.cons_append, firstFault?_cons, firstFault?_cons, ih, Option.or_assoc]
      simp [Nat.add_assoc, Nat.add_comm 1]

theorem findIdx?_isWellFormed_iff {descriptors : List Descriptor} {index : Nat} :
    (descriptors.findIdx? fun descriptor => !descriptor.isWellFormed) = some index ↔
      (∃ descriptor, descriptors[index]? = some descriptor ∧ ¬ Text.Shows descriptor.text) ∧
        ∀ earlier ∈ descriptors.take index, Text.Shows earlier.text := by
  have isBlank : ∀ descriptor : Descriptor,
      (!descriptor.isWellFormed) = true ↔ ¬ Text.Shows descriptor.text := by
    intro descriptor
    rw [Bool.not_eq_true', ← Descriptor.isWellFormed_iff_shows, Bool.not_eq_true]
  simp only [List.findIdx?_eq_some_iff_getElem, isBlank, not_not]
  constructor
  · rintro ⟨inside, blank, first⟩
    refine ⟨⟨_, List.getElem?_eq_getElem inside, blank⟩, ?_⟩
    intro earlier mem
    rcases List.mem_take_iff_getElem.mp mem with ⟨position, bound, rfl⟩
    exact first position (by omega)
  · rintro ⟨⟨descriptor, listed, blank⟩, first⟩
    rcases List.getElem?_eq_some_iff.mp listed with ⟨inside, rfl⟩
    refine ⟨inside, blank, ?_⟩
    intro position earlier
    apply first
    exact List.mem_take_iff_getElem.mpr ⟨position, by omega, rfl⟩

/-- What the search finds at an entry, with the symbols it has passed, is what the entry is blamed
for. -/
theorem entryFault?_eq_some_iff {before : List Entry} {entry : Entry} {fault : Fault} :
    entryFault? (before.map Entry.symbol).reverse before.length entry = some fault ↔
      Blames before entry fault := by
  have known : entry.symbol ∈ (before.map Entry.symbol).reverse ↔
      ∃ earlier ∈ before, earlier.symbol = entry.symbol := by
    rw [List.mem_reverse, List.mem_map]
  rw [entryFault?]
  constructor
  · intro found
    split at found
    · rename_i blank
      cases found
      exact .blankSymbol (by simp [Text.shows_iff, blank])
    · rename_i visible
      have visible := Text.shows_iff.mpr (Bool.not_eq_true _ ▸ visible)
      split at found
      · rename_i repeated
        cases found
        exact .duplicateSymbol visible (known.mp repeated)
      · rename_i new
        rcases Option.map_eq_some_iff.mp found with ⟨index, isFirst, rfl⟩
        rcases findIdx?_isWellFormed_iff.mp isFirst with ⟨⟨descriptor, listed, blank⟩, first⟩
        refine .blankDescriptor visible ?_ listed blank first
        intro earlier mem same
        exact new (known.mpr ⟨earlier, mem, same⟩)
  · intro blames
    cases blames with
    | blankSymbol blank =>
        rw [Text.shows_iff, Bool.not_eq_false] at blank
        rw [if_pos blank]
    | duplicateSymbol visible repeated =>
        rw [if_neg (by simp [Text.shows_iff.mp visible]), if_pos (known.mpr repeated)]
    | blankDescriptor visible new listed blank first =>
        have isFirst := findIdx?_isWellFormed_iff.mpr ⟨⟨_, listed, blank⟩, first⟩
        rw [if_neg (by simp [Text.shows_iff.mp visible]), if_neg, isFirst, Option.map_some]
        intro repeated
        rcases known.mp repeated with ⟨earlier, mem, same⟩
        exact new earlier mem same

section FirstInvalid

variable {before : List Entry} {entry : Entry}

/-- The search stops at the first entry with which validity is lost, whatever stands behind it. -/
theorem fault?_of_firstInvalid (valid : Valid before) (invalid : ¬ Valid (before ++ [entry]))
    (scope : Option String) (after : List Entry) :
    (Fragment.mk scope (before ++ entry :: after)).fault? =
      entryFault? (before.map Entry.symbol).reverse before.length entry := by
  have faultless : firstFault? [] 0 before = none :=
    wellFormed_iff_valid.mpr (show Valid (Fragment.mk none before).entries from valid)
  have stops : ∀ entries, firstFault? [] 0 (before ++ entry :: entries) =
      (entryFault? (before.map Entry.symbol).reverse before.length entry).or
        (firstFault? (entry.symbol :: (before.map Entry.symbol).reverse) (before.length + 1)
          entries) := by
    intro entries
    rw [firstFault?_append, faultless, Option.none_or, firstFault?_cons, List.append_nil,
      Nat.zero_add]
  have faulty : entryFault? (before.map Entry.symbol).reverse before.length entry ≠ none := by
    intro fine
    apply invalid
    apply (@wellFormed_iff_valid ⟨none, before ++ [entry]⟩).mp
    rw [WellFormed, fault?, stops, fine]
    rfl
  rcases Option.ne_none_iff_exists'.mp faulty with ⟨fault, found⟩
  rw [fault?, stops, found, Option.some_or]

theorem fault?_eq_some_iff_blames (valid : Valid before) (invalid : ¬ Valid (before ++ [entry]))
    (scope : Option String) (after : List Entry) {fault : Fault} :
    (Fragment.mk scope (before ++ entry :: after)).fault? = some fault ↔
      Blames before entry fault := by
  rw [fault?_of_firstInvalid valid invalid]
  exact entryFault?_eq_some_iff

/-- The list of a symbol that no earlier entry has is the one of its entry. -/
theorem get?_of_new (new : ∀ earlier ∈ before, earlier.symbol ≠ entry.symbol)
    (scope : Option String) (after : List Entry) :
    (Fragment.mk scope (before ++ entry :: after)).get? entry.symbol = some entry.descriptors := by
  have passed : before.find? (fun earlier => earlier.symbol = entry.symbol) = none := by
    rw [List.find?_eq_none]
    intro earlier mem
    simpa using new earlier mem
  simp [get?, List.find?_append, passed]

end FirstInvalid

/-- A fragment has a fault exactly when its entries are not valid together.  The fault is the one
that the first entry is blamed for with which validity is lost; it stays the same whatever stands
behind that entry, and where it names a descriptor, a look-up leads to that descriptor. -/
theorem blames_firstInvalid (fragment : Fragment) :
    (fragment.fault? = none ↔ Valid fragment.entries) ∧
    (∀ fault, fragment.fault? = some fault ↔
      ∃ before entry, FirstInvalid fragment.entries before entry ∧ Blames before entry fault) ∧
    ∀ before entry fault, FirstInvalid fragment.entries before entry →
      Blames before entry fault →
        (∀ scope more, (Fragment.mk scope (before ++ entry :: more)).fault? = some fault) ∧
        ∀ symbol index, fault = .blankDescriptor symbol index →
          symbol = entry.symbol ∧ fragment.get? symbol = some entry.descriptors ∧
            ∃ descriptor, entry.descriptors[index]? = some descriptor ∧
              ¬ Text.Shows descriptor.text := by
  rcases fragment with ⟨scope, entries⟩
  refine ⟨wellFormed_iff_valid, ?_, ?_⟩
  · intro fault
    constructor
    · intro found
      have invalid : ¬ Valid entries := by
        intro valid
        rw [wellFormed_iff_valid.mpr valid] at found
        cases found
      rcases exists_firstInvalid invalid with ⟨before, entry, first⟩
      rcases first.splits with ⟨after, rfl⟩
      have blames := (fault?_eq_some_iff_blames first.valid first.invalid scope after).mp found
      exact ⟨before, entry, first, blames⟩
    · rintro ⟨before, entry, ⟨⟨after, rfl⟩, valid, invalid⟩, blames⟩
      exact (fault?_eq_some_iff_blames valid invalid scope after).mpr blames
  · rintro before entry fault ⟨⟨after, rfl⟩, valid, invalid⟩ blames
    constructor
    · intro scope more
      exact (fault?_eq_some_iff_blames valid invalid scope more).mpr blames
    · rintro symbol index rfl
      cases blames with
      | @blankDescriptor _ descriptor visible new listed blank first =>
          exact ⟨rfl, get?_of_new new scope after, descriptor, listed, blank⟩

/-- A blank around a symbol makes another symbol of it. -/
example : (Fragment.mk none [⟨"a", [⟨"x"⟩]⟩, ⟨" a", []⟩, ⟨"a", [⟨" "⟩]⟩, ⟨"", []⟩]).fault? =
    some (.duplicateSymbol "a") := by
  decide

end Fragment

end TraitIndex
