import Mathlib.Data.List.Nodup
import TraitIndex.Fragment

/-!
# Well-formed fragments

The search for a fault carries the symbols of the entries it has passed.  It finds none exactly when
nothing is blank and no entry repeats a symbol of those before it.
-/

namespace TraitIndex

/-- Holds of an entry in which neither the symbol nor a descriptor is blank. -/
def Entry.Visible (entry : Entry) : Prop :=
  Text.allBlank entry.symbol = false ∧
    ∀ descriptor ∈ entry.descriptors, descriptor.isWellFormed = true

namespace Fragment

theorem entryFault?_eq_none_iff {earlier : List String} {position : Nat} {entry : Entry} :
    entryFault? earlier position entry = none ↔ entry.Visible ∧ entry.symbol ∉ earlier := by
  unfold entryFault? Entry.Visible
  by_cases blank : Text.allBlank entry.symbol = true
  · simp [blank]
  · by_cases known : entry.symbol ∈ earlier
    · simp [blank, known]
    · simp [blank, known]

theorem firstFault?_eq_none_iff {earlier : List String} {position : Nat} {entries : List Entry} :
    firstFault? earlier position entries = none ↔
      (∀ entry ∈ entries, entry.Visible ∧ entry.symbol ∉ earlier) ∧
        (entries.map Entry.symbol).Nodup := by
  induction entries generalizing earlier position with
  | nil => simp [firstFault?]
  | cons entry entries ih =>
      rw [firstFault?]
      cases own : entryFault? earlier position entry with
      | some fault =>
          have faulty : ¬ (entry.Visible ∧ entry.symbol ∉ earlier) := by
            intro fine
            rw [entryFault?_eq_none_iff.mpr fine] at own
            cases own
          simp [faulty]
      | none =>
          have fine := entryFault?_eq_none_iff.mp own
          simp only [ih, List.forall_mem_cons, List.map_cons, List.nodup_cons]
          constructor
          · rintro ⟨others, nodup⟩
            refine ⟨⟨fine, ?_⟩, ?_, nodup⟩
            · intro other mem
              rcases others other mem with ⟨visible, new⟩
              exact ⟨visible, fun known => new (List.mem_cons_of_mem _ known)⟩
            · intro repeated
              rcases List.mem_map.mp repeated with ⟨other, mem, same⟩
              exact (others other mem).2 (same ▸ List.mem_cons_self)
          · rintro ⟨⟨_, others⟩, new, nodup⟩
            refine ⟨?_, nodup⟩
            intro other mem
            refine ⟨(others other mem).1, ?_⟩
            intro known
            rcases List.mem_cons.mp known with same | known
            · exact new (same ▸ List.mem_map_of_mem mem)
            · exact (others other mem).2 known

/-- A fragment is well formed when nothing in it is blank and no symbol is repeated. -/
theorem wellFormed_iff {fragment : Fragment} :
    fragment.WellFormed ↔
      (∀ entry ∈ fragment.entries, entry.Visible) ∧ fragment.symbols.Nodup := by
  rw [WellFormed, fault?, firstFault?_eq_none_iff, symbols]
  simp

theorem WellFormed.nodup_symbols {fragment : Fragment} (wellFormed : fragment.WellFormed) :
    fragment.symbols.Nodup :=
  (wellFormed_iff.mp wellFormed).2

theorem mem_symbols_of_get? {fragment : Fragment} {symbol : String} {list : List Descriptor}
    (found : fragment.get? symbol = some list) : symbol ∈ fragment.symbols := by
  rw [get?, Option.map_eq_some_iff] at found
  rcases found with ⟨entry, isFirst, _⟩
  have own := List.find?_some isFirst
  rw [decide_eq_true_eq] at own
  exact List.mem_map.mpr ⟨entry, List.mem_of_find?_eq_some isFirst, own⟩

/-- A well-formed fragment has one list for each of its symbols. -/
theorem WellFormed.get?_of_mem {fragment : Fragment} (wellFormed : fragment.WellFormed)
    {entry : Entry} (mem : entry ∈ fragment.entries) :
    fragment.get? entry.symbol = some entry.descriptors := by
  cases found : fragment.entries.find? fun other => other.symbol = entry.symbol with
  | none =>
      have absent := List.find?_eq_none.mp found entry mem
      simp at absent
  | some other =>
      have own := List.find?_some found
      rw [decide_eq_true_eq] at own
      have same := List.inj_on_of_nodup_map wellFormed.nodup_symbols
        (List.mem_of_find?_eq_some found) mem own
      rw [get?, found, same, Option.map_some]

end Fragment

end TraitIndex
