import TraitIndex.Proofs.Fragment
import TraitIndex.Proofs.Index.Merge

/-!
# Rebuilding an index

Taken as the entries of one fragment, the symbols of an index are well formed if everything was that
was merged into it: no symbol is listed twice, and nothing blank comes in.  Merged into a fresh
index of the same policy these entries give the same table again, since there is nothing left for
the policy to combine.
-/

namespace TraitIndex

namespace MergePolicy

theorem addNew_of_nodup {known further : List Descriptor} (nodup : (known ++ further).Nodup) :
    addNew known further = known ++ further := by
  induction further generalizing known with
  | nil => simp [addNew]
  | cons descriptor further ih =>
      have new : descriptor ∉ known := by
        intro listed
        exact (List.nodup_append.mp nodup).2.2 descriptor listed descriptor List.mem_cons_self rfl
      rw [List.append_cons] at nodup ⊢
      rw [addNew, if_neg new]
      exact ih nodup

/-- What a policy made of some lists it leaves as it is. -/
theorem Merges.combine_nil {policy : MergePolicy} {lists : List (List Descriptor)}
    {merged : List Descriptor} (merges : policy.Merges lists merged) :
    policy.combine [] merged = merged := by
  cases merges with
  | append => rfl
  | replace => rfl
  | union firsts =>
      apply addNew_of_nodup
      simpa using firsts.nodup

theorem Merges.mem_flatten {policy : MergePolicy} {lists : List (List Descriptor)}
    {merged : List Descriptor} (merges : policy.Merges lists merged) {descriptor : Descriptor}
    (mem : descriptor ∈ merged) : descriptor ∈ lists.flatten := by
  cases merges with
  | append => exact mem
  | replace earlier last => exact List.mem_flatten_of_mem (by simp) mem
  | union firsts => exact (firsts.mem_iff descriptor).mp mem

end MergePolicy

namespace Index

/-- The symbols of an index as entries, each with all its descriptors. -/
def entries (index : Index) : List Entry :=
  index.table.map fun row => ⟨row.1, row.2⟩

theorem map_symbol_entries (index : Index) : index.entries.map Entry.symbol = index.symbols := by
  simp [entries, symbols, Function.comp_def]

theorem mergeEntry_of_not_mem {policy : MergePolicy} {entry : Entry}
    {table : List (String × List Descriptor)} (new : entry.symbol ∉ table.map Prod.fst) :
    mergeEntry policy entry table =
      table ++ [(entry.symbol, policy.combine [] entry.descriptors)] := by
  induction table with
  | nil => rfl
  | cons row table ih =>
      rw [List.map_cons, List.mem_cons, not_or] at new
      rw [mergeEntry, if_neg fun same => new.1 same.symm, ih new.2]
      rfl

/-- Entries with new symbols come to stand behind the table, in their order. -/
theorem mergeEntries_of_nodup {policy : MergePolicy} {entries : List Entry}
    {table : List (String × List Descriptor)}
    (nodup : (table.map Prod.fst ++ entries.map Entry.symbol).Nodup) :
    mergeEntries policy entries table =
      table ++ entries.map fun entry =>
        (entry.symbol, policy.combine [] entry.descriptors) := by
  induction entries generalizing table with
  | nil => simp [mergeEntries]
  | cons entry entries ih =>
      have new : entry.symbol ∉ table.map Prod.fst := by
        intro listed
        exact (List.nodup_append.mp nodup).2.2 _ listed _ List.mem_cons_self rfl
      have rest : ((mergeEntry policy entry table).map Prod.fst ++
          entries.map Entry.symbol).Nodup := by
        rw [mergeEntry_of_not_mem new]
        simpa using nodup
      have first : mergeEntries policy (entry :: entries) table =
          mergeEntries policy entries (mergeEntry policy entry table) := rfl
      rw [first, ih rest, mergeEntry_of_not_mem new]
      simp

theorem mem_flatten_listsFor {symbol : String} {stream : List Entry} {descriptor : Descriptor} :
    descriptor ∈ (listsFor symbol stream).flatten ↔
      ∃ entry ∈ stream, entry.symbol = symbol ∧ descriptor ∈ entry.descriptors := by
  simp [listsFor, and_assoc]

section Merged

variable {policy : MergePolicy} {stream : List Entry} {index : Index}

theorem Merged.merges_of_mem (merged : Merged policy stream index.table) {entry : Entry}
    (mem : entry ∈ index.entries) :
    policy.Merges (listsFor entry.symbol stream) entry.descriptors := by
  rcases List.mem_map.mp mem with ⟨row, listed, rfl⟩
  exact merged.lists _ _ (lookup_of_mem index.nodup_symbols listed)

/-- What an index holds is as visible as what was merged into it. -/
theorem Merged.visible (merged : Merged policy stream index.table)
    (visible : ∀ entry ∈ stream, entry.Visible) : ∀ entry ∈ index.entries, entry.Visible := by
  intro entry mem
  constructor
  · have listed : entry.symbol ∈ index.symbols := by
      rw [← map_symbol_entries]
      exact List.mem_map_of_mem mem
    rcases List.mem_map.mp ((merged.symbols.mem_iff _).mp listed) with ⟨source, occurs, same⟩
    rw [← same]
    exact (visible source occurs).1
  · intro descriptor held
    have brought := (merged.merges_of_mem mem).mem_flatten held
    rcases mem_flatten_listsFor.mp brought with ⟨source, occurs, _, declared⟩
    exact (visible source occurs).2 descriptor declared

theorem Merged.wellFormed (merged : Merged policy stream index.table)
    (visible : ∀ entry ∈ stream, entry.Visible) (scope : Option String) :
    (Fragment.mk scope index.entries).WellFormed := by
  refine Fragment.wellFormed_iff.mpr ⟨merged.visible visible, ?_⟩
  rw [Fragment.symbols, map_symbol_entries]
  exact index.nodup_symbols

/-- Merging all that an index holds into a fresh one gives the same table again. -/
theorem Merged.mergeEntries_entries (merged : Merged policy stream index.table) :
    Index.mergeEntries policy index.entries [] = index.table := by
  have nodup : (([] : List (String × List Descriptor)).map Prod.fst ++
      index.entries.map Entry.symbol).Nodup := by
    rw [map_symbol_entries]
    exact index.nodup_symbols
  have same : ∀ entry ∈ index.entries,
      (entry.symbol, policy.combine [] entry.descriptors) = (entry.symbol, entry.descriptors) := by
    intro entry mem
    rw [(merged.merges_of_mem mem).combine_nil]
  rw [mergeEntries_of_nodup nodup, List.map_congr_left same]
  simp [entries, Function.comp_def]

theorem Merged.apply_entries (merged : Merged policy stream index.table)
    (same : index.policy = policy) (scope : Option String) :
    (empty policy).apply ⟨scope, index.entries⟩ = { index with fragmentCount := 1 } := by
  have table := merged.mergeEntries_entries
  subst same
  simp [apply, empty, table]

end Merged

theorem policy_applyAll (index : Index) (fragments : List Fragment) :
    (index.applyAll fragments).policy = index.policy := by
  induction fragments generalizing index with
  | nil => rfl
  | cons fragment fragments ih => exact ih (index.apply fragment)

end Index

end TraitIndex
