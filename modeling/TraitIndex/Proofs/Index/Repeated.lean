import TraitIndex.Proofs.Index.Growth
import TraitIndex.Proofs.Index.Rebuilt

/-!
# Fragments that arrive again

A fragment may be registered more than once.  When it arrives again its symbols are listed already,
so none is added and none moves.  Under a policy that unites lists its descriptors are known as
well, however much arrived in between, and all that is left of the second arrival is that it is
counted.  Under a policy that replaces lists the same is true if the second arrival follows on the
first: of the entries for a symbol the last one decides, both times.
-/

namespace TraitIndex

namespace MergePolicy

theorem mem_addNew {known further : List Descriptor} {descriptor : Descriptor} :
    descriptor ∈ addNew known further ↔ descriptor ∈ known ∨ descriptor ∈ further := by
  induction further generalizing known with
  | nil => simp [addNew]
  | cons first further ih =>
      rw [addNew]
      split
      · rename_i listed
        rw [ih, List.mem_cons]
        constructor
        · rintro (old | new)
          · exact .inl old
          · exact .inr (.inr new)
        · rintro (old | rfl | new)
          · exact .inl old
          · exact .inl listed
          · exact .inr new
      · rw [ih]
        simp [or_assoc]

theorem addNew_of_subset {known further : List Descriptor} (subset : further ⊆ known) :
    addNew known further = known := by
  induction further with
  | nil => rfl
  | cons descriptor further ih =>
      rw [List.cons_subset] at subset
      simp [addNew, subset.1, ih subset.2]

end MergePolicy

namespace Index

section Entries

variable {policy : MergePolicy} {entry : Entry} {entries : List Entry}
  {table : List (String × List Descriptor)}

/-- A symbol is listed once an entry for it is merged. -/
theorem mem_map_fst_mergeEntries (mem : entry ∈ entries) :
    entry.symbol ∈ (mergeEntries policy entries table).map Prod.fst := by
  induction entries generalizing table with
  | nil => cases mem
  | cons first entries ih =>
      rcases List.mem_cons.mp mem with rfl | mem
      · have listed : entry.symbol ∈ (mergeEntry policy entry table).map Prod.fst := by
          rw [map_fst_mergeEntry]
          split
          · assumption
          · simp
        exact (extends_mergeEntries policy entries _).symbols.subset listed
      · exact ih mem

theorem map_fst_mergeEntries_of_listed
    (listed : ∀ entry ∈ entries, entry.symbol ∈ table.map Prod.fst) :
    (mergeEntries policy entries table).map Prod.fst = table.map Prod.fst := by
  induction entries generalizing table with
  | nil => rfl
  | cons entry entries ih =>
      have same : (mergeEntry policy entry table).map Prod.fst = table.map Prod.fst := by
        rw [map_fst_mergeEntry, if_pos (listed entry (by simp))]
      have rest := @ih (mergeEntry policy entry table) fun other mem =>
        same ▸ listed other (List.mem_cons_of_mem entry mem)
      exact rest.trans same

/-- Which symbols come to be listed is decided by those that were listed before. -/
theorem map_fst_mergeEntries_congr {other : List (String × List Descriptor)}
    (same : table.map Prod.fst = other.map Prod.fst) (policy second : MergePolicy)
    (entries : List Entry) :
    (mergeEntries policy entries table).map Prod.fst =
      (mergeEntries second entries other).map Prod.fst := by
  induction entries generalizing table other with
  | nil => exact same
  | cons entry entries ih =>
      apply ih
      rw [map_fst_mergeEntry, map_fst_mergeEntry, same]

/-- Holds if all that an entry declares is in the table. -/
def Holds (table : List (String × List Descriptor)) (entry : Entry) : Prop :=
  ∃ known, table.lookup entry.symbol = some known ∧ entry.descriptors ⊆ known

theorem Holds.extend {later : List (String × List Descriptor)} (holds : Holds table entry)
    (extended : Extends policy table later) (adds : policy ≠ .replace) : Holds later entry := by
  rcases holds with ⟨known, found, subset⟩
  rcases extended.lists adds entry.symbol known found with ⟨longer, foundLater, begins⟩
  exact ⟨longer, foundLater, List.Subset.trans subset begins.subset⟩

theorem holds_mergeEntry (entry : Entry) (table : List (String × List Descriptor)) :
    Holds (mergeEntry .union entry table) entry := by
  refine ⟨_, by rw [lookup_mergeEntry, if_pos rfl], ?_⟩
  intro descriptor declared
  exact MergePolicy.mem_addNew.mpr (.inr declared)

theorem holds_mergeEntries (mem : entry ∈ entries) :
    Holds (mergeEntries .union entries table) entry := by
  induction entries generalizing table with
  | nil => cases mem
  | cons first entries ih =>
      rcases List.mem_cons.mp mem with rfl | mem
      · exact (holds_mergeEntry entry table).extend (extends_mergeEntries .union entries _) nofun
      · exact ih mem

/-- Nothing is left to unite with the table if it holds an entry already. -/
theorem mergeEntry_of_holds (holds : Holds table entry) :
    mergeEntry .union entry table = table := by
  rcases holds with ⟨known, found, subset⟩
  induction table with
  | nil => cases found
  | cons row table ih =>
      rcases row with ⟨symbol, first⟩
      rw [lookup_cons] at found
      rw [mergeEntry]
      by_cases same : symbol = entry.symbol
      · rw [if_pos same, Option.some.injEq] at found
        subst found
        rw [if_pos same, MergePolicy.combine, MergePolicy.addNew_of_subset subset]
      · rw [if_neg same] at found
        rw [if_neg same, ih found]

theorem mergeEntries_of_holds (holds : ∀ entry ∈ entries, Holds table entry) :
    mergeEntries .union entries table = table := by
  induction entries with
  | nil => rfl
  | cons entry entries ih =>
      have first := mergeEntry_of_holds (holds entry (by simp))
      have rest := ih fun other mem => holds other (List.mem_cons_of_mem entry mem)
      rw [mergeEntries, List.foldl_cons, first]
      exact rest

/-- Of the lists that replace each other the last one is found. -/
theorem lookup_mergeEntries_replace (entries : List Entry) (symbol : String)
    (table : List (String × List Descriptor)) :
    (mergeEntries .replace entries table).lookup symbol =
      ((listsFor symbol entries).getLast?).or (table.lookup symbol) := by
  induction entries generalizing table with
  | nil => rfl
  | cons entry entries ih =>
      have first := ih (mergeEntry .replace entry table)
      rw [lookup_mergeEntry] at first
      rw [mergeEntries, List.foldl_cons, ← mergeEntries, first, ← List.singleton_append,
        listsFor_append, listsFor_singleton]
      by_cases same : entry.symbol = symbol
      · simp [same, MergePolicy.combine, List.getLast?_cons]
      · simp [same]

theorem mergeEntries_replace_again (nodup : (table.map Prod.fst).Nodup) :
    mergeEntries .replace entries (mergeEntries .replace entries table) =
      mergeEntries .replace entries table := by
  have names : (mergeEntries .replace entries (mergeEntries .replace entries table)).map Prod.fst =
      (mergeEntries .replace entries table).map Prod.fst :=
    map_fst_mergeEntries_of_listed fun entry mem => mem_map_fst_mergeEntries mem
  apply eq_of_lookup (nodup_mergeEntries (nodup_mergeEntries nodup)) names
  intro symbol
  simp only [lookup_mergeEntries_replace, ← Option.or_assoc, Option.or_self]

end Entries

/-- The index with so many more fragments counted. -/
def counted (more : Nat) (index : Index) : Index :=
  { index with fragmentCount := index.fragmentCount + more }

theorem applyAll_cons (index : Index) (fragment : Fragment) (fragments : List Fragment) :
    index.applyAll (fragment :: fragments) = (index.apply fragment).applyAll fragments :=
  rfl

theorem applyAll_counted (more : Nat) (index : Index) (fragments : List Fragment) :
    (index.counted more).applyAll fragments = (index.applyAll fragments).counted more := by
  induction fragments generalizing index with
  | nil => rfl
  | cons fragment fragments ih =>
      have first : (index.counted more).apply fragment = (index.apply fragment).counted more := by
        simp [apply, counted, Nat.add_right_comm]
      rw [applyAll_cons, applyAll_cons, first, ih]

section Again

variable {index later : Index} {fragment : Fragment}

/-- An index stays as it is, but for the count, if merging the entries changes nothing. -/
theorem apply_eq_counted
    (same : mergeEntries index.policy fragment.entries index.table = index.table) :
    index.apply fragment = index.counted 1 := by
  simp [apply, counted, same]

theorem symbols_applyAll_congr {other : Index} (same : index.symbols = other.symbols)
    (fragments : List Fragment) :
    (index.applyAll fragments).symbols = (other.applyAll fragments).symbols := by
  induction fragments generalizing index other with
  | nil => exact same
  | cons fragment fragments ih =>
      apply ih
      exact map_fst_mergeEntries_congr same index.policy other.policy fragment.entries

/-- A symbol stays where it is when a fragment that declares it arrives again. -/
theorem symbols_apply_again (grown : (index.apply fragment).Grows later) :
    (later.apply fragment).symbols = later.symbols := by
  apply map_fst_mergeEntries_of_listed
  intro entry mem
  exact grown.symbols.subset (mem_map_fst_mergeEntries mem)

theorem apply_again_of_union (unites : index.policy = .union)
    (grown : (index.apply fragment).Grows later) : later.apply fragment = later.counted 1 := by
  have policy : later.policy = .union := grown.policy.trans unites
  have merged : (index.apply fragment).table =
      mergeEntries .union fragment.entries index.table := by
    rw [← unites]
    rfl
  have adds : (index.apply fragment).policy ≠ .replace := by
    change index.policy ≠ .replace
    simp [unites]
  have extended : Extends .union (index.apply fragment).table later.table :=
    ⟨grown.symbols, fun _ => grown.lists adds⟩
  apply apply_eq_counted
  rw [policy]
  apply mergeEntries_of_holds
  intro entry mem
  have holds : Holds (index.apply fragment).table entry := by
    rw [merged]
    exact holds_mergeEntries mem
  exact holds.extend extended nofun

theorem apply_again_of_replace (replaces : index.policy = .replace) (fragment : Fragment) :
    (index.apply fragment).apply fragment = (index.apply fragment).counted 1 := by
  apply apply_eq_counted
  simp only [apply, replaces]
  exact mergeEntries_replace_again index.nodup_symbols

end Again

/-- A fragment that arrives again is counted, and adds and moves no symbol.  Where lists are united
this is all, wherever in the stream it arrives again; where they are replaced this is all if it
arrives twice in a row. -/
theorem applyAll_again (before : List Fragment) (fragment : Fragment)
    (between after : List Fragment) :
    let once := before ++ fragment :: (between ++ after)
    let again := before ++ fragment :: (between ++ fragment :: after)
    (∀ policy,
      ((empty policy).applyAll again).symbols = ((empty policy).applyAll once).symbols ∧
        ((empty policy).applyAll again).fragmentCount =
          ((empty policy).applyAll once).fragmentCount + 1) ∧
      (empty .union).applyAll again = ((empty .union).applyAll once).counted 1 ∧
      (empty .replace).applyAll (before ++ fragment :: fragment :: after) =
        ((empty .replace).applyAll (before ++ fragment :: after)).counted 1 := by
  intro once again
  -- the index with the first arrival, and the one that the second arrival finds
  let first (policy : MergePolicy) := ((empty policy).applyAll before).apply fragment
  let second (policy : MergePolicy) := (first policy).applyAll between
  have applyOnce : ∀ policy, (empty policy).applyAll once = (second policy).applyAll after := by
    intro policy
    simp only [once, first, second, applyAll_append, applyAll_cons]
  have applyAgain : ∀ policy, (empty policy).applyAll again =
      ((second policy).apply fragment).applyAll after := by
    intro policy
    simp only [again, first, second, applyAll_append, applyAll_cons]
  have grown : ∀ policy, (first policy).Grows (second policy) := fun policy =>
    grows_applyAll (first policy) between
  refine ⟨?_, ?_, ?_⟩
  · intro policy
    constructor
    · rw [applyOnce, applyAgain]
      exact symbols_applyAll_congr (symbols_apply_again (grown policy)) after
    · rw [fragmentCount_applyAll, fragmentCount_applyAll]
      simp only [once, again, List.length_append, List.length_cons]
      omega
  · have unites : ((empty .union).applyAll before).policy = .union := policy_applyAll _ before
    rw [applyOnce, applyAgain, apply_again_of_union unites (grown .union), applyAll_counted]
  · have replaces : ((empty .replace).applyAll before).policy = .replace := policy_applyAll _ before
    simp only [applyAll_append, applyAll_cons]
    rw [apply_again_of_replace replaces fragment, applyAll_counted]

end Index

end TraitIndex
