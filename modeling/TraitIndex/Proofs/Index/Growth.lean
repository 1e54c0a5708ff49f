import TraitIndex.Proofs.Index.Merge

/-!
# Indexes only grow

Merging an entry leaves the symbols of a table where they are, and adds at most one behind them.
The descriptors of a symbol are added to, unless the policy replaces them.  So a table is a
beginning of whatever it becomes, and an index grows with every fragment that is folded into it.
-/

namespace TraitIndex

namespace MergePolicy

theorem prefix_addNew (known further : List Descriptor) : known <+: addNew known further := by
  induction further generalizing known with
  | nil => exact List.prefix_rfl
  | cons descriptor further ih =>
      rw [addNew]
      split
      · exact ih known
      · exact (List.prefix_append known [descriptor]).trans (ih (known ++ [descriptor]))

theorem prefix_combine {policy : MergePolicy} (adds : policy ≠ .replace)
    (known further : List Descriptor) : known <+: policy.combine known further := by
  cases policy with
  | append => exact List.prefix_append known further
  | replace => exact absurd rfl adds
  | union => exact prefix_addNew known further

end MergePolicy

namespace Index

/-- Holds of two tables if the later one has the rows of the earlier one, in their places, and under
a policy that does not replace lists each of these rows with what it had at the beginning. -/
structure Extends (policy : MergePolicy) (earlier later : List (String × List Descriptor)) :
    Prop where
  symbols : earlier.map Prod.fst <+: later.map Prod.fst
  lists : policy ≠ .replace → ∀ symbol list, earlier.lookup symbol = some list →
    ∃ longer, later.lookup symbol = some longer ∧ list <+: longer

namespace Extends

variable {policy : MergePolicy} {earlier between later : List (String × List Descriptor)}

theorem refl (policy : MergePolicy) (table : List (String × List Descriptor)) :
    Extends policy table table :=
  ⟨List.prefix_rfl, fun _ _ list found => ⟨list, found, List.prefix_rfl⟩⟩

theorem trans (first : Extends policy earlier between) (second : Extends policy between later) :
    Extends policy earlier later := by
  refine ⟨first.symbols.trans second.symbols, ?_⟩
  intro adds symbol list found
  rcases first.lists adds symbol list found with ⟨longer, foundBetween, begins⟩
  rcases second.lists adds symbol longer foundBetween with ⟨longest, foundLater, goesOn⟩
  exact ⟨longest, foundLater, begins.trans goesOn⟩

end Extends

variable (policy : MergePolicy)

theorem extends_mergeEntry (entry : Entry) (table : List (String × List Descriptor)) :
    Extends policy table (mergeEntry policy entry table) := by
  constructor
  · rw [map_fst_mergeEntry]
    split
    · exact List.prefix_rfl
    · exact List.prefix_append _ _
  · intro adds symbol list found
    rw [lookup_mergeEntry, found]
    by_cases same : entry.symbol = symbol
    · exact ⟨_, if_pos same, MergePolicy.prefix_combine adds list entry.descriptors⟩
    · exact ⟨list, if_neg same, List.prefix_rfl⟩

theorem extends_mergeEntries (entries : List Entry) (table : List (String × List Descriptor)) :
    Extends policy table (mergeEntries policy entries table) := by
  induction entries generalizing table with
  | nil => exact .refl policy table
  | cons entry entries ih =>
      exact (extends_mergeEntry policy entry table).trans (ih (mergeEntry policy entry table))

/-- Holds of two indexes if the later one counts no fewer fragments, lists the symbols of the
earlier one in their places, and has for each of these symbols a list that begins with the earlier
one, unless its policy replaces lists. -/
structure Grows (earlier later : Index) : Prop where
  policy : later.policy = earlier.policy
  fragmentCount : earlier.fragmentCount ≤ later.fragmentCount
  symbols : earlier.symbols <+: later.symbols
  lists : earlier.policy ≠ .replace → ∀ symbol list, earlier.get? symbol = some list →
    ∃ longer, later.get? symbol = some longer ∧ list <+: longer

theorem Grows.refl (index : Index) : index.Grows index :=
  have same := Extends.refl index.policy index.table
  ⟨rfl, Nat.le_refl _, same.symbols, same.lists⟩

theorem Grows.trans {earlier between later : Index} (first : earlier.Grows between)
    (second : between.Grows later) : earlier.Grows later := by
  have extendsFirst : Extends earlier.policy earlier.table between.table :=
    ⟨first.symbols, first.lists⟩
  have extendsSecond : Extends earlier.policy between.table later.table :=
    ⟨second.symbols, first.policy ▸ second.lists⟩
  have extendsBoth := extendsFirst.trans extendsSecond
  exact ⟨second.policy.trans first.policy, Nat.le_trans first.fragmentCount second.fragmentCount,
    extendsBoth.symbols, extendsBoth.lists⟩

theorem grows_apply (index : Index) (fragment : Fragment) : index.Grows (index.apply fragment) := by
  have extended := extends_mergeEntries index.policy fragment.entries index.table
  exact ⟨rfl, Nat.le_succ _, extended.symbols, extended.lists⟩

theorem grows_applyAll (index : Index) (fragments : List Fragment) :
    index.Grows (index.applyAll fragments) := by
  induction fragments generalizing index with
  | nil => exact .refl index
  | cons fragment fragments ih => exact (grows_apply index fragment).trans (ih _)

end Index

end TraitIndex
