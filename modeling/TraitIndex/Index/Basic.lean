import TraitIndex.Fragment
import TraitIndex.Index.Policy

/-!
# Indexes

An index folds a stream of fragments into one list of descriptors per symbol.  Symbols stand in the
order in which they were first seen, and an entry never removes or moves one; what happens to the
descriptors is the policy's choice.
-/

namespace TraitIndex

/-- Symbols in the order of their first occurrence, each with the descriptors merged so far. -/
structure Index where
  policy : MergePolicy
  fragmentCount : Nat
  table : List (String × List Descriptor)
  nodup_symbols : (table.map Prod.fst).Nodup
  deriving DecidableEq, Repr

namespace MergePolicy

/-- Adds the descriptors that are not yet among the known ones. -/
def addNew (known : List Descriptor) : List Descriptor → List Descriptor
  | [] => known
  | descriptor :: descriptors =>
      if descriptor ∈ known then addNew known descriptors
      else addNew (known ++ [descriptor]) descriptors

/-- Combines the descriptors known for a symbol with those of a further entry. -/
def combine : MergePolicy → List Descriptor → List Descriptor → List Descriptor
  | append, known, further => known ++ further
  | replace, _, further => further
  | union, known, further => addNew known further

end MergePolicy

namespace Index

/-- Merges one entry into the table: in place if its symbol is listed, else at the end. -/
def mergeEntry (policy : MergePolicy) (entry : Entry) :
    List (String × List Descriptor) → List (String × List Descriptor)
  | [] => [(entry.symbol, policy.combine [] entry.descriptors)]
  | (symbol, known) :: rest =>
      if symbol = entry.symbol then (symbol, policy.combine known entry.descriptors) :: rest
      else (symbol, known) :: mergeEntry policy entry rest

theorem map_fst_mergeEntry (policy : MergePolicy) (entry : Entry)
    (table : List (String × List Descriptor)) :
    (mergeEntry policy entry table).map Prod.fst =
      if entry.symbol ∈ table.map Prod.fst then table.map Prod.fst
      else table.map Prod.fst ++ [entry.symbol] := by
  induction table with
  | nil => simp [mergeEntry]
  | cons row rest ih =>
      rcases row with ⟨symbol, known⟩
      by_cases same : symbol = entry.symbol
      · simp [mergeEntry, same]
      · have other : ¬ entry.symbol = symbol := fun equal => same equal.symm
        rw [mergeEntry, if_neg same, List.map_cons, ih]
        by_cases listed : entry.symbol ∈ rest.map Prod.fst
        · simp only [listed, List.map_cons, List.mem_cons, or_true, if_true]
        · simp only [listed, List.map_cons, List.mem_cons, other, or_self, if_false,
            List.cons_append]

theorem nodup_mergeEntry {policy : MergePolicy} {entry : Entry}
    {table : List (String × List Descriptor)} (nodup : (table.map Prod.fst).Nodup) :
    ((mergeEntry policy entry table).map Prod.fst).Nodup := by
  rw [map_fst_mergeEntry]
  split
  · exact nodup
  · rename_i absent
    refine List.nodup_append.mpr ⟨nodup, by simp, ?_⟩
    intro symbol listed other isNew equal
    rw [List.mem_singleton] at isNew
    exact absent (isNew ▸ equal ▸ listed)

def mergeEntries (policy : MergePolicy) (entries : List Entry)
    (table : List (String × List Descriptor)) : List (String × List Descriptor) :=
  entries.foldl (fun table entry => mergeEntry policy entry table) table

theorem nodup_mergeEntries {policy : MergePolicy} {entries : List Entry}
    {table : List (String × List Descriptor)} (nodup : (table.map Prod.fst).Nodup) :
    ((mergeEntries policy entries table).map Prod.fst).Nodup := by
  induction entries generalizing table with
  | nil => exact nodup
  | cons entry entries ih => exact ih (nodup_mergeEntry nodup)

def empty (policy : MergePolicy) : Index where
  policy := policy
  fragmentCount := 0
  table := []
  nodup_symbols := List.nodup_nil

/-- Folds one fragment into the index, entry by entry; fragments are not validated here. -/
def apply (index : Index) (fragment : Fragment) : Index where
  policy := index.policy
  fragmentCount := index.fragmentCount + 1
  table := mergeEntries index.policy fragment.entries index.table
  nodup_symbols := nodup_mergeEntries index.nodup_symbols

def applyAll (index : Index) (fragments : List Fragment) : Index :=
  fragments.foldl apply index

def symbols (index : Index) : List String :=
  index.table.map Prod.fst

def get? (index : Index) (symbol : String) : Option (List Descriptor) :=
  index.table.lookup symbol

def size (index : Index) : Nat :=
  index.table.length

def isEmpty (index : Index) : Bool :=
  index.table.isEmpty

instance : Inhabited Index :=
  ⟨empty .append⟩

end Index

end TraitIndex
