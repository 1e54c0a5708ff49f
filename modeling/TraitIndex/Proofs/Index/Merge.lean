import Mathlib.Data.List.Nodup
import TraitIndex.Proofs.Shelf

/-!
# What an index holds

An index depends on its stream of fragments only through the entries, in the order in which they
arrive.  It lists the symbols of the entries in the order in which they first occur, and for each
symbol what its policy makes of the descriptor lists of all entries for it.  The proof goes entry by
entry: each one either finds its symbol listed or appends it, and adds one list to those for it.
-/

namespace TraitIndex

/-- Holds of the list that has each item of a stream once, in the order in which they first occur
in the stream. -/
structure FirstOccurrences {α : Type} [DecidableEq α] (stream firsts : List α) : Prop where
  nodup : firsts.Nodup
  mem_iff : ∀ item, item ∈ firsts ↔ item ∈ stream
  ordered : firsts.Pairwise fun earlier later => stream.idxOf earlier < stream.idxOf later

namespace FirstOccurrences

variable {α : Type} [DecidableEq α] {stream firsts : List α}

theorem nil : FirstOccurrences ([] : List α) [] :=
  ⟨List.nodup_nil, fun _ => Iff.rfl, List.Pairwise.nil⟩

/-- What follows a stream does not change where the items of the stream first occur. -/
theorem ordered_append (occur : FirstOccurrences stream firsts) (further : List α) :
    firsts.Pairwise fun earlier later =>
      (stream ++ further).idxOf earlier < (stream ++ further).idxOf later := by
  apply occur.ordered.imp_of_mem
  intro earlier later earlierMem laterMem before
  rw [List.idxOf_append_of_mem ((occur.mem_iff earlier).mp earlierMem),
    List.idxOf_append_of_mem ((occur.mem_iff later).mp laterMem)]
  exact before

theorem snoc_of_mem (occur : FirstOccurrences stream firsts) {item : α} (known : item ∈ firsts) :
    FirstOccurrences (stream ++ [item]) firsts := by
  refine ⟨occur.nodup, ?_, occur.ordered_append [item]⟩
  intro other
  rw [occur.mem_iff, List.mem_append, List.mem_singleton]
  constructor
  · exact Or.inl
  · rintro (occurs | rfl)
    · exact occurs
    · exact (occur.mem_iff other).mp known

theorem snoc_of_not_mem (occur : FirstOccurrences stream firsts) {item : α}
    (new : item ∉ firsts) : FirstOccurrences (stream ++ [item]) (firsts ++ [item]) := by
  have absent : item ∉ stream := fun occurs => new ((occur.mem_iff item).mpr occurs)
  refine ⟨List.nodup_append.mpr ⟨occur.nodup, List.nodup_singleton item, ?_⟩, ?_,
    List.pairwise_append.mpr ⟨occur.ordered_append [item], List.pairwise_singleton _ _, ?_⟩⟩
  · intro earlier listed later isItem same
    rw [List.mem_singleton] at isItem
    exact new (isItem ▸ same ▸ listed)
  · intro other
    rw [List.mem_append, List.mem_append, occur.mem_iff]
  · intro earlier listed later isItem
    rw [List.mem_singleton] at isItem
    subst isItem
    have occurs := (occur.mem_iff earlier).mp listed
    rw [List.idxOf_append_of_mem occurs, List.idxOf_append_of_notMem absent]
    exact Nat.lt_of_lt_of_le (List.idxOf_lt_length_of_mem occurs) (Nat.le_add_right _ _)

end FirstOccurrences

namespace MergePolicy

/-- What a policy makes of the descriptor lists that a stream holds for one symbol. -/
inductive Merges : MergePolicy → List (List Descriptor) → List Descriptor → Prop where
  | append (lists : List (List Descriptor)) : Merges append lists lists.flatten
  | replace (earlier : List (List Descriptor)) (last : List Descriptor) :
      Merges replace (earlier ++ [last]) last
  | union {lists : List (List Descriptor)} {merged : List Descriptor}
      (firsts : FirstOccurrences lists.flatten merged) : Merges union lists merged

theorem firstOccurrences_addNew {stream known : List Descriptor}
    (occur : FirstOccurrences stream known) (further : List Descriptor) :
    FirstOccurrences (stream ++ further) (addNew known further) := by
  induction further generalizing stream known with
  | nil => simpa [addNew] using occur
  | cons descriptor further ih =>
      rw [addNew, List.append_cons]
      by_cases listed : descriptor ∈ known
      · rw [if_pos listed]
        exact ih (occur.snoc_of_mem listed)
      · rw [if_neg listed]
        exact ih (occur.snoc_of_not_mem listed)

theorem merges_combine_nil (policy : MergePolicy) (descriptors : List Descriptor) :
    policy.Merges [descriptors] (policy.combine [] descriptors) := by
  cases policy with
  | append => simpa [combine] using Merges.append [descriptors]
  | replace => exact .replace [] descriptors
  | union =>
      have firsts := firstOccurrences_addNew .nil descriptors
      exact .union (by simpa [combine] using firsts)

/-- Combining what is known for a symbol with one more list is merging one more list. -/
theorem Merges.combine {policy : MergePolicy} {lists : List (List Descriptor)}
    {known : List Descriptor} (merged : policy.Merges lists known) (further : List Descriptor) :
    policy.Merges (lists ++ [further]) (policy.combine known further) := by
  cases merged with
  | append => simpa [MergePolicy.combine] using Merges.append (lists ++ [further])
  | replace earlier => exact .replace (earlier ++ [known]) further
  | union firsts =>
      have more := firstOccurrences_addNew firsts further
      exact .union (by simpa [MergePolicy.combine] using more)

end MergePolicy

namespace Index

/-- The descriptor lists of the entries for a symbol, in the order of the stream. -/
def listsFor (symbol : String) (stream : List Entry) : List (List Descriptor) :=
  (stream.filter fun entry => entry.symbol = symbol).map Entry.descriptors

@[simp]
theorem listsFor_append (symbol : String) (earlier later : List Entry) :
    listsFor symbol (earlier ++ later) = listsFor symbol earlier ++ listsFor symbol later := by
  simp [listsFor]

theorem listsFor_singleton (symbol : String) (entry : Entry) :
    listsFor symbol [entry] = if entry.symbol = symbol then [entry.descriptors] else [] := by
  by_cases same : entry.symbol = symbol <;> simp [listsFor, same]

theorem listsFor_eq_nil {symbol : String} {stream : List Entry}
    (absent : symbol ∉ stream.map Entry.symbol) : listsFor symbol stream = [] := by
  rw [listsFor, List.map_eq_nil_iff, List.filter_eq_nil_iff]
  intro entry mem
  rw [decide_eq_true_eq]
  rintro rfl
  exact absent (List.mem_map_of_mem mem)

/-- Merging an entry touches its own symbol only. -/
theorem lookup_mergeEntry (policy : MergePolicy) (entry : Entry) (symbol : String)
    (table : List (String × List Descriptor)) :
    (mergeEntry policy entry table).lookup symbol =
      if entry.symbol = symbol then
        some (policy.combine ((table.lookup symbol).getD []) entry.descriptors)
      else table.lookup symbol := by
  rw [mergeEntry_eq_update, lookup_update]

/-- Holds of the table of an index with the given policy and stream of entries. -/
structure Merged (policy : MergePolicy) (stream : List Entry)
    (table : List (String × List Descriptor)) : Prop where
  symbols : FirstOccurrences (stream.map Entry.symbol) (table.map Prod.fst)
  lists : ∀ symbol descriptors, table.lookup symbol = some descriptors →
    policy.Merges (listsFor symbol stream) descriptors

theorem Merged.nil (policy : MergePolicy) : Merged policy [] [] :=
  ⟨.nil, by simp⟩

theorem Merged.mergeEntry {policy : MergePolicy} {stream : List Entry}
    {table : List (String × List Descriptor)} (merged : Merged policy stream table)
    (entry : Entry) :
    Merged policy (stream ++ [entry]) (Index.mergeEntry policy entry table) := by
  constructor
  · rw [map_fst_mergeEntry, List.map_append, List.map_singleton]
    by_cases listed : entry.symbol ∈ table.map Prod.fst
    · rw [if_pos listed]
      exact merged.symbols.snoc_of_mem listed
    · rw [if_neg listed]
      exact merged.symbols.snoc_of_not_mem listed
  · intro symbol descriptors found
    rw [lookup_mergeEntry] at found
    rw [listsFor_append, listsFor_singleton]
    by_cases same : entry.symbol = symbol
    · rw [if_pos same, Option.some.injEq] at found
      rw [if_pos same, ← found]
      cases known : table.lookup symbol with
      | none =>
          have absent : symbol ∉ stream.map Entry.symbol := by
            rw [← merged.symbols.mem_iff]
            exact lookup_eq_none_iff.mp known
          rw [listsFor_eq_nil absent]
          exact policy.merges_combine_nil entry.descriptors
      | some earlier => exact (merged.lists symbol earlier known).combine entry.descriptors
    · rw [if_neg same] at found
      rw [if_neg same, List.append_nil]
      exact merged.lists symbol descriptors found

theorem Merged.mergeEntries {policy : MergePolicy} {stream : List Entry}
    {table : List (String × List Descriptor)} (merged : Merged policy stream table)
    (entries : List Entry) :
    Merged policy (stream ++ entries) (Index.mergeEntries policy entries table) := by
  induction entries generalizing stream table with
  | nil => simpa [Index.mergeEntries] using merged
  | cons entry entries ih =>
      rw [List.append_cons]
      exact ih (merged.mergeEntry entry)

theorem applyAll_append (index : Index) (earlier later : List Fragment) :
    index.applyAll (earlier ++ later) = (index.applyAll earlier).applyAll later :=
  List.foldl_append

theorem fragmentCount_applyAll (index : Index) (fragments : List Fragment) :
    (index.applyAll fragments).fragmentCount = index.fragmentCount + fragments.length := by
  induction fragments generalizing index with
  | nil => rfl
  | cons fragment fragments ih =>
      rw [List.length_cons, Nat.add_comm fragments.length, ← Nat.add_assoc]
      exact ih (index.apply fragment)

theorem merged_applyAll {index : Index} {stream : List Entry}
    (merged : Merged index.policy stream index.table) (fragments : List Fragment) :
    Merged index.policy (stream ++ fragments.flatMap Fragment.entries)
      (index.applyAll fragments).table := by
  induction fragments generalizing index stream with
  | nil => simpa [applyAll] using merged
  | cons fragment fragments ih =>
      rw [List.flatMap_cons, ← List.append_assoc]
      exact @ih (index.apply fragment) _ (merged.mergeEntries fragment.entries)

theorem merged_applyAll_empty (policy : MergePolicy) (fragments : List Fragment) :
    Merged policy (fragments.flatMap Fragment.entries)
      ((empty policy).applyAll fragments).table :=
  @merged_applyAll (empty policy) [] (.nil policy) fragments

/-- What an index says of a stream of fragments: how many there were, which symbols occurred in
them, and for each of these what the policy makes of the lists that they declare for it. -/
theorem applyAll_empty (policy : MergePolicy) (fragments : List Fragment) :
    let index := (empty policy).applyAll fragments
    let stream := fragments.flatMap Fragment.entries
    index.fragmentCount = fragments.length ∧
      FirstOccurrences (stream.map Entry.symbol) index.symbols ∧
      ∀ symbol,
        (index.get? symbol = none ↔ ∀ entry ∈ stream, entry.symbol ≠ symbol) ∧
          ∀ descriptors, index.get? symbol = some descriptors →
            policy.Merges (listsFor symbol stream) descriptors := by
  intro index stream
  have merged : Merged policy stream index.table :=
    @merged_applyAll (empty policy) [] (.nil policy) fragments
  refine ⟨by simp [index, fragmentCount_applyAll, empty], merged.symbols, ?_⟩
  intro symbol
  refine ⟨?_, merged.lists symbol⟩
  rw [get?, lookup_eq_none_iff, merged.symbols.mem_iff, List.mem_map, not_exists]
  simp only [not_and]

end Index

end TraitIndex
