import Mathlib.Data.List.Nodup
import TraitIndex.Proofs.Fragment
import TraitIndex.Proofs.Index.Merge

/-!
# What the order of arrival decides

The same fragments may arrive in two orders.  Their entries are then the same but for the order, and
so are the lists that they declare for any one symbol.  What a policy makes of these lists depends
on the order only so far: appended or united they have the same descriptors, and the list that
replaces all others is one of them in both orders.
-/

namespace TraitIndex

/-- The two lists for a symbol, when the given fragments arrive in two orders. -/
inductive MergePolicy.UpToOrder (fragments : List Fragment) (symbol : String) :
    MergePolicy → List Descriptor → List Descriptor → Prop where
  | append {first second : List Descriptor} (perm : first.Perm second) :
      UpToOrder fragments symbol append first second
  | replace {first second : List Descriptor}
      (firstDeclared : ∃ fragment ∈ fragments, fragment.get? symbol = some first)
      (secondDeclared : ∃ fragment ∈ fragments, fragment.get? symbol = some second)
      (sole : (∀ one ∈ fragments, ∀ other ∈ fragments,
        symbol ∈ one.symbols → symbol ∈ other.symbols → one = other) → first = second) :
      UpToOrder fragments symbol replace first second
  | union {first second : List Descriptor} (perm : first.Perm second) :
      UpToOrder fragments symbol union first second

namespace Index

/-- Two indexes of the given fragments that differ only as far as the order of arrival decides. -/
structure UpToOrder (policy : MergePolicy) (fragments : List Fragment) (first second : Index) :
    Prop where
  fragmentCount : first.fragmentCount = second.fragmentCount
  symbols : first.symbols.Perm second.symbols
  lists : ∀ symbol ∈ first.symbols, ∃ list other,
    first.get? symbol = some list ∧ second.get? symbol = some other ∧
      policy.UpToOrder fragments symbol list other

theorem listsFor_perm {stream other : List Entry} (perm : stream.Perm other) (symbol : String) :
    (listsFor symbol stream).Perm (listsFor symbol other) :=
  (perm.filter _).map _

theorem exists_get?_of_mem {index : Index} {symbol : String} (mem : symbol ∈ index.symbols) :
    ∃ list, index.get? symbol = some list := by
  rw [← Option.isSome_iff_exists, Option.isSome_iff_ne_none, get?, ne_eq, lookup_eq_none_iff,
    not_not]
  exact mem

end Index

namespace FirstOccurrences

variable {α : Type} [DecidableEq α] {stream other firsts others : List α}

/-- Rearranging a stream rearranges the list of its first occurrences. -/
theorem perm (occur : FirstOccurrences stream firsts) (occurOther : FirstOccurrences other others)
    (perm : stream.Perm other) : firsts.Perm others := by
  rw [List.perm_ext_iff_of_nodup occur.nodup occurOther.nodup]
  intro item
  rw [occur.mem_iff, occurOther.mem_iff, perm.mem_iff]

end FirstOccurrences

section Merges

variable {policy : MergePolicy} {symbol : String} {fragments : List Fragment}

theorem declared_of_mem_listsFor (wellFormed : ∀ fragment ∈ fragments, fragment.WellFormed)
    {list : List Descriptor}
    (mem : list ∈ Index.listsFor symbol (fragments.flatMap Fragment.entries)) :
    ∃ fragment ∈ fragments, fragment.get? symbol = some list := by
  rcases List.mem_map.mp mem with ⟨entry, isFor, rfl⟩
  rw [List.mem_filter, decide_eq_true_eq, List.mem_flatMap] at isFor
  rcases isFor with ⟨⟨fragment, listed, declared⟩, rfl⟩
  exact ⟨fragment, listed, (wellFormed fragment listed).get?_of_mem declared⟩

/-- What a policy makes of rearranged lists. -/
theorem MergePolicy.Merges.upToOrder {lists others : List (List Descriptor)}
    {first second : List Descriptor} (merges : policy.Merges lists first)
    (mergesOther : policy.Merges others second) (perm : lists.Perm others)
    (declared : ∀ list ∈ lists, ∃ fragment ∈ fragments, fragment.get? symbol = some list) :
    policy.UpToOrder fragments symbol first second := by
  cases merges with
  | append =>
      cases mergesOther
      exact .append perm.flatten
  | replace earlier =>
      cases mergesOther with
      | replace earlierOther =>
          have firstDeclared := declared first (by simp)
          have secondDeclared := declared second (perm.mem_iff.mpr (by simp))
          refine .replace firstDeclared secondDeclared ?_
          intro sole
          rcases firstDeclared with ⟨one, oneListed, oneDeclares⟩
          rcases secondDeclared with ⟨other, otherListed, otherDeclares⟩
          have same := sole one oneListed other otherListed
            (Fragment.mem_symbols_of_get? oneDeclares) (Fragment.mem_symbols_of_get? otherDeclares)
          rw [same, otherDeclares, Option.some.injEq] at oneDeclares
          exact oneDeclares.symm
  | union firsts =>
      cases mergesOther with
      | union firstsOther => exact .union (firsts.perm firstsOther perm.flatten)

end Merges

/-- Fragments that arrive in two orders make indexes that differ only as far as the order
decides. -/
theorem Index.upToOrder_of_perm (policy : MergePolicy) {fragments one other : List Fragment}
    (wellFormed : ∀ fragment ∈ fragments, fragment.WellFormed) (permOne : fragments.Perm one)
    (permOther : fragments.Perm other) :
    UpToOrder policy fragments ((empty policy).applyAll one) ((empty policy).applyAll other) := by
  have merged := merged_applyAll_empty policy one
  have mergedOther := merged_applyAll_empty policy other
  have between : one.Perm other := permOne.symm.trans permOther
  have streams : (one.flatMap Fragment.entries).Perm (other.flatMap Fragment.entries) :=
    between.flatMap_right _
  have symbols := merged.symbols.perm mergedOther.symbols (streams.map Entry.symbol)
  have source := permOne.flatMap_right Fragment.entries
  refine ⟨?_, symbols, ?_⟩
  · rw [fragmentCount_applyAll, fragmentCount_applyAll, between.length_eq]
  · intro symbol listed
    rcases exists_get?_of_mem listed with ⟨list, found⟩
    rcases exists_get?_of_mem (symbols.mem_iff.mp listed) with ⟨otherList, foundOther⟩
    refine ⟨list, otherList, found, foundOther, ?_⟩
    apply (merged.lists symbol list found).upToOrder
      (mergedOther.lists symbol otherList foundOther) (listsFor_perm streams symbol)
    intro declared mem
    exact declared_of_mem_listsFor wellFormed ((listsFor_perm source symbol).mem_iff.mpr mem)

end TraitIndex
