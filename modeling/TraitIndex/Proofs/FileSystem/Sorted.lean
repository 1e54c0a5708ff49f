import TraitIndex.Proofs.FileSystem.Walk

/-!
# Walks go in order

Paths are in order when the names of their components are, compared one after the other by their
bytes.  This is not the order of their texts: below one directory everything in `a` comes before
everything in `a-b`, though a slash comes behind a dash.  A walk sorts no more than the entries of
each directory.  As it goes through all that is in one entry before it comes to the next, the paths
that it yields are in order all the same.
-/

namespace TraitIndex

namespace Path

def Before (path other : Path) : Prop :=
  path.components.map Component.bytes < other.components.map Component.bytes

theorem Before.irrefl (path : Path) : ¬ path.Before path :=
  List.lt_irrefl _

variable {place other : List Name}

theorem map_bytes_descend (valid : ∀ name ∈ place, IsEntryName name) (root : Path) :
    (root.descend place).components.map Component.bytes =
      root.components.map Component.bytes ++ place := by
  rw [components_descend valid, List.map_append, List.map_map]
  exact congrArg _ (List.map_id' place)

theorem descend_injective (valid : ∀ name ∈ place, IsEntryName name)
    (validOther : ∀ name ∈ other, IsEntryName name) {root : Path}
    (same : root.descend place = root.descend other) : place = other := by
  have bytes := congrArg (fun path => path.components.map Component.bytes) same
  simpa [map_bytes_descend valid, map_bytes_descend validOther] using bytes

/-- Below one root the places decide which path comes first. -/
theorem before_descend (valid : ∀ name ∈ place, IsEntryName name)
    (validOther : ∀ name ∈ other, IsEntryName name) (root : Path) (first : place < other) :
    (root.descend place).Before (root.descend other) := by
  rw [Before, map_bytes_descend valid, map_bytes_descend validOther]
  exact List.append_left_lt first

end Path

namespace Node

theorem map_fst_sortEntries_perm (entries : List (Name × Node)) :
    ((sortEntries entries).map Prod.fst).Perm (entries.map Prod.fst) :=
  (List.mergeSort_perm entries _).map Prod.fst

theorem pairwise_le_sortEntries (entries : List (Name × Node)) :
    (sortEntries entries).Pairwise fun left right => left.1 ≤ right.1 := by
  have sorted : (sortEntries entries).Pairwise fun left right => decide (left.1 ≤ right.1) :=
    List.pairwise_mergeSort (by simpa using fun _ _ _ => List.le_trans)
      (by simpa using List.le_total) entries
  simpa using sorted

theorem pairwise_lt_sortEntries {entries : List (Name × Node)}
    (nodup : (entries.map Prod.fst).Nodup) :
    (sortEntries entries).Pairwise fun left right => left.1 < right.1 := by
  have distinct : (sortEntries entries).Pairwise fun left right => left.1 ≠ right.1 :=
    List.pairwise_map.mp ((map_fst_sortEntries_perm entries).nodup_iff.mpr nodup)
  apply ((pairwise_le_sortEntries entries).and distinct).imp
  intro left right ordered
  exact Std.lt_of_le_of_ne ordered.1 ordered.2

theorem NamedBy.pairwise_walk {node : Node} (named : node.NamedBy Path.IsEntryName) (root : Path) :
    (node.walk root).Pairwise Path.Before := by
  induction named generalizing root with
  | file contents =>
      rw [walk_file]
      exact List.pairwise_singleton _ _
  | @directory entries names nodup children ih =>
      rw [walk_directory, List.pairwise_flatMap]
      constructor
      · intro entry listed
        exact ih entry (List.mem_mergeSort.mp listed) _
      · apply (pairwise_lt_sortEntries nodup).imp_of_mem
        intro left right listedLeft listedRight first path walkedLeft other walkedRight
        have leftEntry := List.mem_mergeSort.mp listedLeft
        have rightEntry := List.mem_mergeSort.mp listedRight
        rcases ((children left leftEntry).mem_walk_iff _ _).mp walkedLeft with
          ⟨place, _, there, rfl⟩
        rcases ((children right rightEntry).mem_walk_iff _ _).mp walkedRight with
          ⟨placeOther, _, thereOther, rfl⟩
        have ordered : left.1 :: place < right.1 :: placeOther := List.Lex.rel first
        refine Path.before_descend ?_ ?_ root ordered
        · rw [List.forall_mem_cons]
          exact ⟨names left leftEntry, (children left leftEntry).allowed_of_at? there⟩
        · rw [List.forall_mem_cons]
          exact ⟨names right rightEntry, (children right rightEntry).allowed_of_at? thereOther⟩

end Node

end TraitIndex
