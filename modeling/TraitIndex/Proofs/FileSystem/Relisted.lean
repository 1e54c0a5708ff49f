import TraitIndex.FileSystem.Basic
import TraitIndex.Proofs.FileSystem.Sorted

/-!
# The order in which a file system lists

A file system may list the entries of a directory in any order.  Paths lead to the same places in
whichever order it does, and walks, which sort what is listed, go through the same paths.
-/

namespace TraitIndex

namespace Node

/-- Holds of two trees that differ at most in the order in which entries are listed. -/
inductive Relisted : Node → Node → Prop where
  | file (contents : List UInt8) : Relisted (.file contents) (.file contents)
  | directory {entries others : List (Name × Node)}
      (names : (entries.map Prod.fst).Perm (others.map Prod.fst))
      (children : ∀ name child other, (name, child) ∈ entries → (name, other) ∈ others →
        Relisted child other) : Relisted (.directory entries) (.directory others)

section Named

variable {allowed : Name → Prop} {node : Node} {entries others : List (Name × Node)}

theorem NamedBy.relisted_self (named : node.NamedBy allowed) : node.Relisted node := by
  induction named with
  | file contents => exact .file contents
  | directory _ nodup _ ih =>
      refine .directory (.refl _) ?_
      intro name child other listed listedOther
      cases List.inj_on_of_nodup_map nodup listed listedOther rfl
      exact ih _ listed

/-- The entries of a directory may be listed in any order. -/
theorem NamedBy.relisted_of_perm (named : (Node.directory entries).NamedBy allowed)
    (perm : entries.Perm others) : (Node.directory entries).Relisted (.directory others) := by
  cases named with
  | directory _ nodup children =>
      refine .directory (perm.map Prod.fst) ?_
      intro name child other listed listedOther
      cases List.inj_on_of_nodup_map nodup listed (perm.mem_iff.mpr listedOther) rfl
      exact (children _ listed).relisted_self

end Named

section Walks

variable {entries others : List (Name × Node)} {node other : Node} {α : Type}
  {collect gather : Name × Node → List α}

theorem flatMap_congr_of_names (names : entries.map Prod.fst = others.map Prod.fst)
    (agree : ∀ name child other, (name, child) ∈ entries → (name, other) ∈ others →
      collect (name, child) = gather (name, other)) :
    entries.flatMap collect = others.flatMap gather := by
  induction entries generalizing others with
  | nil => simp [List.map_eq_nil_iff.mp names.symm]
  | cons entry entries ih =>
      rcases List.map_eq_cons_iff.mp names.symm with ⟨⟨name, other⟩, rest, rfl, rfl, restNames⟩
      rw [List.flatMap_cons, List.flatMap_cons, agree entry.1 entry.2 other (by simp) (by simp),
        ih restNames.symm]
      intro name child other listed listedOther
      exact agree name child other (by simp [listed]) (by simp [listedOther])

/-- What is collected in the order of the names does not depend on the order of the entries. -/
theorem flatMap_sortEntries_congr (names : (entries.map Prod.fst).Perm (others.map Prod.fst))
    (agree : ∀ name child other, (name, child) ∈ entries → (name, other) ∈ others →
      collect (name, child) = gather (name, other)) :
    (sortEntries entries).flatMap collect = (sortEntries others).flatMap gather := by
  apply flatMap_congr_of_names
  · have sorted : ∀ entries, ((sortEntries entries).map Prod.fst).Pairwise (· ≤ ·) := fun entries =>
      List.pairwise_map.mpr (pairwise_le_sortEntries entries)
    refine List.Perm.eq_of_pairwise ?_ (sorted entries) (sorted others) ?_
    · intro name other _ _ before after
      exact List.le_antisymm before after
    · exact (map_fst_sortEntries_perm entries).trans
        (names.trans (map_fst_sortEntries_perm others).symm)
  · intro name child other listed listedOther
    exact agree name child other (List.mem_mergeSort.mp listed) (List.mem_mergeSort.mp listedOther)

theorem Relisted.walk_eq (relisted : node.Relisted other) (path : Path) :
    node.walk path = other.walk path := by
  induction relisted generalizing path with
  | file contents => rfl
  | directory names _ ih =>
      rw [walk_directory, walk_directory]
      apply flatMap_sortEntries_congr names
      intro name child other listed listedOther
      exact ih name child other listed listedOther _

theorem Relisted.directories_eq (relisted : node.Relisted other) (path : Path) :
    node.directories path = other.directories path := by
  induction relisted generalizing path with
  | file contents => rfl
  | directory names _ ih =>
      rw [directories_directory, directories_directory]
      congr 1
      apply flatMap_sortEntries_congr names
      intro name child other listed listedOther
      exact ih name child other listed listedOther _

end Walks

section Places

variable {entries others : List (Name × Node)} {node other : Node} {allowed : Name → Prop}

/-- In two listings of one directory the same names are found. -/
theorem lookup_relisted (nodup : (entries.map Prod.fst).Nodup)
    (names : (entries.map Prod.fst).Perm (others.map Prod.fst))
    (children : ∀ name child other, (name, child) ∈ entries → (name, other) ∈ others →
      Relisted child other) (name : Name) :
    Option.Rel Relisted (entries.lookup name) (others.lookup name) := by
  cases found : entries.lookup name with
  | none =>
      have absent := lookup_eq_none_iff.mp found
      rw [names.mem_iff, ← lookup_eq_none_iff] at absent
      rw [absent]
      exact .none
  | some child =>
      have listed : name ∈ others.map Prod.fst :=
        names.mem_iff.mp (List.mem_map_of_mem (mem_of_lookup found))
      rcases List.mem_map.mp listed with ⟨⟨name, other⟩, mem, rfl⟩
      have foundOther := lookup_of_mem (names.nodup_iff.mp nodup) mem
      rw [foundOther]
      exact .some (children name child other (mem_of_lookup found) mem)

theorem Relisted.at? (relisted : node.Relisted other) (named : node.NamedBy allowed)
    (place : List Name) : Option.Rel Relisted (node.at? place) (other.at? place) := by
  induction place generalizing node other with
  | nil => cases relisted <;> exact .some (by constructor <;> assumption)
  | cons name place ih =>
      cases relisted with
      | file contents => exact .none
      | @directory entries others names children =>
          rw [at?_directory_cons, at?_directory_cons]
          cases named with
          | directory _ nodup namedChildren =>
              have found := lookup_relisted nodup names children name
              generalize isFound : entries.lookup name = first at found ⊢
              generalize others.lookup name = second at found ⊢
              cases found with
              | none => exact .none
              | some same => exact ih same (namedChildren _ (mem_of_lookup isFound))

end Places

end Node

namespace FileSystem

/-- Holds of two file systems that differ at most in the order in which entries are listed. -/
structure Relisted (files other : FileSystem) : Prop where
  top : files.top.Relisted other.top
  working : files.working = other.working

namespace Relisted

variable {files other : FileSystem} {allowed : Name → Prop}

theorem follow_eq (relisted : files.Relisted other) (named : files.top.NamedBy allowed)
    (place : List Name) (segment : Name) :
    files.follow place segment = other.follow place segment := by
  have stands := relisted.top.at? named place
  unfold follow
  generalize isThere : files.top.at? place = first at stands ⊢
  generalize other.top.at? place = second at stands ⊢
  cases stands with
  | none => rfl
  | some same =>
      cases same with
      | file contents => rfl
      | @directory entries others names _ =>
          have listed : (entries.lookup segment).isSome = (others.lookup segment).isSome := by
            rw [Bool.eq_iff_iff, Option.isSome_iff_ne_none, Option.isSome_iff_ne_none, ne_eq, ne_eq,
              lookup_eq_none_iff, lookup_eq_none_iff, names.mem_iff]
          simp only [listed]

theorem followAll_eq (relisted : files.Relisted other) (named : files.top.NamedBy allowed)
    (place : List Name) (segments : List Name) :
    files.followAll place segments = other.followAll place segments := by
  induction segments generalizing place with
  | nil => rfl
  | cons segment segments ih =>
      rw [followAll, followAll, relisted.follow_eq named]
      split
      · rfl
      · exact ih _

theorem locate_eq (relisted : files.Relisted other) (named : files.top.NamedBy allowed)
    (path : Path) : files.locate path = other.locate path := by
  simp only [locate, start, relisted.working, relisted.followAll_eq named]

/-- Walks do not depend on the order in which a file system lists, and neither do their faults. -/
theorem walk_eq (relisted : files.Relisted other) (named : files.top.NamedBy allowed)
    (root : Path) : files.walk root = other.walk root := by
  simp only [walk, node, relisted.locate_eq named]
  cases other.locate root with
  | error fault => rfl
  | ok place =>
      have stands := relisted.top.at? named place
      simp only
      generalize files.top.at? place = first at stands ⊢
      generalize other.top.at? place = second at stands ⊢
      cases stands with
      | none => rfl
      | some same => simp only [same.walk_eq, same.directories_eq]

end Relisted

end FileSystem

end TraitIndex
