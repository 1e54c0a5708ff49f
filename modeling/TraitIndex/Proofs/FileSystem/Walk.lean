import TraitIndex.FileSystem.Tree
import TraitIndex.Proofs.Lookup
import TraitIndex.Proofs.Path.Join

/-!
# Walks through file trees

The walks are defined with proofs that they come to an end.  As equations, without these proofs,
they go through the entries of a directory in the order of the names.

In a tree where no directory has two entries of one name, a walk comes to the files of the tree and
to nothing else: the paths that it yields are those of the places at which a file stands.
-/

namespace TraitIndex.Node

section Equations

variable (path : Path) (entries : List (Name × Node))

@[simp]
theorem walk_file (contents : List UInt8) : (file contents).walk path = [path] := by
  rw [walk]

theorem walk_directory :
    (directory entries).walk path =
      (sortEntries entries).flatMap fun entry => entry.2.walk (path.join entry.1) := by
  rw [walk, List.flatMap_subtype, List.unattach_attach]
  rintro ⟨name, child⟩ _
  rfl

@[simp]
theorem directories_file (contents : List UInt8) : (file contents).directories path = [] := by
  rw [directories]

theorem directories_directory :
    (directory entries).directories path =
      path :: (sortEntries entries).flatMap fun entry =>
        entry.2.directories (path.join entry.1) := by
  rw [directories, List.flatMap_subtype, List.unattach_attach]
  rintro ⟨name, child⟩ _
  rfl

end Equations

/-- Holds of a tree in which all names are allowed and those of one directory are distinct. -/
inductive NamedBy (allowed : Name → Prop) : Node → Prop where
  | file (contents : List UInt8) : NamedBy allowed (.file contents)
  | directory {entries : List (Name × Node)} (names : ∀ entry ∈ entries, allowed entry.1)
      (nodup : (entries.map Prod.fst).Nodup)
      (children : ∀ entry ∈ entries, NamedBy allowed entry.2) : NamedBy allowed (.directory entries)

section Places

variable {allowed : Name → Prop} {node : Node} {place : List Name} {found : Node}

theorem at?_directory_cons (entries : List (Name × Node)) (name : Name) (place : List Name) :
    (directory entries).at? (name :: place) =
      (entries.lookup name).bind fun child => child.at? place := by
  rw [at?]
  cases entries.lookup name <;> rfl

theorem NamedBy.allowed_of_at? (named : node.NamedBy allowed)
    (there : node.at? place = some found) : ∀ name ∈ place, allowed name := by
  induction named generalizing place with
  | file contents =>
      cases place with
      | nil => simp
      | cons name place => simp [at?] at there
  | @directory entries names _ _ ih =>
      cases place with
      | nil => simp
      | cons name place =>
          rw [at?_directory_cons, Option.bind_eq_some_iff] at there
          rcases there with ⟨child, listed, there⟩
          have entry := mem_of_lookup listed
          intro other mem
          rcases List.mem_cons.mp mem with rfl | mem
          · exact names _ entry
          · exact ih _ entry there other mem

/-- A walk yields the paths of the places where files stand. -/
theorem NamedBy.mem_walk_iff (named : node.NamedBy allowed) (root path : Path) :
    path ∈ node.walk root ↔
      ∃ place contents, node.at? place = some (.file contents) ∧ path = root.descend place := by
  induction named generalizing root with
  | file contents =>
      rw [walk_file, List.mem_singleton]
      constructor
      · rintro rfl
        exact ⟨[], contents, rfl, rfl⟩
      · rintro ⟨place, other, there, rfl⟩
        cases place with
        | nil => rfl
        | cons name place => simp [at?] at there
  | @directory entries _ nodup _ ih =>
      rw [walk_directory, List.mem_flatMap]
      constructor
      · rintro ⟨⟨name, child⟩, listed, walked⟩
        have entry := List.mem_mergeSort.mp listed
        rcases (ih _ entry _).mp walked with ⟨place, contents, there, rfl⟩
        refine ⟨name :: place, contents, ?_, rfl⟩
        rw [at?_directory_cons, lookup_of_mem nodup entry]
        exact there
      · rintro ⟨place, contents, there, rfl⟩
        cases place with
        | nil => cases there
        | cons name place =>
            rw [at?_directory_cons, Option.bind_eq_some_iff] at there
            rcases there with ⟨child, listed, there⟩
            have entry := mem_of_lookup listed
            exact ⟨(name, child), List.mem_mergeSort.mpr entry,
              (ih _ entry _).mpr ⟨place, contents, there, rfl⟩⟩

end Places

end TraitIndex.Node
