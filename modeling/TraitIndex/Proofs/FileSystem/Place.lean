import TraitIndex.FileSystem.Basic
import TraitIndex.Proofs.FileSystem.Walk

/-!
# The place that a path leads to

A path is followed segment by segment, and only from directories.  So one that leads to a file ends
with the name under which the file stands in its directory: an empty segment, a single dot or double
dots would lead to a directory.
-/

namespace TraitIndex

namespace Node

theorem at?_append (node : Node) (place further : List Name) :
    node.at? (place ++ further) = (node.at? place).bind fun found => found.at? further := by
  induction place generalizing node with
  | nil => cases node <;> rfl
  | cons name place ih =>
      cases node with
      | file contents => rfl
      | directory entries =>
          rw [List.cons_append, at?_directory_cons, at?_directory_cons]
          cases entries.lookup name with
          | none => rfl
          | some child => exact ih child

theorem NamedBy.ofFiles {allowed : Name → Prop} {entries : List (Name × Node)}
    (names : ∀ entry ∈ entries, allowed entry.1) (nodup : (entries.map Prod.fst).Nodup)
    (files : ∀ entry ∈ entries, ∃ contents, entry.2 = .file contents) :
    NamedBy allowed (.directory entries) := by
  refine .directory names nodup ?_
  intro entry listed
  rcases files entry listed with ⟨contents, isFile⟩
  rw [isFile]
  exact .file contents

theorem NamedBy.of_at? {allowed : Name → Prop} {node found : Node} {place : List Name}
    (named : node.NamedBy allowed) (there : node.at? place = some found) :
    found.NamedBy allowed := by
  induction named generalizing place with
  | file contents =>
      cases place with
      | nil =>
          cases there
          exact .file contents
      | cons name place => cases there
  | @directory entries names nodup children ih =>
      cases place with
      | nil =>
          cases there
          exact .directory names nodup children
      | cons name place =>
          rw [at?_directory_cons, Option.bind_eq_some_iff] at there
          rcases there with ⟨child, listed, there⟩
          exact ih _ (mem_of_lookup listed) there

/-- Above a directory there are directories. -/
theorem exists_directory_at?_dropLast {node : Node} {place : List Name}
    {entries : List (Name × Node)} (there : node.at? place = some (.directory entries)) :
    ∃ above, node.at? place.dropLast = some (.directory above) := by
  rcases List.eq_nil_or_concat place with rfl | ⟨front, last, rfl⟩
  · exact ⟨entries, there⟩
  · rw [List.concat_eq_append, at?_append, Option.bind_eq_some_iff] at there
    rcases there with ⟨found, isFound, there⟩
    rw [List.concat_eq_append, List.dropLast_concat, isFound]
    cases found with
    | file contents => cases there
    | directory above => exact ⟨above, rfl⟩

end Node

namespace FileSystem

variable {files : FileSystem} {place home : List Name} {contents : List UInt8}

/-- A step that ends at a file goes down to an entry. -/
theorem eq_append_of_follow_file {segment : Name} (followed : files.follow place segment = .ok home)
    (isFile : files.top.at? home = some (.file contents)) : home = place ++ [segment] := by
  unfold follow at followed
  split at followed
  · cases followed
  · cases followed
  · rename_i entries there
    split_ifs at followed
    · cases followed
      rw [there] at isFile
      cases isFile
    · cases followed
      rcases Node.exists_directory_at?_dropLast there with ⟨above, isDirectory⟩
      rw [isDirectory] at isFile
      cases isFile
    · cases followed
      rfl

theorem followAll_concat {segments : List Name} {last : Name}
    (followed : files.followAll place (segments ++ [last]) = .ok home) :
    ∃ between, files.follow between last = .ok home := by
  induction segments generalizing place with
  | nil =>
      refine ⟨place, ?_⟩
      rw [List.nil_append, followAll] at followed
      split at followed
      · cases followed
      · rename_i next isNext
        rw [isNext, ← followed]
        rfl
  | cons segment segments ih =>
      rw [List.cons_append, followAll] at followed
      split at followed
      · cases followed
      · exact ih followed

/-- A path to a file ends with the name of the file. -/
theorem getLast?_segments_of_file {path : Path} (located : files.locate path = .ok home)
    (isFile : files.top.at? home = some (.file contents)) :
    ∃ name, path.segments.getLast? = some name ∧ home.getLast? = some name := by
  unfold locate at located
  split at located
  · cases located
  · rcases List.eq_nil_or_concat path.segments with none | ⟨segments, last, cut⟩
    · exact absurd none (Path.splitSlashes_ne_nil path.bytes)
    · rw [cut, List.concat_eq_append] at located
      rcases followAll_concat located with ⟨between, followed⟩
      refine ⟨last, by simp [cut], ?_⟩
      rw [eq_append_of_follow_file followed isFile, List.getLast?_concat]

end FileSystem

namespace Path

/-- A path whose last segment is a name ends with this name. -/
theorem fileName?_of_getLast?_segments {path : Path} {name : Name} (valid : IsEntryName name)
    (last : path.segments.getLast? = some name) : path.fileName? = some name := by
  rcases List.getLast?_eq_some_iff.mp last with ⟨segments, cut⟩
  have own := valid.ofSegment?_eq
  have isLast : path.components.getLast? = some (.name name) := by
    rw [components_eq, cut]
    split
    · simp [List.getLast?_cons, own]
    · cases segments with
      | nil => simp [relativeComponents, valid.ne_dot, own]
      | cons segment segments =>
          rw [relativeComponents_append (List.cons_ne_nil _ _)]
          simp [own]
  rw [fileName?, isLast]

end Path

end TraitIndex
