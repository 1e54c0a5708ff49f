import TraitIndex.Path.Basic

/-!
# Paths below a path

The entries of a directory have names without slashes, and no entry has an empty name or one that
consists of a single or of double dots.  Joining such a name to a path adds one component behind
those that the path has, however the path is spelt: with slashes at its end or without, and with
single dots in it.  So the path of a place below a root consists of the root's components and the
names on the way.
-/

namespace TraitIndex.Path

/-- Holds of the names that the entries of a directory can have. -/
structure IsEntryName (name : Name) : Prop where
  ne_nil : name ≠ []
  noSlash : slash ∉ name
  ne_dot : name ≠ [dot]
  ne_dots : name ≠ [dot, dot]

instance (name : Name) : Decidable (IsEntryName name) :=
  decidable_of_iff (name ≠ [] ∧ slash ∉ name ∧ name ≠ [dot] ∧ name ≠ [dot, dot])
    ⟨fun ⟨ne_nil, noSlash, ne_dot, ne_dots⟩ => ⟨ne_nil, noSlash, ne_dot, ne_dots⟩,
      fun ⟨ne_nil, noSlash, ne_dot, ne_dots⟩ => ⟨ne_nil, noSlash, ne_dot, ne_dots⟩⟩

/-- The path that is reached from `path` through entries of the given names. -/
def descend (path : Path) (place : List Name) : Path :=
  place.foldl join path

section Segments

theorem splitSlashes_ne_nil (bytes : List UInt8) : splitSlashes bytes ≠ [] := by
  cases bytes with
  | nil => simp [splitSlashes]
  | cons byte bytes =>
      simp only [splitSlashes]
      split
      · simp
      · split <;> simp

theorem splitSlashes_append_slash (bytes rest : List UInt8) :
    splitSlashes (bytes ++ slash :: rest) = splitSlashes bytes ++ splitSlashes rest := by
  induction bytes with
  | nil => simp [splitSlashes]
  | cons byte bytes ih =>
      rw [List.cons_append, splitSlashes, splitSlashes, ih]
      by_cases isSlash : byte = slash
      · simp [isSlash]
      · rcases split : splitSlashes bytes with _ | ⟨segment, segments⟩
        · exact absurd split (splitSlashes_ne_nil bytes)
        · simp [isSlash]

theorem splitSlashes_of_noSlash {bytes : List UInt8} (noSlash : slash ∉ bytes) :
    splitSlashes bytes = [bytes] := by
  induction bytes with
  | nil => rfl
  | cons byte bytes ih =>
      simp only [List.mem_cons, not_or] at noSlash
      simp [splitSlashes, ih noSlash.2, Ne.symm noSlash.1]

end Segments

section Components

/-- The components of a relative path with the given segments, the first of which may be a dot. -/
def relativeComponents : List Name → List Component
  | [] => []
  | segment :: segments =>
      if segment = [dot] then .current :: segments.filterMap Component.ofSegment?
      else (segment :: segments).filterMap Component.ofSegment?

theorem components_eq (path : Path) :
    path.components =
      if path.isAbsolute then .root :: path.segments.filterMap Component.ofSegment?
      else relativeComponents path.segments := by
  unfold components relativeComponents
  rfl

theorem relativeComponents_append {segments : List Name} (ne_nil : segments ≠ [])
    (further : List Name) :
    relativeComponents (segments ++ further) =
      relativeComponents segments ++ further.filterMap Component.ofSegment? := by
  cases segments with
  | nil => exact absurd rfl ne_nil
  | cons segment segments =>
      by_cases isDot : segment = [dot]
      · simp [relativeComponents, isDot]
      · simp only [List.cons_append, relativeComponents, isDot, if_false]
        rw [← List.cons_append, List.filterMap_append]

variable {name : Name}

theorem IsEntryName.ofSegment?_eq (valid : IsEntryName name) :
    Component.ofSegment? name = some (.name name) := by
  simp [Component.ofSegment?, valid.ne_nil, valid.ne_dot, valid.ne_dots]

theorem IsEntryName.isAbsolute_join (valid : IsEntryName name) (path : Path) :
    (path.join name).isAbsolute = path.isAbsolute := by
  rcases path with ⟨_ | ⟨first, bytes⟩⟩
  · rcases name with _ | ⟨byte, name⟩
    · exact absurd rfl valid.ne_nil
    · have isNoSlash := valid.noSlash
      simp only [List.mem_cons, not_or] at isNoSlash
      simp [join, isAbsolute, Ne.symm isNoSlash.1]
  · unfold join isAbsolute
    split <;> simp

/-- What is joined to a path comes behind its segments, but for the empty one that a slash at the
end of the path leaves. -/
theorem IsEntryName.segments_join (valid : IsEntryName name) {path : Path}
    (spelt : path.bytes ≠ []) :
    ∃ segments, segments ≠ [] ∧ (path.join name).segments = segments ++ [name] ∧
      (path.segments = segments ∨ path.segments = segments ++ [[]]) := by
  rcases path with ⟨bytes⟩
  have alone := splitSlashes_of_noSlash valid.noSlash
  by_cases slashed : bytes.getLast? = slash
  · rcases List.getLast?_eq_some_iff.mp slashed with ⟨front, rfl⟩
    refine ⟨splitSlashes front, splitSlashes_ne_nil front, ?_, .inr ?_⟩
    · simp [join, segments, splitSlashes_append_slash, alone]
    · simp [segments, splitSlashes_append_slash, splitSlashes]
  · refine ⟨splitSlashes bytes, splitSlashes_ne_nil bytes, ?_, .inl rfl⟩
    have unjoined : ¬ (bytes = [] ∨ bytes.getLast? = slash) := not_or.mpr ⟨spelt, slashed⟩
    simp [join, segments, unjoined, splitSlashes_append_slash, alone]

/-- Joining the name of an entry adds one component. -/
theorem IsEntryName.components_join (valid : IsEntryName name) (path : Path) :
    (path.join name).components = path.components ++ [.name name] := by
  have own := valid.ofSegment?_eq
  have nothing : Component.ofSegment? [] = none := by simp [Component.ofSegment?]
  rw [components_eq, components_eq, valid.isAbsolute_join]
  by_cases spelt : path.bytes = []
  · rcases path with ⟨bytes⟩
    cases spelt
    have alone := splitSlashes_of_noSlash valid.noSlash
    simp [isAbsolute, join, segments, alone, relativeComponents, valid.ne_dot, own, nothing,
      splitSlashes]
  · rcases valid.segments_join spelt with ⟨segments, ne_nil, joined, own' | slashed⟩
    · rw [joined, own', relativeComponents_append ne_nil]
      split <;> simp [own]
    · rw [joined, slashed, relativeComponents_append ne_nil, relativeComponents_append ne_nil]
      split <;> simp [own, nothing]

end Components

section Places

variable {place : List Name}

theorem components_descend (valid : ∀ name ∈ place, IsEntryName name) (root : Path) :
    (root.descend place).components = root.components ++ place.map .name := by
  induction place generalizing root with
  | nil => simp [descend]
  | cons name place ih =>
      have rest := ih (fun other listed => valid other (by simp [listed])) (root.join name)
      have first := (valid name (by simp)).components_join root
      simp only [descend, List.foldl_cons] at rest ⊢
      simp [rest, first]

theorem below?_descend (valid : ∀ name ∈ place, IsEntryName name) (root : Path) :
    root.below? (root.descend place) = some (place.map .name) := by
  simp [below?, components_descend valid]

theorem fileName?_descend (valid : ∀ name ∈ place, IsEntryName name) (root : Path) {name : Name}
    (last : place.getLast? = some name) : (root.descend place).fileName? = some name := by
  rw [fileName?, components_descend valid, List.getLast?_append, List.getLast?_map, last]
  rfl

end Places

end TraitIndex.Path
