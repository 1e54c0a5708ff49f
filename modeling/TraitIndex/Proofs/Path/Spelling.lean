import TraitIndex.Proofs.Path.Join

/-!
# Ways to spell a path

A path can be spelt with more slashes than one between its segments, with a slash at its end and
with single dots in it.  None of this changes its components: behind a slash, empty segments and
single dots are passed over.  What does change them is to go on with the last name, without a slash:
then the path leads elsewhere.
-/

namespace TraitIndex.Path

/-- Holds of two spellings of one path.  A slash may be added at the end of any path but the empty
one, since a slash alone leads to the root directory. -/
inductive Respelt : Path → Path → Prop where
  | slash (front back : List UInt8) :
      Respelt ⟨front ++ Path.slash :: back⟩ ⟨front ++ Path.slash :: Path.slash :: back⟩
  | dot (front back : List UInt8) :
      Respelt ⟨front ++ Path.slash :: back⟩ ⟨front ++ Path.slash :: Path.dot :: Path.slash :: back⟩
  | trailing {path : Path} (spelt : path.bytes ≠ []) : Respelt path ⟨path.bytes ++ [Path.slash]⟩
  | refl (path : Path) : Respelt path path
  | symm {path other : Path} (respelt : Respelt path other) : Respelt other path
  | trans {path between other : Path} (first : Respelt path between)
      (second : Respelt between other) : Respelt path other

/-- What follows a slash adds the components of its segments. -/
theorem components_append_slash {path : Path} (spelt : path.bytes ≠ []) (rest : List UInt8) :
    (Path.mk (path.bytes ++ slash :: rest)).components =
      path.components ++ (splitSlashes rest).filterMap Component.ofSegment? := by
  have absolute : (Path.mk (path.bytes ++ slash :: rest)).isAbsolute = path.isAbsolute := by
    rcases path with ⟨_ | ⟨byte, bytes⟩⟩
    · exact absurd rfl spelt
    · rfl
  have cut : (Path.mk (path.bytes ++ slash :: rest)).segments =
      path.segments ++ splitSlashes rest := splitSlashes_append_slash path.bytes rest
  rw [components_eq, components_eq, absolute, cut]
  split
  · simp
  · exact relativeComponents_append (splitSlashes_ne_nil path.bytes) _

theorem components_slash (rest : List UInt8) :
    (Path.mk (slash :: rest)).components =
      .root :: (splitSlashes rest).filterMap Component.ofSegment? := by
  simp [components_eq, isAbsolute, segments, splitSlashes, Component.ofSegment?]

theorem ofSegment?_ne_root (segment : Name) : Component.ofSegment? segment ≠ some .root := by
  unfold Component.ofSegment?
  split
  · exact nofun
  · split <;> exact nofun

/-- The components of a path tell whether it is absolute. -/
theorem root_mem_components_iff {path : Path} :
    .root ∈ path.components ↔ path.isAbsolute = true := by
  rw [components_eq]
  split
  · rename_i absolute
    simp [absolute]
  · rename_i relative
    unfold relativeComponents
    split
    · simp [relative]
    · split <;> simp [relative, ofSegment?_ne_root]

theorem Same.isAbsolute_iff {path other : Path} (same : path.Same other) :
    path.isAbsolute = true ↔ other.isAbsolute = true := by
  rw [← root_mem_components_iff, ← root_mem_components_iff, same]

/-- Behind a slash only the components of the segments count. -/
theorem components_congr_behind_slash (front : List UInt8) {back other : List UInt8}
    (same : (splitSlashes back).filterMap Component.ofSegment? =
      (splitSlashes other).filterMap Component.ofSegment?) :
    (Path.mk (front ++ slash :: back)).components =
      (Path.mk (front ++ slash :: other)).components := by
  by_cases spelt : front = []
  · simp [spelt, components_slash, same]
  · have behind := @components_append_slash ⟨front⟩ spelt
    rw [behind, behind, same]

/-- However a path is spelt, it has the same components. -/
theorem Respelt.components_eq {path other : Path} (respelt : Respelt path other) :
    path.components = other.components := by
  induction respelt with
  | slash front back =>
      apply components_congr_behind_slash
      simp [splitSlashes, Component.ofSegment?]
  | dot front back =>
      apply components_congr_behind_slash
      simp [splitSlashes, Component.ofSegment?, Path.dot, Path.slash]
  | trailing spelt =>
      rw [components_append_slash spelt]
      simp [splitSlashes, Component.ofSegment?]
  | refl path => rfl
  | symm _ ih => exact ih.symm
  | trans _ _ ihFirst ihSecond => exact ihFirst.trans ihSecond

section Prolonged

/-- Holds of two paths if the text of the second one begins with that of the first one, and goes on
where the last name of the first one ends. -/
inductive Prolonged : Path → Path → Prop where
  | goOn (above : Path) {name more : List UInt8} (valid : IsEntryName name)
      (further : ∃ byte rest, more = byte :: rest ∧ byte ≠ slash) :
      Prolonged (above.join name) ⟨(above.join name).bytes ++ more⟩

theorem bytes_join_append (above : Path) (name more : List UInt8) :
    (above.join name).bytes ++ more = (above.join (name ++ more)).bytes := by
  unfold join
  split <;> simp

theorem IsEntryName.append {name more : List UInt8} (valid : IsEntryName name)
    (further : more ≠ []) (noSlash : slash ∉ more) : IsEntryName (name ++ more) := by
  refine ⟨by simp [further], by simp [valid.noSlash, noSlash], ?_, ?_⟩
  · intro isDot
    rcases List.append_eq_singleton_iff.mp isDot with ⟨none, _⟩ | ⟨_, none⟩
    · exact valid.ne_nil none
    · exact further none
  · intro isDots
    rcases List.append_eq_cons_iff.mp isDots with ⟨none, _⟩ | ⟨inner, rfl, rest⟩
    · exact valid.ne_nil none
    · rcases List.append_eq_singleton_iff.mp rest.symm with ⟨rfl, _⟩ | ⟨_, none⟩
      · exact valid.ne_dot rfl
      · exact further none

/-- A name goes on up to the next slash. -/
theorem exists_next_slash (bytes : List UInt8) :
    ∃ segment left, bytes = segment ++ left ∧ slash ∉ segment ∧
      (left = [] ∨ ∃ rest, left = slash :: rest) := by
  induction bytes with
  | nil => exact ⟨[], [], rfl, by simp, .inl rfl⟩
  | cons byte bytes ih =>
      by_cases isSlash : byte = slash
      · exact ⟨[], byte :: bytes, rfl, by simp, .inr ⟨bytes, by rw [isSlash]⟩⟩
      · rcases ih with ⟨segment, left, rfl, noSlash, ends⟩
        exact ⟨byte :: segment, left, rfl, by simp [noSlash, Ne.symm isSlash], ends⟩

/-- What a path goes on with belongs to its last name, up to the next slash. -/
theorem IsEntryName.exists_components_join_append {name : List UInt8} (valid : IsEntryName name)
    (above : Path) {byte : UInt8} (notSlash : byte ≠ slash) (rest : List UInt8) :
    ∃ segment further, (Path.mk ((above.join name).bytes ++ byte :: rest)).components =
      above.components ++ .name (name ++ byte :: segment) :: further := by
  rcases exists_next_slash rest with ⟨segment, left, rfl, noSlash, ends⟩
  have longer : IsEntryName (name ++ byte :: segment) :=
    valid.append (List.cons_ne_nil _ _) (by simp [noSlash, Ne.symm notSlash])
  refine ⟨segment, ?_⟩
  rw [← List.cons_append, ← List.append_assoc, bytes_join_append]
  rcases ends with rfl | ⟨rest, rfl⟩
  · refine ⟨[], ?_⟩
    rw [List.append_nil, longer.components_join]
  · have spelt : (above.join (name ++ byte :: segment)).bytes ≠ [] := by
      simp [← bytes_join_append]
    refine ⟨(splitSlashes rest).filterMap Component.ofSegment?, ?_⟩
    rw [components_append_slash spelt, longer.components_join, List.append_assoc,
      List.singleton_append]

/-- A path is not below another one for going on with the text of its last name. -/
theorem Prolonged.not_prefix {path other : Path} (prolonged : Prolonged path other) :
    ¬ path.components <+: other.components := by
  rcases prolonged with ⟨above, valid, byte, rest, rfl, notSlash⟩
  rcases valid.exists_components_join_append above notSlash rest with ⟨segment, further, same⟩
  rw [same, valid.components_join, List.prefix_append_right_inj, List.cons_prefix_cons]
  rintro ⟨sameName, _⟩
  simp at sameName

end Prolonged

end TraitIndex.Path
