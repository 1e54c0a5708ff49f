import Mathlib.Data.List.Infix
import TraitIndex.Proofs.Script.Declaration
import TraitIndex.Script.FileName

/-!
# Which names name a trait

A name is taken for that of a script when it has the beginning and the end of one.  In all such
names a trait stands between the two, save two names: in one nothing stands between them, and in the
other they share the dot.
-/

namespace TraitIndex.Script

/-- Holds of the two names of scripts that name no trait. -/
def IsTraitless (name : Name) : Prop :=
  Text.Utf8.decode? name = some "trait.js".toList ∨
    Text.Utf8.decode? name = some "trait..js".toList

instance (name : Name) : Decidable (IsTraitless name) :=
  inferInstanceAs (Decidable (_ ∨ _))

theorem before?_eq_some_iff {word text rest : List Char} :
    before? word text = some rest ↔ text = rest ++ word := by
  unfold before?
  constructor
  · intro found
    split at found
    · rename_i isSuffix
      rcases List.isSuffixOf_iff_suffix.mp isSuffix with ⟨front, rfl⟩
      simp at found
      rw [found]
    · cases found
  · rintro rfl
    simp

/-- The texts with the beginning and the end of a script's name. -/
theorem prefix_and_suffix_iff {text : List Char} :
    fileNameStart <+: text ∧ fileNameEnd <:+ text ↔
      text = "trait.js".toList ∨ ∃ middle, text = fileNameStart ++ (middle ++ fileNameEnd) := by
  constructor
  · rintro ⟨⟨rest, rfl⟩, ends⟩
    rcases List.suffix_or_suffix_of_suffix ends (List.suffix_append fileNameStart rest) with
      inside | across
    · rcases inside with ⟨middle, rfl⟩
      exact .inr ⟨middle, rfl⟩
    · -- the rest is one of the four ends of the ending, and two of them leave too little of it
      have tails : fileNameEnd.tails = [['.', 'j', 's'], ['j', 's'], ['s'], []] := by decide +kernel
      have tail := (List.mem_tails rest fileNameEnd).mpr across
      rw [tails] at tail
      simp only [List.mem_cons, List.not_mem_nil, or_false] at tail
      rcases tail with rfl | rfl | rfl | rfl
      · exact .inr ⟨[], by decide +kernel⟩
      · exact .inl (by decide +kernel)
      · exact absurd ends (by decide +kernel)
      · exact absurd ends (by decide +kernel)
  · rintro (rfl | ⟨middle, rfl⟩)
    · decide +kernel
    · exact ⟨List.prefix_append _ _,
        (List.suffix_append middle _).trans (List.suffix_append _ _)⟩

theorem isScriptName_eq_true_iff {name : Name} :
    isScriptName name = true ↔
      ∃ text, Text.Utf8.decode? name = some text ∧ fileNameStart <+: text ∧
        fileNameEnd <:+ text := by
  unfold isScriptName
  cases Text.Utf8.decode? name <;> simp

theorem traitName?_eq_some_iff {name : Name} {trait : String} :
    traitName? name = some trait ↔
      trait.toList ≠ [] ∧
        Text.Utf8.decode? name = some (fileNameStart ++ (trait.toList ++ fileNameEnd)) := by
  simp only [traitName?, Option.bind_eq_bind, Option.bind_eq_some_iff, after?_eq_some_iff,
    before?_eq_some_iff]
  constructor
  · rintro ⟨_, decoded, _, rfl, middle, rfl, named⟩
    split at named
    · cases named
    · rename_i some
      cases named
      refine ⟨?_, by simpa using decoded⟩
      simpa using some
  · rintro ⟨some, decoded⟩
    exact ⟨_, decoded, _, rfl, _, rfl, by simp [some]⟩

/-- A trait stands in the names that begin and end like a script's, save two. -/
theorem isScriptName_iff {name : Name} :
    isScriptName name = true ↔ (traitName? name).isSome = true ∨ IsTraitless name := by
  simp only [isScriptName_eq_true_iff, prefix_and_suffix_iff, Option.isSome_iff_exists,
    traitName?_eq_some_iff]
  constructor
  · rintro ⟨text, decoded, rfl | ⟨middle, rfl⟩⟩
    · exact .inr (.inl decoded)
    · cases middle with
      | nil =>
          have bare : fileNameStart ++ ([] ++ fileNameEnd) = "trait..js".toList := by
            decide +kernel
          exact .inr (.inr (bare ▸ decoded))
      | cons character middle =>
          refine .inl ⟨String.ofList (character :: middle), by simp, ?_⟩
          rw [String.toList_ofList]
          exact decoded
  · rintro (⟨trait, _, decoded⟩ | shared | bare)
    · exact ⟨_, decoded, .inr ⟨_, rfl⟩⟩
    · exact ⟨_, shared, .inl rfl⟩
    · exact ⟨_, bare, .inr ⟨[], by decide +kernel⟩⟩

theorem traitName?_of_isTraitless {name : Name} (traitless : IsTraitless name) :
    traitName? name = none := by
  rcases traitless with shared | bare
  · unfold traitName?
    rw [shared]
    decide +kernel
  · unfold traitName?
    rw [bare]
    decide +kernel

end TraitIndex.Script
