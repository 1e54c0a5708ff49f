import Mathlib.Data.List.Forall2
import TraitIndex.Proofs.Text.Blank
import TraitIndex.Text.Canonical

/-!
# Canonical forms

A text has the same canonical form as it has with blanks around it, or with some ASCII letters
raised or lowered.  A canonical form is trimmed and in lower case, so it is its own canonical form.
-/

namespace TraitIndex.Text

/-- Holds of a character with itself and, if it is an ASCII letter, with its other case. -/
def SameLetter (character other : Char) : Prop :=
  other ∈ [character, character.toLower, character.toUpper]

/-- Holds of texts that differ in the case of ASCII letters only. -/
def Recased (text other : String) : Prop :=
  List.Forall₂ SameLetter text.toList other.toList

/-- A property of all characters, checked code by code for ASCII; other characters have no case. -/
theorem forall_char {motive : Char → Prop} (ascii : ∀ code < 128, motive (Char.ofNat code))
    (caseless : ∀ character : Char, character.toLower = character →
      character.toUpper = character → motive character) (character : Char) :
    motive character := by
  by_cases small : character.toNat < 128
  · have checked := ascii character.toNat small
    rwa [Char.ofNat_toNat] at checked
  · apply caseless character
    -- a letter of either case would have a code below 128
    all_goals
      refine dif_neg ?_
      rintro ⟨_, letter⟩
      exact small (Nat.lt_of_le_of_lt (UInt32.le_iff_toNat_le.mp letter) (by decide))

theorem toLower_toLower : ∀ character : Char, character.toLower.toLower = character.toLower := by
  apply forall_char
  · decide +kernel
  · intro character lowered _
    rw [lowered, lowered]

theorem toLower_toUpper : ∀ character : Char, character.toUpper.toLower = character.toLower := by
  apply forall_char
  · decide +kernel
  · intro character _ raised
    rw [raised]

theorem SameLetter.toLower_eq {character other : Char} (same : SameLetter character other) :
    other.toLower = character.toLower := by
  simp only [SameLetter, List.mem_cons, List.not_mem_nil, or_false] at same
  rcases same with rfl | rfl | rfl
  · rfl
  · exact toLower_toLower character
  · exact toLower_toUpper character

theorem map_toLower_eq {characters others : List Char}
    (same : List.Forall₂ SameLetter characters others) :
    others.map Char.toLower = characters.map Char.toLower := by
  induction same with
  | nil => rfl
  | cons letter _ ih => rw [List.map_cons, List.map_cons, letter.toLower_eq, ih]

theorem Recased.lower_eq {text other : String} (recased : Recased text other) :
    lower other = lower text := by
  rw [lower, lower, map_toLower_eq recased]

/-- No letter is blank, in either case. -/
theorem isBlank_toLower :
    ∀ character : Char, isBlank character.toLower = isBlank character := by
  apply forall_char
  · decide +kernel
  · intro character lowered _
    rw [lowered]

theorem trim_lower (text : String) : trim (lower text) = lower (trim text) := by
  simp [trim, lower, trimChars_map isBlank_toLower]

theorem lower_lower (text : String) : lower (lower text) = lower text := by
  simp [lower, Function.comp_def, toLower_toLower]

theorem trim_canonical (text : String) : trim (canonical text) = canonical text := by
  rw [canonical, trim_lower, trim_trim]

theorem lower_canonical (text : String) : lower (canonical text) = canonical text :=
  lower_lower (trim text)

theorem canonical_canonical (text : String) : canonical (canonical text) = canonical text := by
  rw [canonical, trim_canonical, lower_canonical]

theorem canonical_padded {before after : String} (blankBefore : allBlank before = true)
    (blankAfter : allBlank after = true) (text : String) :
    canonical (before ++ text ++ after) = canonical text := by
  rw [canonical, trim_padded blankBefore blankAfter, canonical]

theorem Recased.canonical_eq {text other : String} (recased : Recased text other) :
    canonical other = canonical text := by
  rw [canonical, canonical, ← trim_lower, ← trim_lower, recased.lower_eq]

end TraitIndex.Text
