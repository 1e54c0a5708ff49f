import TraitIndex.Logging.Setting
import TraitIndex.Proofs.Text.Blank
import TraitIndex.Proofs.Text.Utf8

/-!
# Normalised settings

Normalising brings what a host asks for into a form that normalises to itself: the canonical name of
a level is the name of that level, and the path of a normalised target is a trimmed text, which is
shown as it was written.  So the setting in force can be asked for again as it is reported.
-/

namespace TraitIndex.Logging

@[simp]
theorem display_ofString (text : String) : (Path.ofString text).display = text := by
  rw [Path.display, Path.ofString, Text.Utf8.decodeLossy_encode, String.ofList_toList]

@[simp]
theorem normaliseLevel_name (level : Log.Level) : normaliseLevel level.name = .ok level := by
  cases level <;> decide +kernel

/-- A normalised target is one that normalising leaves as it is. -/
theorem normaliseTarget_of_normalised {given target : Target}
    (normalised : normaliseTarget given = .ok target) : normaliseTarget target = .ok target := by
  cases given with
  | stderr =>
      cases normalised
      rfl
  | directory path =>
      rw [normaliseTarget] at normalised
      by_cases empty : Text.trim path.display = ""
      · simp [empty] at normalised
      · by_cases absolute : (Path.ofString (Text.trim path.display)).isAbsolute = true
        · simp only [if_neg empty, if_pos absolute] at normalised
          cases normalised
          simp [normaliseTarget, Text.trim_trim, empty, absolute]
        · simp [empty, absolute] at normalised

namespace Config

variable {config : Config}

theorem normalise_of_level_refused {refusal : Refusal}
    (refused : normaliseLevel config.level = .error refusal) :
    config.normalise = .error refusal := by
  rw [normalise, refused]

theorem normalise_of_target_refused {level : Log.Level} {refusal : Refusal}
    (named : normaliseLevel config.level = .ok level)
    (refused : normaliseTarget config.target = .error refusal) :
    config.normalise = .error refusal := by
  rw [normalise, named]
  simp only [refused]

theorem normalise_eq_ok_iff {setting : Setting} :
    config.normalise = .ok setting ↔
      normaliseLevel config.level = .ok setting.level ∧
        normaliseTarget config.target = .ok setting.target := by
  rw [normalise]
  cases normaliseLevel config.level with
  | error refusal => simp
  | ok level =>
      cases normaliseTarget config.target with
      | error refusal => simp
      | ok target =>
          rcases setting with ⟨level', target'⟩
          simp

end Config

/-- What a host asks for when it asks for a setting by the name of its level. -/
def Setting.config (setting : Setting) : Config :=
  ⟨setting.level.name, setting.target⟩

/-- A setting that a request normalised to can be asked for again. -/
theorem Setting.normalise_config {config : Config} {setting : Setting}
    (normalised : config.normalise = .ok setting) : setting.config.normalise = .ok setting := by
  rw [Config.normalise_eq_ok_iff] at normalised ⊢
  exact ⟨normaliseLevel_name setting.level, normaliseTarget_of_normalised normalised.2⟩

end TraitIndex.Logging
