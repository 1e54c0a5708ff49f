import TraitIndex.Index.Policy
import TraitIndex.Proofs.Logging.Setting
import TraitIndex.Proofs.Text.Canonical

/-!
# Names of policies and levels

Both readers of names look at the canonical form of a text and nothing else.  So blanks around a
name and the case of its letters make no difference, a name that is shown is read back, and what is
said to be no name is in canonical form and is no name either.
-/

namespace TraitIndex

/-- Holds of a form that means a policy. -/
def MergePolicy.IsForm (policy : MergePolicy) (form : String) : Prop :=
  form = policy.name

/-- Holds of a form that means a level; warnings have two. -/
def Log.Level.IsForm (level : Log.Level) (form : String) : Prop :=
  form = level.name ∨ level = .warn ∧ form = "warning"

section Readers

variable {α ε : Type}

/-- Holds of a reader of names for some values.  `IsForm` says which canonical forms mean a value,
`name` is the one that is shown, and `refuse` is the answer to a form without a meaning. -/
structure ReadsNames (read : String → Except ε α) (IsForm : α → String → Prop) (name : α → String)
    (refuse : String → ε) : Prop where
  padded : ∀ before text after, Text.allBlank before = true → Text.allBlank after = true →
    read (before ++ text ++ after) = read text
  recased : ∀ text other, Text.Recased text other → read other = read text
  accepted : ∀ text value, read text = .ok value ↔ IsForm value (Text.canonical text)
  carried : ∀ text error, read text = .error error →
    let form := Text.canonical text
    error = refuse form ∧ Text.trim form = form ∧ Text.lower form = form ∧
      read form = .error error
  shown : ∀ text value, read text = .ok value → read (name value) = .ok value

variable {read : String → Except ε α} {IsForm : α → String → Prop} {name : α → String}
  {refuse : String → ε}
  (accepted : ∀ text value, read text = .ok value ↔ IsForm value (Text.canonical text))
  (refused : ∀ text error, read text = .error error → error = refuse (Text.canonical text))

include accepted refused

/-- A reader that accepts and refuses canonical forms sees nothing else of a text. -/
theorem read_congr {text other : String} (same : Text.canonical other = Text.canonical text) :
    read other = read text := by
  cases found : read text with
  | ok value => rw [accepted, same, ← accepted, found]
  | error error =>
      cases foundOther : read other with
      | ok value =>
          rw [accepted, same, ← accepted, found] at foundOther
          cases foundOther
      | error otherError => rw [refused _ _ found, refused _ _ foundOther, same]

theorem readsNames_of_canonical (named : ∀ value, read (name value) = .ok value) :
    ReadsNames read IsForm name refuse where
  padded before text after blankBefore blankAfter :=
    read_congr accepted refused (Text.canonical_padded blankBefore blankAfter text)
  recased _ _ recased := read_congr accepted refused recased.canonical_eq
  accepted := accepted
  carried text error found := by
    refine ⟨refused text error found, Text.trim_canonical text, Text.lower_canonical text, ?_⟩
    rw [read_congr accepted refused (Text.canonical_canonical text), found]
  shown _ value _ := named value

end Readers

theorem MergePolicy.ofName_eq_ok_iff (text : String) (policy : MergePolicy) :
    ofName text = .ok policy ↔ policy.IsForm (Text.canonical text) := by
  rw [ofName, IsForm]
  split <;> cases policy <;> simp_all [name]

@[simp]
theorem MergePolicy.ofName_name (policy : MergePolicy) : ofName policy.name = .ok policy := by
  cases policy <;> decide +kernel

theorem MergePolicy.given_of_refused (text : String) (error : UnknownName)
    (refused : ofName text = .error error) : error = ⟨Text.canonical text⟩ := by
  rw [ofName] at refused
  split at refused <;> simp_all

theorem Log.Level.ofName_eq_ok_iff (text : String) (level : Level) :
    ofName text = .ok level ↔ level.IsForm (Text.canonical text) := by
  rw [ofName, IsForm]
  split <;> cases level <;> simp_all [name]

theorem Log.Level.given_of_refused (text given : String) (refused : ofName text = .error given) :
    given = Text.canonical text := by
  rw [ofName] at refused
  split at refused <;> simp_all

theorem Logging.normaliseLevel_eq_ok_iff (text : String) (level : Log.Level) :
    normaliseLevel text = .ok level ↔ level.IsForm (Text.canonical text) := by
  rw [← Log.Level.ofName_eq_ok_iff, normaliseLevel]
  cases Log.Level.ofName text <;> simp

theorem Logging.given_of_refused (text : String) (refusal : Refusal)
    (refused : normaliseLevel text = .error refusal) :
    refusal = .unknownLevel (Text.canonical text) := by
  rw [normaliseLevel] at refused
  cases found : Log.Level.ofName text with
  | ok level => simp [found] at refused
  | error given =>
      rw [Log.Level.given_of_refused text given found] at found
      simpa [found] using refused.symm

/-- Merge policies and log levels are read by their names, whatever stands around them and however
their letters are written. -/
theorem readsNames_policies_and_levels :
    ReadsNames MergePolicy.ofName MergePolicy.IsForm MergePolicy.name MergePolicy.UnknownName.mk ∧
      ReadsNames Logging.normaliseLevel Log.Level.IsForm Log.Level.name
        Logging.Refusal.unknownLevel := by
  constructor
  · exact readsNames_of_canonical MergePolicy.ofName_eq_ok_iff MergePolicy.given_of_refused
      MergePolicy.ofName_name
  · exact readsNames_of_canonical Logging.normaliseLevel_eq_ok_iff Logging.given_of_refused
      Logging.normaliseLevel_name

/-- Letters outside ASCII keep their case, so they make another name. -/
example : MergePolicy.ofName "\u00a0UN\u0130ON\n" = .error ⟨"un\u0130on"⟩ := by
  decide +kernel

end TraitIndex
