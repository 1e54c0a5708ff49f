import TraitIndex.Proofs.Logging.Startup
import TraitIndex.Proofs.Path.Spelling

/-!
# Which log directories conflict

A log directory is taken for the path of the text that it is shown as, without the blanks around
that text.  Once a process logs to a directory, another one is accepted if and only if both are
taken for the same path.  A path that is a text without blanks around it is taken for itself, so of
such paths a conflicting one is always refused.  Bytes that are not part of a text show as
replacement characters: two paths that differ in such bytes only may be taken for one, which is
neither of them.
-/

namespace TraitIndex.Logging

/-- The path that a log directory is taken for. -/
def takenFor (directory : Path) : Path :=
  Path.ofString (Text.trim directory.display)

/-- Holds of the paths that are texts without blanks around them. -/
def IsPlain (path : Path) : Prop :=
  ∃ text : String, Text.trim text = text ∧ path = Path.ofString text

theorem IsPlain.takenFor_eq {path : Path} (plain : IsPlain path) : takenFor path = path := by
  rcases plain with ⟨text, trimmed, rfl⟩
  rw [takenFor, display_ofString, trimmed]

theorem normaliseTarget_directory_eq_ok_iff {directory : Path} {target : Target} :
    normaliseTarget (.directory directory) = .ok target ↔
      (takenFor directory).isAbsolute = true ∧ target = .directory (takenFor directory) := by
  rw [normaliseTarget]
  by_cases empty : Text.trim directory.display = ""
  · have relative : (Path.ofString "").isAbsolute = false := by decide
    simp [takenFor, empty, relative]
  · by_cases absolute : (takenFor directory).isAbsolute = true
    · rw [if_neg empty, ← takenFor, if_pos absolute]
      simp [absolute, eq_comm]
    · rw [if_neg empty, ← takenFor, if_neg absolute]
      simp [absolute]

section Requests

variable {request : Request} {logger : Logger}

/-- What is in force after an accepted request agrees with what was asked for. -/
theorem Request.exists_agrees_of_accepted (accepted : (request.attempt logger).refusal = none) :
    ∃ given active, request.config.normalise = .ok given ∧
      (request.attempt logger).logger.setting = some active ∧ active.Agrees given ∧
      (logger.setting = none → active = given) := by
  cases inForce : logger.setting with
  | some active =>
      rcases request.attempt_of_active inForce with ⟨accepts, unchanged⟩
      rcases accepts.mp accepted with ⟨given, normalised, agrees⟩
      rw [unchanged]
      exact ⟨given, active, normalised, inForce, agrees, nofun⟩
  | none =>
      rcases request.attempt_of_idle inForce with ⟨accepts, starts, _⟩
      rcases Option.isSome_iff_exists.mp (accepts.mp accepted) with ⟨given, starting⟩
      exact ⟨given, given, request.normalise_of_starting? starting, starts.trans starting,
        ⟨given.target.same_refl, rfl⟩, fun _ => rfl⟩

variable {level : String} {directory : Path}

theorem Config.normalise_directory_eq_ok_iff {given : Setting} :
    Config.normalise ⟨level, .directory directory⟩ = .ok given ↔
      normaliseLevel level = .ok given.level ∧ (takenFor directory).isAbsolute = true ∧
        given.target = .directory (takenFor directory) := by
  rw [Config.normalise_eq_ok_iff, normaliseTarget_directory_eq_ok_iff]

/-- After a log directory is accepted, a directory is in force that is the same as the one it is
taken for. -/
theorem Request.exists_directory_of_accepted
    (asks : request.config = ⟨level, .directory directory⟩)
    (accepted : (request.attempt logger).refusal = none) :
    ∃ active inForce, (request.attempt logger).logger.setting = some ⟨active, .directory inForce⟩ ∧
      normaliseLevel level = .ok active ∧ (takenFor directory).isAbsolute = true ∧
      inForce.Same (takenFor directory) ∧
      (logger.setting = none → inForce = takenFor directory) := by
  rcases request.exists_agrees_of_accepted accepted with
    ⟨given, ⟨active, target⟩, normalised, inForce, ⟨same, sameLevel⟩, fresh⟩
  rw [asks, Config.normalise_directory_eq_ok_iff] at normalised
  rcases normalised with ⟨named, absolute, isDirectory⟩
  rw [isDirectory] at same
  cases target with
  | stderr => exact same.elim
  | directory path =>
      refine ⟨active, path, inForce, named.trans (congrArg _ sameLevel.symm), absolute, same, ?_⟩
      intro idle
      have whole : Target.directory path = given.target := congrArg Setting.target (fresh idle)
      rw [isDirectory, Target.directory.injEq] at whole
      exact whole

end Requests

/-- What a process makes of a further log directory, once it has accepted one. -/
structure ToldApart (directory other : Path) (before inForce : Logger) (attempt : Attempt) :
    Prop where
  reported : ∃ level active, inForce.status = some (level, .directory active) ∧
    active.Same directory ∧ (before.status = none → active = directory)
  accepted : attempt.refusal = none ↔ directory.Same other
  unchanged : attempt.logger = inForce

/-- At the same level, a process tells directories apart by the paths that they are taken for.
Whatever was asked of it before and between, it reports what the first directory is taken for, and
it accepts the other one if and only if that is taken for the same.  If both paths are texts without
blanks around them, this is said of the paths themselves. -/
theorem toldApart_attempt {earlier between : List Request} {first second : Request}
    {level : String} {directory other : Path}
    (asks : first.config = ⟨level, .directory directory⟩)
    (asksOther : second.config = ⟨level, .directory other⟩)
    (accepted : (first.attempt (Logger.idle.after earlier)).refusal = none) :
    let before := Logger.idle.after earlier
    let inForce := (first.attempt before).logger.after between
    ToldApart (takenFor directory) (takenFor other) before inForce (second.attempt inForce) ∧
      (IsPlain directory → IsPlain other →
        ToldApart directory other before inForce (second.attempt inForce)) := by
  intro before inForce
  rcases first.exists_directory_of_accepted asks accepted with
    ⟨active, path, started, named, absolute, same, fresh⟩
  have setting : inForce.setting = some ⟨active, .directory path⟩ := by
    rw [Logger.setting_after, started, Option.some_or]
  rcases second.attempt_of_active setting with ⟨accepts, unchanged⟩
  have taken : ToldApart (takenFor directory) (takenFor other) before inForce
      (second.attempt inForce) := by
    refine ⟨⟨active, path, by rw [Logger.status, setting]; rfl, same, ?_⟩, ?_, unchanged⟩
    · intro idle
      exact fresh (Option.map_eq_none_iff.mp idle)
    · rw [accepts, asksOther]
      constructor
      · rintro ⟨given, normalised, sameTarget, _⟩
        rw [Config.normalise_directory_eq_ok_iff] at normalised
        rw [normalised.2.2] at sameTarget
        exact same.symm.trans sameTarget
      · intro together
        refine ⟨⟨active, .directory (takenFor other)⟩, ?_, same.trans together, rfl⟩
        exact Config.normalise_directory_eq_ok_iff.mpr
          ⟨named, together.isAbsolute_iff.mp absolute, rfl⟩
  refine ⟨taken, ?_⟩
  intro plain plainOther
  rwa [plain.takenFor_eq, plainOther.takenFor_eq] at taken

section Instances

/-- A process whose files are those of an empty directory, and which has no logger yet. -/
def emptyHost : Host :=
  ⟨⟨.directory [], []⟩, true⟩

/-- Asks for a log directory at the level `info`. -/
def directoryRequest (directory : Path) : Request :=
  ⟨⟨"info", .directory directory⟩, emptyHost, Logger.prepare⟩

/-- After requests that come to nothing, a directory is accepted that is spelt otherwise than the
first one, and another one is not. -/
theorem toldApart_attempt_spellings :
    let earlier := [directoryRequest (.ofString "logs"), directoryRequest (.ofString " ")]
    let before := Logger.idle.after earlier
    let logs := Path.ofString "/logs/app"
    let inForce := ((directoryRequest logs).attempt before).logger
    ((directoryRequest logs).attempt before).refusal = none ∧
      (∃ level, inForce.status = some (level, .directory logs)) ∧
      ((directoryRequest (.ofString "/logs/.//app/")).attempt inForce).refusal = none ∧
      ((directoryRequest (.ofString "/logs/ap")).attempt inForce).refusal ≠ none := by
  intro earlier before logs inForce
  have accepted : ((directoryRequest logs).attempt before).refusal = none := by decide +kernel
  have plain : ∀ text, Text.trim text = text → IsPlain (.ofString text) :=
    fun text trimmed => ⟨text, trimmed, rfl⟩
  have isPlain : IsPlain logs := plain "/logs/app" (by decide +kernel)
  have spelt := (@toldApart_attempt earlier [] (directoryRequest logs)
    (directoryRequest (.ofString "/logs/.//app/")) "info" logs _ rfl rfl accepted).2
      isPlain (plain _ (by decide +kernel))
  have different := (@toldApart_attempt earlier [] (directoryRequest logs)
    (directoryRequest (.ofString "/logs/ap")) "info" logs _ rfl rfl accepted).2
      isPlain (plain _ (by decide +kernel))
  refine ⟨accepted, ?_, spelt.accepted.mpr (by decide +kernel), ?_⟩
  · rcases spelt.reported with ⟨level, active, status, _, fresh⟩
    rw [fresh (by decide +kernel)] at status
    exact ⟨level, status⟩
  · exact mt different.accepted.mp (by decide +kernel)

/-- Two directories without blanks around them that differ in a byte that is not part of a text are
taken for one another; and one with such a byte at its end is not the directory that is reported. -/
theorem not_forall_same_of_accepted :
    (¬ ∀ (level : String) (directory other : Path) (first second : Request),
      Text.trim directory.display = directory.display → Text.trim other.display = other.display →
      first.config = ⟨level, .directory directory⟩ →
      second.config = ⟨level, .directory other⟩ →
      (first.attempt .idle).refusal = none →
      (second.attempt (first.attempt .idle).logger).refusal = none → directory.Same other) ∧
    ¬ ∀ (level : String) (directory : Path) (request : Request),
      Text.trim directory.display = directory.display →
      request.config = ⟨level, .directory directory⟩ → (request.attempt .idle).refusal = none →
      ∃ active path, (request.attempt .idle).logger.status = some (active, .directory path) ∧
        path.Same directory := by
  constructor
  · intro always
    let directory : Path := ⟨Text.Utf8.encode "/tmp/".toList ++ [0xFF]⟩
    let other : Path := ⟨Text.Utf8.encode "/tmp/".toList ++ [0xFE]⟩
    have same := always "info" directory other (directoryRequest directory)
      (directoryRequest other) (by decide +kernel) (by decide +kernel) rfl rfl (by decide +kernel)
      (by decide +kernel)
    revert same
    decide +kernel
  · intro always
    let directory : Path := ⟨Text.Utf8.encode "/tmp/implementors".toList ++ [0xFF]⟩
    let request := directoryRequest directory
    have accepted : (request.attempt .idle).refusal = none := by decide +kernel
    rcases always "info" directory request (by decide +kernel) rfl accepted with
      ⟨active, path, reported, same⟩
    rcases request.exists_directory_of_accepted rfl accepted with ⟨_, _, started, _, _, _, fresh⟩
    have isTaken : takenFor directory = path := by
      rw [Logger.status, started, fresh rfl, Option.map_some, Option.some.injEq] at reported
      exact Target.directory.inj (congrArg Prod.snd reported)
    rw [← isTaken] at same
    revert same
    decide +kernel

end Instances

end TraitIndex.Logging
