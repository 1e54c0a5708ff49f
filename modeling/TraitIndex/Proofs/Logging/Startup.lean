import TraitIndex.Logging.Logger
import TraitIndex.Proofs.Logging.Setting

/-!
# Logging is started once

A process may be asked to start logging again and again.  Each time the target may or may not open,
for whatever reason: a directory cannot be created, or the backend does not start.  The first
request with a configuration that normalises and a target that opens settles what is in force for
good.  What carries the induction over the requests is that the setting in force after a request is
the one before it or, if there was none, the one that the request starts logging with.
-/

namespace TraitIndex.Logging

-- Unfolding a normalisation compares texts, which takes long and is not needed here.
attribute [local irreducible] Config.normalise

/-- A request to a process: what is asked for, on which host, and what opening its target does. -/
structure Request where
  config : Config
  host : Host
  opening : Opening

theorem Target.same_refl (target : Target) : target.Same target := by
  cases target with
  | stderr => trivial
  | directory path => exact Eq.refl path.components

/-- Holds of settings that do not conflict. -/
def Setting.Agrees (active given : Setting) : Prop :=
  active.target.Same given.target ∧ active.level = given.level

namespace Logger

variable {active given : Setting}

theorem conflict?_of_other_target (differs : ¬ active.target.Same given.target) :
    conflict? active given = some (.otherTarget active.target given.target) := by
  rw [conflict?, if_pos differs]

theorem conflict?_of_other_level (same : active.target.Same given.target)
    (differs : active.level ≠ given.level) :
    conflict? active given = some (.otherLevel active.level given.level) := by
  rw [conflict?, if_neg (not_not.mpr same), if_pos differs]

theorem conflict?_eq_none_iff : conflict? active given = none ↔ active.Agrees given := by
  by_cases target : active.target.Same given.target
  · by_cases level : active.level = given.level
    · simp [conflict?, Setting.Agrees, target, level]
    · simp [conflict?_of_other_level target level, Setting.Agrees, level]
  · simp [conflict?_of_other_target target, Setting.Agrees, target]

@[simp]
theorem setting_write (logger : Logger) (records : List Log.Record) :
    (logger.write records).setting = logger.setting := by
  rw [write]
  split <;> rfl

end Logger

def Setting.shown (setting : Setting) : Log.Level × Target :=
  (setting.level, setting.target)

namespace Request

def attempt (request : Request) (logger : Logger) : Attempt :=
  logger.initBy request.opening request.host request.config

/-- What keeps logging from starting with a setting, if anything does. -/
def obstacle? (request : Request) (setting : Setting) : Option Refusal :=
  (request.opening request.host setting.target).2

/-- The setting that the request starts logging with while nothing is in force: the one that its
configuration normalises to, if the target opens. -/
def starting? (request : Request) : Option Setting :=
  match request.config.normalise with
  | .error _ => none
  | .ok setting => if request.obstacle? setting = none then some setting else none

variable {request : Request} {logger : Logger} {active given : Setting} {refusal : Refusal}

theorem normalise_of_starting? (starts : request.starting? = some given) :
    request.config.normalise = .ok given := by
  rw [starting?] at starts
  cases normalised : request.config.normalise with
  | error refusal => simp [normalised] at starts
  | ok setting =>
      simp only [normalised, Option.ite_none_right_eq_some, Option.some.injEq] at starts
      rw [starts.2]

section Attempts

theorem attempt_of_refused (refused : request.config.normalise = .error refusal) :
    request.attempt logger = ⟨some refusal, logger, request.host⟩ := by
  simp only [attempt, Logger.initBy, refused]

theorem attempt_of_inForce (inForce : logger.setting = some active)
    (normalised : request.config.normalise = .ok given) :
    request.attempt logger = ⟨Logger.conflict? active given, logger, request.host⟩ := by
  simp only [attempt, Logger.initBy, normalised, inForce]

variable (idle : logger.setting = none) (normalised : request.config.normalise = .ok given)

include idle normalised

theorem attempt_of_obstacle (obstacle : request.obstacle? given = some refusal) :
    (request.attempt logger).refusal = some refusal ∧
      (request.attempt logger).logger = logger := by
  rcases opened : request.opening request.host given.target with ⟨host, found⟩
  rw [obstacle?, opened] at obstacle
  cases obstacle
  simp only [attempt, Logger.initBy, normalised, idle, opened, and_self]

theorem attempt_of_opening (opens : request.obstacle? given = none) :
    (request.attempt logger).refusal = none ∧
      (request.attempt logger).logger.setting = some given := by
  rcases opened : request.opening request.host given.target with ⟨host, found⟩
  rw [obstacle?, opened] at opens
  cases opens
  simp only [attempt, Logger.initBy, normalised, idle, opened, Logger.setting_write, and_self]

end Attempts

/-- While nothing is in force, a request is accepted if it starts logging, and then its setting is
in force; otherwise it changes nothing. -/
theorem attempt_of_idle (request : Request) (idle : logger.setting = none) :
    ((request.attempt logger).refusal = none ↔ request.starting?.isSome) ∧
      (request.attempt logger).logger.setting = request.starting? ∧
      (request.starting? = none → (request.attempt logger).logger = logger) := by
  cases normalised : request.config.normalise with
  | error refusal => simp [attempt_of_refused normalised, starting?, normalised, idle]
  | ok given =>
      cases obstacle : request.obstacle? given with
      | some refusal =>
          rcases attempt_of_obstacle idle normalised obstacle with ⟨refused, unchanged⟩
          simp [starting?, normalised, obstacle, refused, unchanged, idle]
      | none =>
          rcases attempt_of_opening idle normalised obstacle with ⟨accepted, inForce⟩
          simp [starting?, normalised, obstacle, accepted, inForce]

/-- Once a setting is in force, a request changes nothing.  It is accepted if it asks for a setting
that agrees with the one in force. -/
theorem attempt_of_active (request : Request) (inForce : logger.setting = some active) :
    ((request.attempt logger).refusal = none ↔
        ∃ given, request.config.normalise = .ok given ∧ active.Agrees given) ∧
      (request.attempt logger).logger = logger := by
  cases normalised : request.config.normalise with
  | error refusal => simp [attempt_of_refused normalised]
  | ok given => simp [attempt_of_inForce inForce normalised, Logger.conflict?_eq_none_iff]

/-- A refused request leaves the logger as it was. -/
theorem logger_attempt_of_refused (refused : (request.attempt logger).refusal ≠ none) :
    (request.attempt logger).logger = logger := by
  cases inForce : logger.setting with
  | some active => exact (request.attempt_of_active inForce).2
  | none =>
      rcases request.attempt_of_idle inForce with ⟨accepted, _, unchanged⟩
      have starts := mt accepted.mpr refused
      exact unchanged (Option.not_isSome_iff_eq_none.mp starts)

/-- What is in force stays in force; otherwise it is what the request starts logging with. -/
theorem setting_attempt (request : Request) (logger : Logger) :
    (request.attempt logger).logger.setting = logger.setting.or request.starting? := by
  cases inForce : logger.setting with
  | some active => rw [(request.attempt_of_active inForce).2, inForce, Option.some_or]
  | none => rw [(request.attempt_of_idle inForce).2.1, Option.none_or]

end Request

namespace Logger

/-- The logger after some requests. -/
def after (logger : Logger) : List Request → Logger
  | [] => logger
  | request :: requests => (request.attempt logger).logger.after requests

theorem after_append (logger : Logger) (earlier later : List Request) :
    logger.after (earlier ++ later) = (logger.after earlier).after later := by
  induction earlier generalizing logger with
  | nil => rfl
  | cons request earlier ih => rw [List.cons_append, after, after, ih]

/-- What is in force after some requests is what was in force before them or, if nothing was, what
the first of them to start logging starts it with. -/
theorem setting_after (logger : Logger) (requests : List Request) :
    (logger.after requests).setting =
      logger.setting.or (requests.findSome? Request.starting?) := by
  induction requests generalizing logger with
  | nil => simp [after]
  | cons request requests ih =>
      rw [after, ih, Request.setting_attempt, Option.or_assoc, List.findSome?_cons]
      cases request.starting? with
      | none => rfl
      | some setting => rfl

/-- The status of a fresh process after some requests is that of the first to start logging. -/
theorem status_after_idle (requests : List Request) :
    (idle.after requests).status = (requests.findSome? Request.starting?).map Setting.shown := by
  rw [status, setting_after]
  rfl

/-- Once there is a status, it stays. -/
theorem status_after_of_started {logger : Logger} (started : logger.status ≠ none)
    (requests : List Request) : (logger.after requests).status = logger.status := by
  cases inForce : logger.setting with
  | none => exact absurd (by rw [status, inForce]; rfl) started
  | some active => rw [status, status, setting_after, inForce, Option.some_or]

/-- What is in force was asked for, so it can be asked for again. -/
theorem attempt_again {requests : List Request} {active : Setting}
    (inForce : (idle.after requests).setting = some active) {request : Request}
    (asked : request.config = active.config) :
    (request.attempt (idle.after requests)).refusal = none ∧
      (request.attempt (idle.after requests)).logger = idle.after requests := by
  rcases request.attempt_of_active inForce with ⟨accepted, unchanged⟩
  refine ⟨accepted.mpr ⟨active, ?_, active.target.same_refl, rfl⟩, unchanged⟩
  rw [setting_after] at inForce
  rcases List.exists_of_findSome?_eq_some inForce with ⟨first, _, starts⟩
  rw [asked]
  exact Setting.normalise_config (Request.normalise_of_starting? starts)

theorem setting_of_status {logger : Logger} {level : Log.Level} {target : Target}
    (inForce : logger.status = some (level, target)) : logger.setting = some ⟨level, target⟩ := by
  rcases Option.map_eq_some_iff.mp inForce with ⟨setting, found, shown⟩
  cases shown
  exact found

end Logger

/-- What a fresh process makes of a request that comes after others. -/
structure StartedOnce (earlier : List Request) (request : Request) (before : Logger)
    (attempt : Attempt) : Prop where
  status : before.status = (earlier.findSome? Request.starting?).map Setting.shown
  waiting : before.status = none →
    (attempt.refusal = none ↔ request.starting?.isSome) ∧
      attempt.logger.status = request.starting?.map Setting.shown
  active : ∀ level target, before.status = some (level, target) →
    attempt.logger.status = some (level, target) ∧
      (attempt.refusal = none ↔
        ∃ given, request.config.normalise = .ok given ∧
          target.Same given.target ∧ level = given.level)
  permanent : ∀ later, before.status ≠ none →
    (Logger.idle.after (earlier ++ later)).status = before.status
  otherTarget : ∀ level target given, before.status = some (level, target) →
    request.config.normalise = .ok given → ¬ target.Same given.target →
      attempt.refusal = some (.otherTarget target given.target)
  otherLevel : ∀ level target given, before.status = some (level, target) →
    request.config.normalise = .ok given → target.Same given.target → level ≠ given.level →
      attempt.refusal = some (.otherLevel level given.level)
  levelRefused : ∀ refusal, normaliseLevel request.config.level = .error refusal →
    attempt.refusal = some refusal
  targetRefused : ∀ level refusal, normaliseLevel request.config.level = .ok level →
    normaliseTarget request.config.target = .error refusal → attempt.refusal = some refusal
  unchanged : attempt.refusal ≠ none → attempt.logger = before
  again : ∀ level target, before.status = some (level, target) → ∀ host opening,
    let repeated : Request := ⟨⟨level.name, target⟩, host, opening⟩
    (repeated.attempt before).refusal = none ∧ (repeated.attempt before).logger = before

/-- Whatever is asked of a fresh process, and whichever targets open, the first request that starts
logging settles the status for good.  Later requests are measured against it, and it can always be
asked for again. -/
theorem startedOnce_after (earlier : List Request) (request : Request) :
    let before := Logger.idle.after earlier
    StartedOnce earlier request before (request.attempt before) := by
  intro before
  have status : before.status = _ := Logger.status_after_idle earlier
  exact
    { status
      waiting := by
        intro waiting
        have idle : before.setting = none := Option.map_eq_none_iff.mp waiting
        rcases request.attempt_of_idle idle with ⟨accepted, inForce, _⟩
        refine ⟨accepted, ?_⟩
        rw [Logger.status, inForce]
        rfl
      active := by
        intro level target inForce
        rcases request.attempt_of_active (Logger.setting_of_status inForce) with
          ⟨accepted, unchanged⟩
        rw [unchanged]
        exact ⟨inForce, accepted⟩
      permanent := by
        intro later started
        rw [Logger.after_append]
        exact Logger.status_after_of_started started later
      otherTarget := by
        intro level target given inForce normalised differs
        rw [Request.attempt_of_inForce (Logger.setting_of_status inForce) normalised]
        exact Logger.conflict?_of_other_target differs
      otherLevel := by
        intro level target given inForce normalised same differs
        rw [Request.attempt_of_inForce (Logger.setting_of_status inForce) normalised]
        exact Logger.conflict?_of_other_level same differs
      levelRefused := by
        intro refusal refused
        rw [Request.attempt_of_refused (Config.normalise_of_level_refused refused)]
      targetRefused := by
        intro level refusal named refused
        rw [Request.attempt_of_refused (Config.normalise_of_target_refused named refused)]
      unchanged := Request.logger_attempt_of_refused
      again := by
        intro level target inForce host opening repeated
        exact Logger.attempt_again (Logger.setting_of_status inForce) rfl }

/-- An unknown level, a relative directory and a backend that is taken keep logging from starting.
The request after them starts it, with blanks around its texts and another name of its level; the
next one asks for another target and another level, and is told of the target. -/
theorem startedOnce_after_failures :
    let bare : FileSystem := ⟨.directory [], []⟩
    let free : Host := ⟨bare, true⟩
    let earlier : List Request :=
      [⟨⟨"loud", .stderr⟩, free, Logger.prepare⟩,
        ⟨⟨"info", .directory (.ofString "logs")⟩, free, Logger.prepare⟩,
        ⟨⟨"info", .stderr⟩, ⟨bare, false⟩, Logger.prepare⟩,
        ⟨⟨" WARNING ", .directory (.ofString " /logs//app ")⟩, free, Logger.prepare⟩]
    let before := Logger.idle.after earlier
    let logs : Target := .directory (.ofString "/logs//app")
    let other : Request := ⟨⟨"debug", .stderr⟩, free, Logger.prepare⟩
    before.status = some (.warn, logs) ∧
      (other.attempt before).refusal = some (.otherTarget logs .stderr) ∧
      (other.attempt before).logger = before := by
  intro bare free earlier before logs other
  have once := startedOnce_after earlier other
  have status : before.status = some (.warn, logs) := by
    rw [once.status]
    decide +kernel
  have refused := once.otherTarget .warn logs ⟨.debug, .stderr⟩ status (by decide +kernel) id
  refine ⟨status, refused, once.unchanged ?_⟩
  rw [refused]
  exact Option.some_ne_none _

end TraitIndex.Logging
