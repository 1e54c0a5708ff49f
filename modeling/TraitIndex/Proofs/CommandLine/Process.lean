import TraitIndex.CommandLine.Run
import TraitIndex.Proofs.Loading.Pass
import TraitIndex.Proofs.Shelf

/-!
# The part of a run behind the start of logging

The two modes of a run differ in when the index is attached: before the pass, or after it, when
everything that was loaded waits.  Neither attachment is refused, as the registry is fresh, and what
is on the shelf in the end is the same in both: the index into which all was folded that was
submitted.
-/

namespace TraitIndex.CommandLine

open Loading

def scriptLoader (environment : Environment) (arguments : Arguments) : Loader :=
  Script.load environment.files arguments.root

/-- What a run submits that found the given scripts, in the order of the submissions. -/
def submissions (scheduler : Scheduler) (environment : Environment) (arguments : Arguments)
    (scripts : List Path) : List Fragment :=
  (scriptLoader environment arguments).loaded (order scheduler environment.cores scripts)

/-- The index of a run in which the given fragments were submitted. -/
def merged (arguments : Arguments) (fragments : List Fragment) : Index :=
  (Index.empty arguments.merge).applyAll fragments

/-- The environment of a run once logging was started. -/
def logged (environment : Environment) (arguments : Arguments) : Environment :=
  let attempt := startLogging environment arguments
  { environment with files := attempt.logger.saveRecords [] attempt.host.files }

/-- Logging does not depend on what is printed in the end. -/
theorem startLogging_json (environment : Environment) (arguments : Arguments) (json : Bool) :
    startLogging environment { arguments with json := json } =
      startLogging environment arguments := rfl

theorem logged_json (environment : Environment) (arguments : Arguments) (json : Bool) :
    logged environment { arguments with json := json } = logged environment arguments := by
  rw [logged, logged, startLogging_json]

theorem sound_scriptLoader (environment : Environment) (arguments : Arguments) :
    (scriptLoader environment arguments).Sound :=
  sound_load environment.files arguments.root

theorem attachEarly_fresh {arguments : Arguments} (mode : arguments.attachFirst = true)
    (shelf : Shelf) :
    Progress.attachEarly arguments ⟨none, shelf, []⟩ =
      .ok ⟨some (.attached (.index indexName) 0), shelf,
        [Registry.Notice.created, .consumerAttached 0].map Registry.Notice.record⟩ := by
  rw [Progress.attachEarly, if_pos mode]
  rfl

theorem attachLate_of_attached {arguments : Arguments} (mode : arguments.attachFirst = false)
    {registry : Registry ShelfConsumer} {shelf : Shelf} {flushed : Nat}
    (attaches : (registry.attach shelf (.index indexName)).outcome = .attached flushed)
    (records : List Log.Record) :
    let attachment := registry.attach shelf (.index indexName)
    Progress.attachLate arguments ⟨some registry, shelf, records⟩ =
      .ok ⟨some attachment.registry, attachment.world,
        records ++ attachment.notices.map Registry.Notice.record ++ [indexAttached flushed]⟩ := by
  simp [Progress.attachLate, mode, Progress.attach, Registry.Shared.use, attaches]

/-- When scripts are found, what was submitted is printed and counted, in both modes. -/
theorem process_of_discovered (scheduler : Scheduler) {environment : Environment}
    {arguments : Arguments} {scripts : List Path}
    (discovered : Script.discover environment.files arguments.root = .ok scripts) :
    let fragments := submissions scheduler environment arguments scripts
    (process scheduler environment arguments).2 =
      .ok (printed arguments (merged arguments fragments),
        ⟨fragments.length, scripts.length - fragments.length⟩) := by
  intro fragments
  have sound := sound_load environment.files arguments.root
  have steady := ShelfConsumer.neverFails_index indexName
  have index := Registry.index?_deliver
    (Shelf.index?_openIndex_empty indexName arguments.merge) fragments
  cases mode : arguments.attachFirst with
  | true =>
      rcases loadBy_attached steady scheduler sound environment.cores scripts
        (Shelf.empty.openIndex indexName arguments.merge) with ⟨world, summary⟩
      simp only [process, attachEarly_fresh mode, discovered, Progress.load, Registry.Shared.use,
        Progress.attachLate, mode, if_true, world, summary]
      rw [← scriptLoader, ← submissions, index]
      rfl
  | false =>
      rcases attach_loadBy steady scheduler sound environment.cores scripts
        (Shelf.empty.openIndex indexName arguments.merge) with ⟨attaches, world⟩
      rcases loadBy_unattached (κ := ShelfConsumer) scheduler sound environment.cores scripts
        (Shelf.empty.openIndex indexName arguments.merge) with ⟨_, _, summary⟩
      simp only [process, Progress.attachEarly, mode, Bool.false_eq_true, if_false, discovered,
        Progress.load, Registry.Shared.use, attachLate_of_attached mode attaches, world, summary]
      rw [← scriptLoader, ← submissions, index]
      rfl

theorem process_of_not_discovered (scheduler : Scheduler) {environment : Environment}
    {arguments : Arguments} {error : Script.LoadError}
    (nowhere : Script.discover environment.files arguments.root = .error error) :
    (process scheduler environment arguments).2 = .error error.message := by
  cases mode : arguments.attachFirst with
  | true => simp only [process, attachEarly_fresh mode, nowhere]
  | false =>
      simp only [process, Progress.attachEarly, mode, Bool.false_eq_true, if_false, nowhere]

section Reports

variable (scheduler : Scheduler) {environment : Environment} {arguments : Arguments}

theorem runBy_of_refused {refusal : Logging.Refusal}
    (refused : (startLogging environment arguments).refusal = some refusal) :
    (runBy scheduler environment arguments).code = 2 ∧
      (runBy scheduler environment arguments).output = "" := by
  rcases attempt : startLogging environment arguments with ⟨verdict, logger, host⟩
  rw [attempt] at refused
  subst refused
  unfold runBy
  simp only [attempt, and_self]

/-- Once logging was started, a run ends as its processing does. -/
theorem runBy_of_started (started : (startLogging environment arguments).refusal = none) :
    let report := runBy scheduler environment arguments
    match (process scheduler (logged environment arguments) arguments).2 with
    | .error _ => report.code = 2 ∧ report.output = ""
    | .ok (output, summary) =>
        report.code = (if summary.failed = 0 then 0 else 1) ∧ report.output = output := by
  rcases attempt : startLogging environment arguments with ⟨verdict, logger, host⟩
  rw [attempt] at started
  subst started
  unfold runBy
  simp only [logged, attempt]
  rcases process scheduler _ arguments with ⟨records, message | ⟨output, summary⟩⟩
  · exact ⟨rfl, rfl⟩
  · exact ⟨rfl, rfl⟩

theorem runBy_of_not_discovered (started : (startLogging environment arguments).refusal = none)
    {error : Script.LoadError}
    (nowhere : Script.discover (logged environment arguments).files arguments.root =
      .error error) :
    (runBy scheduler environment arguments).code = 2 ∧
      (runBy scheduler environment arguments).output = "" := by
  have ends := runBy_of_started scheduler started
  rwa [process_of_not_discovered scheduler nowhere] at ends

theorem runBy_of_discovered (started : (startLogging environment arguments).refusal = none)
    {scripts : List Path}
    (discovered : Script.discover (logged environment arguments).files arguments.root =
      .ok scripts) :
    let fragments := submissions scheduler (logged environment arguments) arguments scripts
    let report := runBy scheduler environment arguments
    report.code = (if scripts.length - fragments.length = 0 then 0 else 1) ∧
      report.output = printed arguments (merged arguments fragments) := by
  have ends := runBy_of_started scheduler started
  rwa [process_of_discovered scheduler discovered] at ends

end Reports

end TraitIndex.CommandLine
