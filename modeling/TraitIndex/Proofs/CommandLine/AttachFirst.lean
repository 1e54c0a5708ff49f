import TraitIndex.Proofs.CommandLine.Ending
import TraitIndex.Proofs.Registry.Position

/-!
# Attaching first or last

Two runs with the same submissions, one of which attaches a consumer earlier than the other, cannot
be told apart afterwards, unless the consumer fails.  For the program this means that it prints the
same in both modes.
-/

namespace TraitIndex.CommandLine

open Loading

section Modes

variable (environment : Environment) (arguments : Arguments) (mode : Bool)

@[simp]
theorem startLogging_mode :
    startLogging environment { arguments with attachFirst := mode } =
      startLogging environment arguments :=
  rfl

@[simp]
theorem logged_mode :
    logged environment { arguments with attachFirst := mode } = logged environment arguments := by
  simp only [logged, startLogging_mode]

end Modes

/-- Holds of two schedulers by which a run submits the same in the same order. -/
def SameSubmissions (first second : Scheduler) (environment : Environment)
    (arguments : Arguments) : Prop :=
  ∀ scripts,
    Script.discover (logged environment arguments).files arguments.root = .ok scripts →
      submissions first (logged environment arguments) arguments scripts =
        submissions second (logged environment arguments) arguments scripts

section Reports

variable {environment : Environment} {arguments : Arguments}

/-- What a run in a mode comes to that finds scripts; the mode has no part in it. -/
theorem runBy_mode_of_discovered (scheduler : Scheduler) (mode : Bool)
    (started : (startLogging environment arguments).refusal = none) {scripts : List Path}
    (discovered : Script.discover (logged environment arguments).files arguments.root =
      .ok scripts) :
    let fragments := submissions scheduler (logged environment arguments) arguments scripts
    let report := runBy scheduler environment { arguments with attachFirst := mode }
    report.code = (if scripts.length - fragments.length = 0 then 0 else 1) ∧
      report.output = printed arguments (merged arguments fragments) := by
  have ends := @runBy_of_discovered scheduler environment { arguments with attachFirst := mode }
    (by simpa using started) scripts (by simpa using discovered)
  simp only [logged_mode] at ends
  exact ends

/-- A run in a mode that is given up; the mode has no part in it either. -/
theorem runBy_mode_of_given_up (scheduler : Scheduler) (mode : Bool)
    (givenUp : (startLogging environment arguments).refusal = none →
      ∃ error, Script.discover (logged environment arguments).files arguments.root =
        .error error) :
    let report := runBy scheduler environment { arguments with attachFirst := mode }
    report.code = 2 ∧ report.output = "" := by
  cases started : (startLogging environment arguments).refusal with
  | some refusal =>
      apply runBy_of_refused
      rw [startLogging_mode]
      exact started
  | none =>
      rcases givenUp started with ⟨error, nowhere⟩
      apply runBy_of_not_discovered
      · rw [startLogging_mode]
        exact started
      · rw [logged_mode]
        exact nowhere

theorem runBy_modes_eq {first second : Scheduler}
    (same : SameSubmissions first second environment arguments) :
    let early := runBy first environment { arguments with attachFirst := true }
    let late := runBy second environment { arguments with attachFirst := false }
    early.output = late.output ∧ early.code = late.code := by
  intro early late
  by_cases goesOn : (startLogging environment arguments).refusal = none ∧
      ∃ scripts, Script.discover (logged environment arguments).files arguments.root = .ok scripts
  · rcases goesOn with ⟨started, scripts, discovered⟩
    rcases runBy_mode_of_discovered first true started discovered with ⟨earlyCode, earlyOutput⟩
    rcases runBy_mode_of_discovered second false started discovered with ⟨lateCode, lateOutput⟩
    rw [same scripts discovered] at earlyCode earlyOutput
    exact ⟨earlyOutput.trans lateOutput.symm, earlyCode.trans lateCode.symm⟩
  · have givenUp : (startLogging environment arguments).refusal = none →
        ∃ error, Script.discover (logged environment arguments).files arguments.root =
          .error error := by
      intro started
      cases found : Script.discover (logged environment arguments).files arguments.root with
      | error error => exact ⟨error, rfl⟩
      | ok scripts => exact absurd ⟨started, scripts, found⟩ goesOn
    rcases runBy_mode_of_given_up first true givenUp with ⟨earlyCode, earlyOutput⟩
    rcases runBy_mode_of_given_up second false givenUp with ⟨lateCode, lateOutput⟩
    exact ⟨earlyOutput.trans lateOutput.symm, earlyCode.trans lateCode.symm⟩

end Reports

/-- It makes no difference where among some submissions a consumer attaches that never fails.  So a
run of the program prints the same in both modes, if the same is submitted in the same order. -/
theorem attachment_anywhere :
    (∀ (ι κ ω : Type) [DecidableEq ι] [Consumer κ ω] (consumer : κ),
      Consumer.NeverFails consumer →
        ∀ (name : ι) (journal : Journal ι ω) (fragments : List Fragment) (early late : Nat),
          Registry.SameEnd name journal
            (Registry.attachedAt early fragments (⟨name, consumer⟩ : Named ι κ))
            (Registry.attachedAt late fragments ⟨name, consumer⟩)) ∧
    ∀ (environment : Environment) (arguments : Arguments) (first second : Scheduler),
      SameSubmissions first second environment arguments →
        let early := runBy first environment { arguments with attachFirst := true }
        let late := runBy second environment { arguments with attachFirst := false }
        early.output = late.output ∧ early.code = late.code := by
  constructor
  · intro ι κ ω _ _ consumer steady name journal fragments early late
    exact Registry.sameEnd_attachedAt name journal steady fragments early late
  · intro environment arguments first second same
    exact runBy_modes_eq same

/-- Two good fragments with a malformed one between them. -/
def mixedFragments : List Fragment :=
  [⟨none, [⟨"s", [⟨"x"⟩]⟩]⟩, ⟨none, [⟨" ", []⟩]⟩, ⟨some "m", [⟨"s", [⟨"y"⟩]⟩]⟩]

/-- Wastes a turn on a worker that does not exist. -/
def wasteful : Scheduler :=
  fun chunks => chunks.length :: backwards chunks

theorem sameSubmissions_wasteful : SameSubmissions wasteful backwards twoCores plainText := by
  intro scripts discovered
  rw [logged_twoCores] at discovered ⊢
  rw [discover_threeScripts] at discovered
  cases discovered
  decide +kernel

theorem attachment_anywhere_mixed :
    let recorder := ShelfConsumer.recorder "list" .never 0
    let early := runBy wasteful twoCores { plainText with attachFirst := true }
    let late := runBy backwards twoCores { plainText with attachFirst := false }
    Consumer.NeverFails recorder ∧
      Registry.SameEnd "recorder" (Journal.opened Shelf.empty)
        (Registry.attachedAt 0 mixedFragments ⟨"recorder", recorder⟩)
        (Registry.attachedAt 2 mixedFragments ⟨"recorder", recorder⟩) ∧
      SameSubmissions wasteful backwards twoCores plainText ∧
      early.output = late.output ∧ early.code = late.code := by
  intro recorder early late
  have steady : Consumer.NeverFails recorder := ShelfConsumer.neverFails_recorder "list" 0
  rcases attachment_anywhere with ⟨anywhere, modes⟩
  exact ⟨steady, anywhere _ _ _ recorder steady "recorder" (Journal.opened Shelf.empty)
    mixedFragments 0 2, sameSubmissions_wasteful,
    modes twoCores plainText wasteful backwards sameSubmissions_wasteful⟩

end TraitIndex.CommandLine
