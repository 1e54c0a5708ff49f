import Mathlib.Algebra.Order.BigOperators.Group.Finset
import TraitIndex.Proofs.Loading.Pass

/-!
# The accounts of a pass

Whatever the consumer does, a finished pass accounts for every script.  A script is in the chunk of
one worker, and a worker takes all of its chunk unless the consumer fails on what it submits; then
nothing of its chunk counts as submitted, also if some of it was accepted before.  When the consumer
fails on nothing, the registry takes in what can be loaded of the scripts and the summary says how
much that is, however many workers there are and however they take turns.
-/

namespace TraitIndex.Loading

variable {κ ω : Type}

/-- What holds of a finished pass in which no consumer fails. -/
structure SteadyAccounts (loader : Loader) (scripts : List Path) (parts : List (List Path))
    (start : Pass κ ω) (taken : Schedule Nat Path) (turns : List (Registry.Turn κ ω))
    (result : Result κ ω) : Prop where
  /-- What is loaded of a chunk is submitted in the order of the chunk. -/
  interleaves : (loader.loadedBy taken).Interleaves fun position =>
    loader.loaded (parts.getD position [])
  /-- All that can be loaded of the scripts is submitted, each script's fragment once. -/
  perm : ((loader.loadedBy taken).map Prod.snd).Perm (loader.loaded scripts)
  accepted : ∀ turn ∈ turns, turn.outcome.isAccepted = true
  count : result.registry.count = start.registry.count + (loader.loaded scripts).length
  summary : result.summary =
    ⟨(loader.loaded scripts).length, scripts.length - (loader.loaded scripts).length⟩

/-- What holds of a finished pass over some scripts, when `parts` are the chunks of the workers,
`taken` is what they take and `turns` is what the registry does. -/
structure Accounts [Consumer κ ω] (loader : Loader) (scripts : List Path)
    (parts : List (List Path)) (start finish : Pass κ ω) (taken : Schedule Nat Path)
    (turns : List (Registry.Turn κ ω)) (result : Result κ ω) : Prop where
  /-- Each script is in the chunk of one worker. -/
  shared : parts.flatten = scripts
  workers : finish.workers.length = parts.length
  /-- A worker takes scripts of its own chunk only, in order. -/
  took : ∀ position, taken.of position ++ (finish.worker position).waiting = parts.getD position []
  /-- A worker that does not stop takes its whole chunk. -/
  through : ∀ position, (finish.worker position).stopped = false →
    taken.of position = parts.getD position []
  /-- A worker stops when the consumer fails on what it submits, and then only. -/
  stopped : ∀ position, (finish.worker position).stopped = true ↔
    ∃ turn ∈ (start.replies loader taken).of position, turn.outcome = .failed
  /-- What the workers do to the registry is to submit what they load. -/
  made : turns =
    start.registry.turns start.world (((loader.loadedBy taken).map Prod.snd).map .submit)
  registry : result.registry = Registry.registryAfter start.registry turns
  world : result.world = Registry.worldAfter start.world turns
  /-- Nothing that is loaded is refused. -/
  unrefused : ∀ turn ∈ turns, turn.outcome.isAccepted = true ∨ turn.outcome = .failed
  /-- What is submitted is handed over in order or waits in order, and nothing else is. -/
  gained : Registry.handed turns ++ result.registry.pending =
    start.registry.pending ++ (loader.loadedBy taken).map Prod.snd
  count : result.registry.count = start.registry.count + Registry.acceptances turns
  /-- A worker that stops accounts for nothing, any other for what can be loaded of its chunk. -/
  submitted : result.summary.submitted = ∑ position ∈ Finset.range parts.length,
    if (finish.worker position).stopped then 0
    else (loader.loaded (parts.getD position [])).length
  bounded : result.summary.submitted ≤ Registry.acceptances turns
  balanced : result.summary.submitted + result.summary.failed = scripts.length
  steady : finish.Steady → SteadyAccounts loader scripts parts start taken turns result

theorem sum_length_getD {α : Type} (parts : List (List α)) :
    ∑ position ∈ Finset.range parts.length, (parts.getD position []).length =
      parts.flatten.length := by
  induction parts with
  | nil => rfl
  | cons part parts ih =>
      simp only [List.length_cons, Finset.sum_range_succ', List.getD_cons_succ,
        List.getD_cons_zero, ih, List.flatten_cons, List.length_append, Nat.add_comm]

theorem Pass.Finished.waiting_eq_nil {pass : Pass κ ω} (finished : pass.Finished) {position : Nat}
    (running : (pass.worker position).stopped = false) : (pass.worker position).waiting = [] := by
  rcases worker_mem_or_eq_start pass position with listed | nothing
  · rcases finished _ listed with stopped | through
    · rw [stopped] at running
      cases running
    · exact through
  · rw [nothing]
    rfl

section Submits

variable [Consumer κ ω] {loader : Loader} {before after : Pass κ ω} {paths : List Path}

theorem Submits.gained (submits : Submits loader before paths after) (sound : loader.Sound) :
    Registry.handed (before.submitAll loader paths) ++ after.registry.pending =
      before.registry.pending ++ loader.loaded paths := by
  have conserved := Registry.handed_append_pending before.registry before.world
    ((loader.loaded paths).map .submit)
  rw [Registry.accepted, Registry.submissions_map_submit, sound.filter_loaded] at conserved
  rw [submits.registry]
  exact conserved

theorem Submits.count (submits : Submits loader before paths after) :
    after.registry.count =
      before.registry.count + Registry.acceptances (before.submitAll loader paths) := by
  rw [submits.registry]
  exact Registry.count_turns_submit before.registry before.world (loader.loaded paths)

end Submits

section Start

variable [Consumer κ ω] {loader : Loader} (sound : loader.Sound) (limit : Nat) (scripts : List Path)
  (registry : Registry κ) (world : ω) (schedule : List Nat)

include sound

theorem took_start (position : Nat) :
    let start := Pass.start limit scripts registry world
    Worker.Took loader (.start ((chunks limit scripts).getD position []))
      ((start.taken loader schedule).of position)
      ((start.replies loader (start.taken loader schedule)).of position)
      ((start.run loader schedule).worker position) := by
  intro start
  rw [← worker_start limit scripts registry world]
  exact took_run sound start schedule position

theorem stopped_iff (position : Nat) :
    let start := Pass.start limit scripts registry world
    ((start.run loader schedule).worker position).stopped = true ↔
      ∃ turn ∈ (start.replies loader (start.taken loader schedule)).of position,
        turn.outcome = .failed := by
  have stops := (took_start sound limit scripts registry world schedule position).stopped
  rw [Worker.start, Bool.false_or] at stops
  simp only [stops, List.any_eq_true, decide_eq_true_eq]

theorem length_workers_run_start :
    ((Pass.start limit scripts registry world).run loader schedule).workers.length =
      (chunks limit scripts).length := by
  rw [length_workers_run sound, Pass.start, List.length_map]

theorem credits_le_acceptances :
    let start := Pass.start limit scripts registry world
    credits (start.run loader schedule).workers ≤
      Registry.acceptances
        (start.submitAll loader ((start.taken loader schedule).map Prod.snd)) := by
  intro start
  have counted := total_submitted_run sound start schedule
  have none : total Worker.submitted start.workers = 0 := total_submitted_start _
  rw [none, Nat.zero_add] at counted
  rw [← counted]
  exact credits_le_submitted _

variable {limit scripts registry world schedule}
  (finished : ((Pass.start limit scripts registry world).run loader schedule).Finished)

include finished

theorem taken_of_running {position : Nat}
    (running : (((Pass.start limit scripts registry world).run loader schedule).worker
      position).stopped = false) :
    ((Pass.start limit scripts registry world).taken loader schedule).of position =
      (chunks limit scripts).getD position [] := by
  have took := (took_start sound limit scripts registry world schedule position).waiting
  rw [finished.waiting_eq_nil running, List.append_nil] at took
  exact took.symm

theorem credit_finished (position : Nat) :
    let finish := (Pass.start limit scripts registry world).run loader schedule
    (finish.worker position).credit =
      if (finish.worker position).stopped then 0
      else (loader.loaded ((chunks limit scripts).getD position [])).length := by
  intro finish
  have tally := (took_start sound limit scripts registry world schedule position).tally
  cases stopped : (finish.worker position).stopped with
  | true => simp [Worker.credit, stopped]
  | false =>
      rw [taken_of_running sound finished stopped] at tally
      simpa [Worker.credit, Worker.tally, Worker.start, finish, stopped] using tally

theorem credits_finished :
    let finish := (Pass.start limit scripts registry world).run loader schedule
    credits finish.workers = ∑ position ∈ Finset.range (chunks limit scripts).length,
      if (finish.worker position).stopped then 0
      else (loader.loaded ((chunks limit scripts).getD position [])).length := by
  intro finish
  have summed := total_eq_sum Worker.credit finish.workers
  rw [length_workers_run_start sound] at summed
  refine summed.trans (Finset.sum_congr rfl ?_)
  intro position _
  exact credit_finished sound finished position

theorem credits_le_scripts :
    credits ((Pass.start limit scripts registry world).run loader schedule).workers ≤
      scripts.length := by
  have whole := sum_length_getD (chunks limit scripts)
  rw [flatten_chunks] at whole
  rw [credits_finished sound finished, ← whole]
  apply Finset.sum_le_sum
  intro position _
  split
  · exact Nat.zero_le _
  · exact List.length_filterMap_le _ _

theorem suffices_of_steady
    (steady : ((Pass.start limit scripts registry world).run loader schedule).Steady) :
    Suffices (chunks limit scripts) schedule := by
  have running := running_run sound (running_start limit scripts registry world) steady
  intro position
  rw [← taken_of_running sound finished (running.stopped_worker position)]
  exact length_of_taken_le loader _ schedule position

theorem taken_perm
    (steady : ((Pass.start limit scripts registry world).run loader schedule).Steady) :
    (((Pass.start limit scripts registry world).taken loader schedule).map Prod.snd).Perm
      scripts := by
  have enough := suffices_of_steady sound finished steady
  have all := map_snd_moves_perm enough
  rw [taken_eq_moves sound (running_start limit scripts registry world) steady, map_waiting_start]
  rwa [flatten_chunks] at all

end Start

section Load

variable [Consumer κ ω] {loader : Loader} (sound : loader.Sound) {scheduler : Scheduler}
  {limit : Nat} {scripts : List Path} {registry : Registry κ} {world : ω}
  (finished : ((Pass.start limit scripts registry world).run loader
    (scheduler (chunks limit scripts))).Finished)

include sound finished

theorem steadyAccounts_loadBy
    (steady : ((Pass.start limit scripts registry world).run loader
      (scheduler (chunks limit scripts))).Steady) :
    let start := Pass.start limit scripts registry world
    let taken := start.taken loader (scheduler (chunks limit scripts))
    SteadyAccounts loader scripts (chunks limit scripts) start taken
      (start.submitAll loader (taken.map Prod.snd))
      (loadBy scheduler loader limit scripts registry world) := by
  intro start taken
  have began := running_start limit scripts registry world
  have running := running_run sound began steady
  have perm : (loader.loaded (taken.map Prod.snd)).Perm (loader.loaded scripts) :=
    (taken_perm sound finished steady).filterMap _
  have submits := submits_run sound start (scheduler (chunks limit scripts))
  have accepted := submits.isAccepted sound steady
  have counted := credits_run sound began steady
  rw [credits_start, Nat.zero_add, perm.length_eq] at counted
  constructor
  · intro position
    rw [loader.of_loadedBy,
      taken_of_running sound finished (running.stopped_worker position)]
  · rw [loader.map_snd_loadedBy]
    exact perm
  · exact accepted
  · have all : Registry.acceptances (start.submitAll loader (taken.map Prod.snd)) =
        (loader.loaded scripts).length := by
      rw [Registry.acceptances, List.countP_eq_length.mpr accepted, length_submitAll,
        perm.length_eq]
    rw [← all]
    exact submits.count
  · simp only [loadBy, Pass.summary]
    rw [counted]

end Load

/-- Every finished pass accounts for its scripts. -/
theorem accounts_loadBy [Consumer κ ω] (scheduler : Scheduler) (files : FileSystem) (root : Path)
    (limit : Nat) (scripts : List Path) (registry : Registry κ) (world : ω)
    (finished : ((Pass.start limit scripts registry world).run (Script.load files root)
      (scheduler (chunks limit scripts))).Finished) :
    let loader : Loader := Script.load files root
    let parts := chunks limit scripts
    let start := Pass.start limit scripts registry world
    let finish := start.run loader (scheduler parts)
    let taken := start.taken loader (scheduler parts)
    let turns := start.submitAll loader (taken.map Prod.snd)
    Accounts loader scripts parts start finish taken turns
      (loadBy scheduler loader limit scripts registry world) := by
  intro loader parts start finish taken turns
  have sound : loader.Sound := sound_load files root
  have submits : Submits loader start (taken.map Prod.snd) finish :=
    submits_run sound start (scheduler parts)
  have bounded : credits finish.workers ≤ scripts.length := credits_le_scripts sound finished
  exact
    { shared := flatten_chunks limit scripts
      workers := length_workers_run_start sound limit scripts registry world _
      took := by
        intro position
        have took := took_start sound limit scripts registry world (scheduler parts) position
        exact took.waiting.symm
      through := by
        intro position running
        exact taken_of_running sound finished running
      stopped := stopped_iff sound limit scripts registry world (scheduler parts)
      made := by
        rw [loader.map_snd_loadedBy]
        rfl
      registry := submits.registry
      world := submits.world
      unrefused := by
        intro turn mem
        exact Registry.accepted_or_failed_of_mem_turns sound.wellFormed_of_mem_loaded mem
      gained := by
        rw [loader.map_snd_loadedBy]
        exact submits.gained sound
      count := submits.count
      submitted := credits_finished sound finished
      bounded := credits_le_acceptances sound limit scripts registry world (scheduler parts)
      balanced := Nat.add_sub_of_le bounded
      steady := steadyAccounts_loadBy sound finished }

/-- A directory with two scripts. -/
def twoScripts : FileSystem :=
  ⟨.directory
    ([("A.js", "var implementors = \x7b\"s\":[\"x\"]\x7d;"),
      ("B.js", "var implementors = \x7b\"s\":[\"y\"]\x7d;")].map fun script =>
        (Text.Utf8.encode script.1.toList, .file (Text.Utf8.encode script.2.toList))), []⟩

/-- Four scripts to load, one of which is missing. -/
def fourPaths : List Path :=
  ["A.js", "B.js", "C.js", "A.js"].map fun path => ⟨Text.Utf8.encode path.toList⟩

/-- The worker of the first chunk is stopped by its second script, and the other one goes on. -/
theorem accounts_loadBy_stopped :
    let loader : Loader := Script.load twoScripts ⟨[]⟩
    let registry : Registry ShelfConsumer := .attached (.recorder "received" (.atCall 2) 0) 0
    let start := Pass.start 2 fourPaths registry Shelf.empty
    let schedule := oneByOne (chunks 2 fourPaths)
    let finish := start.run loader schedule
    let taken := start.taken loader schedule
    let result := loadBy oneByOne loader 2 fourPaths registry Shelf.empty
    finish.Finished ∧
      Accounts loader fourPaths (chunks 2 fourPaths) start finish taken
        (start.submitAll loader (taken.map Prod.snd)) result ∧
      result.summary = ⟨1, 3⟩ ∧ result.registry.count = 2 := by
  intro loader registry start schedule finish taken result
  have finished : finish.Finished :=
    finished_of_complete (sound_load twoScripts ⟨[]⟩) complete_oneByOne 2 fourPaths registry
      Shelf.empty
  refine ⟨finished, ?_, ?_, ?_⟩
  · exact accounts_loadBy oneByOne twoScripts ⟨[]⟩ 2 fourPaths registry Shelf.empty finished
  · decide +kernel
  · decide +kernel

end TraitIndex.Loading
