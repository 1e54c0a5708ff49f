import Mathlib.Data.List.GetD
import TraitIndex.Proofs.Loading.Loaded
import TraitIndex.Proofs.Registry.Submissions
import TraitIndex.Proofs.Schedule

/-!
# What the workers of a pass take

A worker takes a script in its turn unless it has stopped or has none left.  Taking a script means
to submit what is loaded of it, which is one fragment or none; so a pass is a run of the registry on
what is loaded of the scripts, in the order in which they are taken.  Each worker goes through its
own scripts in their order, and it stops when the consumer fails on what it submitted.
-/

namespace TraitIndex.Loading

variable {κ ω : Type}

/-- The worker at a position; where there is none, one with nothing to do. -/
def Pass.worker (pass : Pass κ ω) (position : Nat) : Worker :=
  pass.workers.getD position (.start [])

/-- The script that the worker at a position takes in its turn, if it takes one. -/
def Pass.next? (pass : Pass κ ω) (position : Nat) : Option Path :=
  match pass.worker position with
  | ⟨path :: _, _, false⟩ => some path
  | _ => none

/-- The number of fragments that a worker has submitted, with the one that stopped it. -/
def Worker.tally (worker : Worker) : Nat :=
  worker.submitted + if worker.stopped then 1 else 0

/-- Holds of a worker before and after it takes some scripts, when the registry makes the given
turns of what is loaded of them. -/
structure Worker.Took (loader : Loader) (before : Worker) (paths : List Path)
    (turns : List (Registry.Turn κ ω)) (after : Worker) : Prop where
  waiting : before.waiting = paths ++ after.waiting
  tally : after.tally = before.tally + (loader.loaded paths).length
  stopped : after.stopped = (before.stopped || turns.any fun turn => turn.outcome = .failed)

theorem worker_of_getElem? {pass : Pass κ ω} {position : Nat} {worker : Worker}
    (found : pass.workers[position]? = some worker) : pass.worker position = worker := by
  rw [Pass.worker, List.getD_eq_getElem?_getD, found, Option.getD_some]

/-- At a position there is one of the workers, or nothing is to be done. -/
theorem worker_mem_or_eq_start (pass : Pass κ ω) (position : Nat) :
    pass.worker position ∈ pass.workers ∨ pass.worker position = .start [] := by
  rcases found : pass.workers[position]? with _ | worker
  · right
    rw [Pass.worker, List.getD_eq_getElem?_getD, found, Option.getD_none]
  · left
    rw [worker_of_getElem? found]
    exact List.mem_of_getElem? found

theorem waiting_worker (pass : Pass κ ω) (position : Nat) :
    (pass.worker position).waiting = (pass.workers.map Worker.waiting).getD position [] :=
  (List.getD_map _ _ Worker.waiting).symm

theorem worker_start (limit : Nat) (scripts : List Path) (registry : Registry κ) (world : ω)
    (position : Nat) :
    (Pass.start limit scripts registry world).worker position =
      .start ((chunks limit scripts).getD position []) :=
  List.getD_map _ _ Worker.start

theorem stopped_or_waiting_eq_nil {pass : Pass κ ω} {position : Nat}
    (idle : pass.next? position = none) :
    (pass.worker position).stopped = true ∨ (pass.worker position).waiting = [] := by
  rcases worker : pass.worker position with ⟨waiting, submitted, stopped⟩
  cases stopped with
  | true => exact .inl rfl
  | false =>
      cases waiting with
      | nil => exact .inr rfl
      | cons path waiting => simp [Pass.next?, worker] at idle

theorem Worker.Took.trans {loader : Loader} {before between after : Worker} {paths more : List Path}
    {turns later : List (Registry.Turn κ ω)} (first : before.Took loader paths turns between)
    (second : between.Took loader more later after) :
    before.Took loader (paths ++ more) (turns ++ later) after := by
  constructor
  · rw [first.waiting, second.waiting, List.append_assoc]
  · rw [second.tally, first.tally, loader.loaded_append, List.length_append, Nat.add_assoc]
  · rw [second.stopped, first.stopped, List.any_append, Bool.or_assoc]

variable [Consumer κ ω]

/-- What the workers of a pass take when they take turns by a schedule. -/
def Pass.taken (loader : Loader) (pass : Pass κ ω) : List Nat → Schedule Nat Path
  | [] => []
  | position :: schedule =>
      (pass.next? position).toList.map (Prod.mk position) ++
        (pass.step loader position).taken loader schedule

/-- The turns of the registry when what is loaded of some scripts is submitted. -/
def Pass.submitAll (loader : Loader) (pass : Pass κ ω) (paths : List Path) :
    List (Registry.Turn κ ω) :=
  pass.registry.turns pass.world ((loader.loaded paths).map .submit)

/-- The turns of the registry when scripts are taken, each with the worker that submits. -/
def Pass.replies (loader : Loader) (pass : Pass κ ω) (taken : Schedule Nat Path) :
    Schedule Nat (Registry.Turn κ ω) :=
  ((loader.loadedBy taken).map Prod.fst).zip (pass.submitAll loader (taken.map Prod.snd))

/-- Holds of a pass before and after what is loaded of some scripts is submitted. -/
structure Submits (loader : Loader) (before : Pass κ ω) (paths : List Path) (after : Pass κ ω) :
    Prop where
  registry : after.registry = Registry.registryAfter before.registry (before.submitAll loader paths)
  world : after.world = Registry.worldAfter before.world (before.submitAll loader paths)
  handovers : after.handovers =
    before.handovers ++ Registry.handovers (before.submitAll loader paths)

@[simp]
theorem length_submitAll (loader : Loader) (pass : Pass κ ω) (paths : List Path) :
    (pass.submitAll loader paths).length = (loader.loaded paths).length := by
  rw [Pass.submitAll, Registry.length_turns, List.length_map]

theorem replies_singleton (loader : Loader) (pass : Pass κ ω) (position : Nat) (path : Path) :
    pass.replies loader [(position, path)] =
      (pass.submitAll loader [path]).map (Prod.mk position) := by
  cases found : loader path <;>
    simp [Pass.replies, Pass.submitAll, Loader.loadedBy, Loader.loaded, found, Except.toOption,
      Registry.turns]

section Submits

variable {loader : Loader} {before between after : Pass κ ω} {paths more : List Path}

theorem submits_of_loaded_eq_nil (nothing : loader.loaded paths = []) (pass : Pass κ ω)
    (workers : List Worker) (records : List Log.Record) :
    Submits loader pass paths { pass with workers := workers, records := records } := by
  constructor <;> simp [Pass.submitAll, nothing, Registry.turns, Registry.registryAfter,
    Registry.worldAfter, Registry.handovers]

theorem submits_of_submitAll_eq {turn : Registry.Turn κ ω} {pass : Pass κ ω}
    (one : pass.submitAll loader paths = [turn]) (workers : List Worker)
    (records : List Log.Record) :
    Submits loader pass paths
      ⟨workers, turn.registry, turn.world, pass.handovers ++ turn.handovers, records⟩ := by
  constructor <;> simp [one, Registry.registryAfter, Registry.worldAfter, Registry.handovers]

theorem Submits.submitAll_append (first : Submits loader before paths between) :
    before.submitAll loader (paths ++ more) =
      before.submitAll loader paths ++ between.submitAll loader more := by
  rw [Pass.submitAll, Pass.submitAll, Pass.submitAll, loader.loaded_append, List.map_append,
    Registry.turns_append, first.registry, first.world]
  rfl

theorem Submits.replies_append {taken later : Schedule Nat Path}
    (first : Submits loader before (taken.map Prod.snd) between) :
    before.replies loader (taken ++ later) =
      before.replies loader taken ++ between.replies loader later := by
  have many : ((loader.loadedBy taken).map Prod.fst).length =
      (before.submitAll loader (taken.map Prod.snd)).length := by
    rw [length_submitAll, ← loader.map_snd_loadedBy, List.length_map, List.length_map]
  rw [Pass.replies, Pass.replies, Pass.replies, Loader.loadedBy, List.filterMap_append,
    List.map_append, List.map_append, first.submitAll_append]
  exact List.zip_append many

theorem Submits.trans (first : Submits loader before paths between)
    (second : Submits loader between more after) : Submits loader before (paths ++ more) after := by
  constructor
  · rw [second.registry, first.submitAll_append, Registry.registryAfter_append, ← first.registry]
  · rw [second.world, first.submitAll_append, Registry.worldAfter_append, ← first.world]
  · rw [second.handovers, first.submitAll_append, Registry.handovers_append, first.handovers,
      List.append_assoc]

end Submits

/-- What is left of a pass when the worker at a position has taken a script. -/
structure Takes (loader : Loader) (pass : Pass κ ω) (position submitted : Nat) (path : Path)
    (waiting : List Path) (after : Pass κ ω) : Prop where
  submits : Submits loader pass [path] after
  workers : after.workers = pass.workers.set position
    ⟨waiting,
      submitted + Registry.acceptances (pass.submitAll loader [path]),
      (pass.submitAll loader [path]).any (fun turn => turn.outcome = .failed)⟩
  tally : Registry.acceptances (pass.submitAll loader [path]) +
      (if (pass.submitAll loader [path]).any (fun turn => turn.outcome = .failed) then 1 else 0) =
    (loader.loaded [path]).length

theorem takes_of_turn {loader : Loader} {pass : Pass κ ω} {path : Path}
    {turn : Registry.Turn κ ω} (one : pass.submitAll loader [path] = [turn])
    (accepted : turn.outcome.isAccepted = true ∨ turn.outcome = .failed)
    (position submitted : Nat) (waiting : List Path) (records : List Log.Record) :
    Takes loader pass position submitted path waiting
      ⟨pass.workers.set position
          ⟨waiting, submitted + (if turn.outcome.isAccepted then 1 else 0),
            turn.outcome = .failed⟩,
        turn.registry, turn.world, pass.handovers ++ turn.handovers, records⟩ := by
  have many := length_submitAll loader pass [path]
  rw [one] at many
  refine ⟨submits_of_submitAll_eq one _ _, ?_, ?_⟩
  · simp [one, Registry.acceptances, List.countP_cons]
  · rw [← many, one]
    rcases accepted with accepted | failed
    · have steady : turn.outcome ≠ .failed := by
        intro failed
        rw [failed] at accepted
        cases accepted
      simp [Registry.acceptances, accepted, steady]
    · simp [Registry.acceptances, failed, Registry.Outcome.isAccepted]

theorem takes_take {loader : Loader} (sound : loader.Sound) (pass : Pass κ ω)
    (position submitted : Nat) (path : Path) (waiting others : List Path) :
    Takes loader pass position submitted path waiting
      (pass.take loader position ⟨others, submitted, false⟩ path waiting) := by
  cases found : loader path with
  | error error =>
      have nothing : loader.loaded [path] = [] := by simp [Loader.loaded, found, Except.toOption]
      have none : pass.submitAll loader [path] = [] := by
        simp [Pass.submitAll, nothing, Registry.turns]
      rw [Pass.take, found]
      exact ⟨submits_of_loaded_eq_nil nothing _ _ _, by simp [none, Registry.acceptances],
        by simp [none, nothing, Registry.acceptances]⟩
  | ok fragment =>
      have one : pass.submitAll loader [path] = [pass.registry.submit pass.world fragment] := by
        simp [Pass.submitAll, Loader.loaded, found, Except.toOption, Registry.turns, Registry.turn]
      have turned := Registry.turned_submit pass.registry pass.world fragment
      have accepted := turned.accepted_or_failed (sound path fragment found)
      have takes := takes_of_turn one accepted position submitted waiting
      rw [Pass.take, found]
      cases outcome : (pass.registry.submit pass.world fragment).outcome with
      | queued => simpa [outcome, Registry.Outcome.isAccepted] using takes _
      | forwarded => simpa [outcome, Registry.Outcome.isAccepted] using takes _
      | failed => simpa [outcome, Registry.Outcome.isAccepted] using takes _
      | attached => simp [outcome, Registry.Outcome.isAccepted] at accepted
      | refused => simp [outcome, Registry.Outcome.isAccepted] at accepted

section Takes

variable {loader : Loader} {pass after : Pass κ ω} {position submitted : Nat} {path : Path}
  {waiting : List Path}

/-- In its turn a worker takes a script, or there is none for it to take. -/
theorem step_idle_or_takes (sound : loader.Sound) (pass : Pass κ ω) (position : Nat) :
    (pass.next? position = none ∧ pass.step loader position = pass) ∨
      ∃ submitted path waiting, pass.next? position = some path ∧
        pass.workers[position]? = some ⟨path :: waiting, submitted, false⟩ ∧
          Takes loader pass position submitted path waiting (pass.step loader position) := by
  rcases found : pass.workers[position]? with _ | ⟨waiting, submitted, stopped⟩
  · left
    simp [Pass.next?, Pass.worker, List.getD_eq_getElem?_getD, Pass.step, found, Worker.start]
  · have worker := worker_of_getElem? found
    cases stopped with
    | true =>
        left
        simp [Pass.next?, worker, Pass.step, found]
    | false =>
        cases waiting with
        | nil =>
            left
            simp [Pass.next?, worker, Pass.step, found]
        | cons path waiting =>
            right
            refine ⟨submitted, path, waiting, ?_, rfl, ?_⟩
            · simp [Pass.next?, worker]
            · have takes := takes_take sound pass position submitted path waiting (path :: waiting)
              simpa [Pass.step, found] using takes

theorem Takes.worker_of_ne (takes : Takes loader pass position submitted path waiting after)
    {other : Nat} (differ : position ≠ other) : after.worker other = pass.worker other := by
  simp [Pass.worker, List.getD_eq_getElem?_getD, takes.workers, List.getElem?_set_ne differ]

theorem Takes.took (takes : Takes loader pass position submitted path waiting after)
    (found : pass.workers[position]? = some ⟨path :: waiting, submitted, false⟩) :
    (pass.worker position).Took loader [path] (pass.submitAll loader [path])
      (after.worker position) := by
  rcases List.getElem?_eq_some_iff.mp found with ⟨inside, _⟩
  have tally := takes.tally
  rw [worker_of_getElem? found, Pass.worker, List.getD_eq_getElem?_getD, takes.workers,
    List.getElem?_set_self inside, Option.getD_some]
  constructor
  · rfl
  · simp only [Worker.tally, Bool.false_eq_true, if_false]
    omega
  · rfl

end Takes

section Run

variable {loader : Loader}

theorem run_cons (pass : Pass κ ω) (position : Nat) (schedule : List Nat) :
    pass.run loader (position :: schedule) = (pass.step loader position).run loader schedule :=
  rfl

/-- A pass submits what is loaded of the scripts, in the order in which they are taken. -/
theorem submits_run (sound : loader.Sound) (pass : Pass κ ω) (schedule : List Nat) :
    Submits loader pass ((pass.taken loader schedule).map Prod.snd) (pass.run loader schedule) := by
  induction schedule generalizing pass with
  | nil => exact submits_of_loaded_eq_nil rfl pass _ _
  | cons position schedule ih =>
      rw [run_cons, Pass.taken, List.map_append]
      rcases step_idle_or_takes sound pass position with
        ⟨idle, stays⟩ | ⟨_, path, _, next, _, takes⟩
      · rw [idle, stays]
        exact ih pass
      · rw [next]
        exact takes.submits.trans (ih _)

/-- Every worker goes through its own scripts in their order, and stops at the first failure. -/
theorem took_run (sound : loader.Sound) (pass : Pass κ ω) (schedule : List Nat) (position : Nat) :
    (pass.worker position).Took loader ((pass.taken loader schedule).of position)
      ((pass.replies loader (pass.taken loader schedule)).of position)
      ((pass.run loader schedule).worker position) := by
  induction schedule generalizing pass with
  | nil => exact ⟨rfl, rfl, (Bool.or_false _).symm⟩
  | cons first schedule ih =>
      rw [run_cons, Pass.taken]
      rcases step_idle_or_takes sound pass first with
        ⟨idle, stays⟩ | ⟨_, path, _, next, found, takes⟩
      · rw [idle, stays]
        exact ih pass
      · have rest := ih (pass.step loader first)
        have once : Submits loader pass ([(first, path)].map Prod.snd) (pass.step loader first) :=
          takes.submits
        rw [next, Option.toList_some, List.map_singleton, once.replies_append, replies_singleton,
          Schedule.of_append, Schedule.of_append, Schedule.of_map_mk, Schedule.of_cons,
          Schedule.of_nil]
        by_cases own : first = position
        · subst own
          rw [if_pos rfl, if_pos rfl]
          exact (takes.took found).trans rest
        · rw [if_neg own, if_neg own, ← takes.worker_of_ne own]
          exact rest

end Run

end TraitIndex.Loading
