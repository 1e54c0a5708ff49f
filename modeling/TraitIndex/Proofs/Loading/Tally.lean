import TraitIndex.Proofs.Loading.Moves
import TraitIndex.Proofs.Loading.Taken

/-!
# What a pass counts

Every worker counts the fragments that it submitted and that were accepted, and the summary adds up
the counts of those workers that did not stop.  So the summary claims no more than was accepted.  A
worker is through with its scripts once it had a turn for each of them, or stops before.
-/

namespace TraitIndex.Loading

/-- The sum of what is measured of some workers. -/
def total (measure : Worker → Nat) (workers : List Worker) : Nat :=
  workers.foldr (fun worker count => measure worker + count) 0

section Total

variable {workers : List Worker}

theorem total_set (measure : Worker → Nat) {position : Nat} {worker : Worker}
    (found : workers[position]? = some worker) (next : Worker) :
    total measure (workers.set position next) + measure worker =
      total measure workers + measure next := by
  induction workers generalizing position with
  | nil => simp at found
  | cons first workers ih =>
      cases position with
      | zero =>
          simp only [List.getElem?_cons_zero, Option.some.injEq] at found
          subst found
          simp only [total, List.set_cons_zero, List.foldr_cons]
          omega
      | succ position =>
          have rest := ih (by simpa using found)
          simp only [total, List.set_cons_succ, List.foldr_cons] at rest ⊢
          omega

theorem total_eq_sum (measure : Worker → Nat) (workers : List Worker) :
    total measure workers =
      ∑ position ∈ Finset.range workers.length, measure (workers.getD position (.start [])) := by
  induction workers with
  | nil => rfl
  | cons worker workers ih =>
      have rest : total measure (worker :: workers) = measure worker + total measure workers := rfl
      simp only [rest, ih, List.length_cons, Finset.sum_range_succ', List.getD_cons_succ,
        List.getD_cons_zero, Nat.add_comm]

theorem credit_le_submitted (worker : Worker) : worker.credit ≤ worker.submitted := by
  rw [Worker.credit]
  split <;> omega

theorem credits_le_submitted (workers : List Worker) :
    credits workers ≤ total Worker.submitted workers := by
  induction workers with
  | nil => exact Nat.le_refl 0
  | cons worker workers ih => exact Nat.add_le_add (credit_le_submitted worker) ih

theorem credits_of_running (running : ∀ worker ∈ workers, worker.stopped = false) :
    credits workers = total Worker.submitted workers := by
  induction workers with
  | nil => rfl
  | cons worker workers ih =>
      have first : worker.credit = worker.submitted := by
        simp [Worker.credit, running worker List.mem_cons_self]
      have others := ih fun other listed => running other (List.mem_cons_of_mem _ listed)
      simp only [credits, total, List.foldr_cons, first] at others ⊢
      omega

theorem total_submitted_start (parts : List (List Path)) :
    total Worker.submitted (parts.map Worker.start) = 0 := by
  induction parts with
  | nil => rfl
  | cons part parts ih => simpa [total, Worker.start] using ih

end Total

variable {κ ω : Type} [Consumer κ ω] {loader : Loader}

theorem length_workers_run (sound : loader.Sound) (pass : Pass κ ω) (schedule : List Nat) :
    (pass.run loader schedule).workers.length = pass.workers.length := by
  induction schedule generalizing pass with
  | nil => rfl
  | cons position schedule ih =>
      rw [run_cons, ih]
      rcases step_idle_or_takes sound pass position with ⟨_, stays⟩ | ⟨_, _, _, _, _, takes⟩
      · rw [stays]
      · rw [takes.workers, List.length_set]

theorem length_of_taken_le (loader : Loader) (pass : Pass κ ω) (schedule : List Nat)
    (position : Nat) :
    ((pass.taken loader schedule).of position).length ≤ schedule.count position := by
  induction schedule generalizing pass with
  | nil => exact Nat.le_refl 0
  | cons first schedule ih =>
      have rest := ih (pass.step loader first)
      have one : (pass.next? first).toList.length ≤ 1 := by
        cases pass.next? first <;> simp
      rw [Pass.taken, Schedule.of_append, Schedule.of_map_mk, List.length_append, List.count_cons]
      by_cases own : first = position
      · simp only [own, beq_self_eq_true, if_true] at one rest ⊢
        omega
      · simpa [own] using rest

theorem Takes.total_submitted {pass after : Pass κ ω} {position submitted : Nat} {path : Path}
    {waiting : List Path} (takes : Takes loader pass position submitted path waiting after)
    (found : pass.workers[position]? = some ⟨path :: waiting, submitted, false⟩) :
    total Worker.submitted after.workers =
      total Worker.submitted pass.workers +
        Registry.acceptances (pass.submitAll loader [path]) := by
  have counted := total_set Worker.submitted found
    ⟨waiting, submitted + Registry.acceptances (pass.submitAll loader [path]),
      (pass.submitAll loader [path]).any (fun turn => turn.outcome = .failed)⟩
  rw [← takes.workers] at counted
  dsimp only at counted
  omega

/-- The workers together count what is accepted. -/
theorem total_submitted_run (sound : loader.Sound) (pass : Pass κ ω) (schedule : List Nat) :
    total Worker.submitted (pass.run loader schedule).workers =
      total Worker.submitted pass.workers +
        Registry.acceptances
          (pass.submitAll loader ((pass.taken loader schedule).map Prod.snd)) := by
  induction schedule generalizing pass with
  | nil => rfl
  | cons position schedule ih =>
      rw [run_cons, ih, Pass.taken, List.map_append]
      rcases step_idle_or_takes sound pass position with
        ⟨idle, stays⟩ | ⟨_, path, _, next, found, takes⟩
      · rw [idle, stays]
        rfl
      · have once : ([path].map (Prod.mk position)).map Prod.snd = [path] := rfl
        rw [next, Option.toList_some, once, takes.submits.submitAll_append,
          Registry.acceptances_append, takes.total_submitted found, Nat.add_assoc]

section Finish

/-- Holds of a worker that gets through its scripts in the given number of turns, or stops. -/
def Worker.Manages (worker : Worker) (turns : Nat) : Prop :=
  worker.stopped = true ∨ worker.waiting.length ≤ turns

theorem manages_step (sound : loader.Sound) {pass : Pass κ ω} {position other turns : Nat}
    (manages : (pass.worker other).Manages (turns + if position = other then 1 else 0)) :
    ((pass.step loader position).worker other).Manages turns := by
  rcases step_idle_or_takes sound pass position with
    ⟨idle, stays⟩ | ⟨_, path, _, _, found, takes⟩
  · rw [stays]
    by_cases own : position = other
    · subst own
      rcases stopped_or_waiting_eq_nil idle with stopped | nothing
      · exact .inl stopped
      · right
        simp [nothing]
    · simpa [own] using manages
  · by_cases own : position = other
    · subst own
      right
      have took := (takes.took found).waiting
      rcases manages with stopped | few
      · rw [worker_of_getElem? found] at stopped
        cases stopped
      · rw [took, if_pos rfl, List.length_append, List.length_singleton] at few
        omega
    · rw [takes.worker_of_ne own]
      simpa [own] using manages

theorem finished_run (sound : loader.Sound) {pass : Pass κ ω} {schedule : List Nat}
    (enough : ∀ position, (pass.worker position).Manages (schedule.count position)) :
    (pass.run loader schedule).Finished := by
  induction schedule generalizing pass with
  | nil =>
      intro worker mem
      have listed : worker ∈ pass.workers := mem
      rcases List.mem_iff_getElem?.mp listed with ⟨position, found⟩
      have manages := enough position
      rw [worker_of_getElem? found] at manages
      rcases manages with stopped | through
      · exact .inl stopped
      · exact .inr (List.length_eq_zero_iff.mp (Nat.le_zero.mp through))
  | cons position schedule ih =>
      rw [run_cons]
      apply ih
      intro other
      apply manages_step sound
      have manages := enough other
      rw [List.count_cons] at manages
      simpa only [beq_iff_eq] using manages

/-- A scheduler that lets every worker finish does so whatever the consumer does. -/
theorem finished_of_complete (sound : loader.Sound) {scheduler : Scheduler}
    (complete : scheduler.Complete) (limit : Nat) (scripts : List Path) (registry : Registry κ)
    (world : ω) :
    ((Pass.start limit scripts registry world).run loader
      (scheduler (chunks limit scripts))).Finished := by
  apply finished_run sound
  intro position
  right
  rw [worker_start]
  exact complete (chunks limit scripts) position

end Finish

end TraitIndex.Loading
