import TraitIndex.Proofs.Loading.Tally
import TraitIndex.Proofs.Registry.Position

/-!
# Passes in which nobody fails

When no consumer fails, no worker ever stops, so which worker takes which script depends on the
schedule only, and all that can be loaded of the scripts is accepted in the order in which they are
taken.  A consumer that attaches before the pass is handed all this as it is submitted, and one that
attaches afterwards is handed it then.
-/

namespace TraitIndex

variable {κ ω : Type}

namespace Registry

variable [Consumer κ ω]

/-- Holds of a registry whose consumer never fails, if it has one. -/
def NeverFails : Registry κ → Prop
  | unattached _ => True
  | attached consumer _ => Consumer.NeverFails consumer

theorem NeverFails.submit {registry : Registry κ} (never : registry.NeverFails) (world : ω)
    (fragment : Fragment) :
    (∀ handover ∈ (registry.submit world fragment).handovers, handover.failed = false) ∧
      (registry.submit world fragment).registry.NeverFails := by
  have turned := turned_submit registry world fragment
  generalize registry.submit world fragment = turn at turned ⊢
  cases turned with
  | rejected faulty => exact ⟨by simp, never⟩
  | queued => exact ⟨by simp, trivial⟩
  | forwarded _ reaction =>
      rcases Consumer.NeverFails.accept never fragment world with ⟨_, _, same, steadyAfter⟩
      rw [reaction] at same
      cases same
      exact ⟨by simp, steadyAfter⟩
  | forwardFailed _ reaction =>
      rcases Consumer.NeverFails.accept never fragment world with ⟨_, _, same, _⟩
      rw [reaction] at same
      cases same

theorem NeverFails.handovers {registry : Registry κ} (never : registry.NeverFails)
    (world : ω) (fragments : List Fragment) :
    ∀ handover ∈ Registry.handovers (registry.turns world (fragments.map .submit)),
      handover.failed = false := by
  induction fragments generalizing registry world with
  | nil => simp [turns, Registry.handovers]
  | cons fragment fragments ih =>
      rcases never.submit world fragment with ⟨first, neverAfter⟩
      intro handover mem
      rw [List.map_cons, turns, handovers_cons] at mem
      rcases List.mem_append.mp mem with now | later
      · exact first handover now
      · exact ih neverAfter _ handover later

end Registry

namespace Loading

/-- Holds of a pass in which no consumer has failed so far. -/
def Pass.Steady (pass : Pass κ ω) : Prop :=
  ∀ handover ∈ pass.handovers, handover.failed = false

def Pass.Running (pass : Pass κ ω) : Prop :=
  ∀ worker ∈ pass.workers, worker.stopped = false

theorem running_start (limit : Nat) (scripts : List Path) (registry : Registry κ) (world : ω) :
    (Pass.start limit scripts registry world).Running := by
  intro worker mem
  rcases List.mem_map.mp mem with ⟨part, _, rfl⟩
  rfl

theorem map_waiting_start (limit : Nat) (scripts : List Path) (registry : Registry κ) (world : ω) :
    (Pass.start limit scripts registry world).workers.map Worker.waiting =
      chunks limit scripts := by
  simp [Pass.start, Worker.start, Function.comp_def]

theorem credits_start (limit : Nat) (scripts : List Path) (registry : Registry κ) (world : ω) :
    credits (Pass.start limit scripts registry world).workers = 0 := by
  rw [credits_of_running (running_start limit scripts registry world)]
  exact total_submitted_start (chunks limit scripts)

theorem Pass.Running.stopped_worker {pass : Pass κ ω} (running : pass.Running) (position : Nat) :
    (pass.worker position).stopped = false := by
  rcases worker_mem_or_eq_start pass position with listed | nothing
  · exact running _ listed
  · rw [nothing]
    rfl

variable [Consumer κ ω] {loader : Loader}

section Steady

variable {before after : Pass κ ω} {paths : List Path}

theorem Submits.steady_before (submits : Submits loader before paths after)
    (steady : after.Steady) : before.Steady := by
  intro handover mem
  apply steady
  rw [submits.handovers]
  exact List.mem_append_left _ mem

theorem Submits.isAccepted (submits : Submits loader before paths after) (sound : loader.Sound)
    (steady : after.Steady) :
    ∀ turn ∈ before.submitAll loader paths, turn.outcome.isAccepted = true := by
  intro turn mem
  apply Registry.isAccepted_of_mem_turns sound.wellFormed_of_mem_loaded _ mem
  intro handover made
  apply steady
  rw [submits.handovers]
  exact List.mem_append_right _ made

theorem Takes.running {position submitted : Nat} {path : Path} {waiting : List Path}
    (takes : Takes loader before position submitted path waiting after) (sound : loader.Sound)
    (steady : after.Steady) (running : before.Running) : after.Running := by
  intro worker mem
  rw [takes.workers] at mem
  rcases List.mem_or_eq_of_mem_set mem with old | rfl
  · exact running worker old
  · apply List.any_eq_false.mpr
    intro turn made failed
    have accepted := takes.submits.isAccepted sound steady turn made
    rw [of_decide_eq_true failed] at accepted
    cases accepted

variable {pass : Pass κ ω} {schedule : List Nat} (sound : loader.Sound) (running : pass.Running)

include sound running

theorem running_run (steady : (pass.run loader schedule).Steady) :
    (pass.run loader schedule).Running := by
  induction schedule generalizing pass with
  | nil => exact running
  | cons position schedule ih =>
      rw [run_cons] at steady ⊢
      rcases step_idle_or_takes sound pass position with
        ⟨_, stays⟩ | ⟨_, _, _, _, _, takes⟩
      · rw [stays] at steady ⊢
        exact ih running steady
      · have steadyNext := (submits_run sound _ schedule).steady_before steady
        exact ih (takes.running sound steadyNext running) steady

/-- While nobody fails, who takes what is known from the chunks and the schedule. -/
theorem taken_eq_moves (steady : (pass.run loader schedule).Steady) :
    pass.taken loader schedule = moves (pass.workers.map Worker.waiting) schedule := by
  induction schedule generalizing pass with
  | nil => rfl
  | cons position schedule ih =>
      rw [run_cons] at steady
      rw [Pass.taken]
      rcases step_idle_or_takes sound pass position with
        ⟨idle, stays⟩ | ⟨_, path, waiting, next, found, takes⟩
      · have nothing : (pass.workers.map Worker.waiting).getD position [] = [] := by
          rw [← waiting_worker]
          rcases stopped_or_waiting_eq_nil idle with stopped | nothing
          · rw [running.stopped_worker position] at stopped
            cases stopped
          · exact nothing
        rw [stays] at steady
        rw [idle, stays, moves_cons_of_idle nothing]
        exact ih running steady
      · have steadyNext := (submits_run sound _ schedule).steady_before steady
        have chunk : (pass.workers.map Worker.waiting)[position]? = some (path :: waiting) := by
          simp [found]
        rw [next, ih (takes.running sound steadyNext running) steady, takes.workers, List.map_set,
          moves_cons_of_some chunk]
        rfl

/-- While nobody fails, all that is loaded of the scripts that are taken is accepted and counted. -/
theorem credits_run (steady : (pass.run loader schedule).Steady) :
    credits (pass.run loader schedule).workers =
      credits pass.workers +
        (loader.loaded ((pass.taken loader schedule).map Prod.snd)).length := by
  have accepted := (submits_run sound pass schedule).isAccepted sound steady
  rw [credits_of_running (running_run sound running steady), credits_of_running running,
    total_submitted_run sound, Registry.acceptances, List.countP_eq_length.mpr accepted,
    Pass.submitAll, Registry.length_turns, List.length_map]

end Steady

/-- What a loading pass comes to in which nobody fails. -/
theorem loadBy_of_neverFails (scheduler : Scheduler) {loader : Loader} (sound : loader.Sound)
    (limit : Nat) (scripts : List Path) {registry : Registry κ} (never : registry.NeverFails)
    (world : ω) :
    let fragments := loader.loaded (order scheduler limit scripts)
    let turns := registry.turns world (fragments.map .submit)
    let result := loadBy scheduler loader limit scripts registry world
    result.registry = Registry.registryAfter registry turns ∧
      result.world = Registry.worldAfter world turns ∧
      result.summary = ⟨fragments.length, scripts.length - fragments.length⟩ := by
  let start := Pass.start limit scripts registry world
  have submits := submits_run sound start (scheduler (chunks limit scripts))
  have steady : (start.run loader (scheduler (chunks limit scripts))).Steady := by
    rw [Pass.Steady, submits.handovers]
    exact never.handovers world _
  have running := running_start limit scripts registry world
  have taken := taken_eq_moves sound running steady
  have counted := credits_run sound running steady
  rw [map_waiting_start] at taken
  rw [taken, credits_start, Nat.zero_add] at counted
  rw [taken] at submits
  refine ⟨submits.registry, submits.world, ?_⟩
  simp only [loadBy, Pass.summary]
  rw [counted]
  rfl

section Attached

variable {consumer : κ} {loader : Loader}

/-- A consumer that is attached before a pass is delivered what is loaded in it. -/
theorem loadBy_attached (steady : Consumer.NeverFails consumer) (scheduler : Scheduler)
    (sound : loader.Sound) (limit : Nat) (scripts : List Path) (world : ω) :
    let fragments := loader.loaded (order scheduler limit scripts)
    let result := loadBy scheduler loader limit scripts (.attached consumer 0) world
    result.world = (Registry.deliver consumer world fragments).2 ∧
      result.summary = ⟨fragments.length, scripts.length - fragments.length⟩ := by
  intro fragments result
  have ready : (Registry.attached consumer 0).NeverFails := steady
  rcases loadBy_of_neverFails scheduler sound limit scripts ready world with ⟨_, left, summary⟩
  have ends := (Registry.turns_attachedAt steady 0 fragments world).2
  rw [sound.filter_loaded] at ends
  exact ⟨left.trans ends, summary⟩

/-- What is loaded in a pass before anything attaches waits, and nothing else changes. -/
theorem loadBy_unattached (scheduler : Scheduler) (sound : loader.Sound) (limit : Nat)
    (scripts : List Path) (world : ω) :
    let fragments := loader.loaded (order scheduler limit scripts)
    let result := loadBy scheduler loader limit scripts (Registry.empty : Registry κ) world
    result.registry = .unattached fragments ∧ result.world = world ∧
      result.summary = ⟨fragments.length, scripts.length - fragments.length⟩ := by
  intro fragments result
  have ready : (Registry.empty : Registry κ).NeverFails := trivial
  rcases loadBy_of_neverFails scheduler sound limit scripts ready world with
    ⟨waiting, unchanged, summary⟩
  rcases Registry.turns_submit_unattached (κ := κ) [] fragments world with ⟨queue, same, _⟩
  rw [sound.filter_loaded, List.nil_append] at queue
  exact ⟨waiting.trans queue, unchanged.trans same, summary⟩

/-- A consumer that attaches after a pass is delivered what was loaded in it. -/
theorem attach_loadBy (steady : Consumer.NeverFails consumer) (scheduler : Scheduler)
    (sound : loader.Sound) (limit : Nat) (scripts : List Path) (world : ω) :
    let fragments := loader.loaded (order scheduler limit scripts)
    let result := loadBy scheduler loader limit scripts (Registry.empty : Registry κ) world
    let attachment := result.registry.attach result.world consumer
    attachment.outcome = .attached fragments.length ∧
      attachment.world = (Registry.deliver consumer world fragments).2 := by
  intro fragments result attachment
  rcases loadBy_unattached (κ := κ) scheduler sound limit scripts world with ⟨queue, same, _⟩
  have registry : result.registry = .unattached fragments := queue
  have left : result.world = world := same
  simp only [attachment, registry, left, Registry.attach_of_neverFails steady,
    Registry.deliver_eq_flush steady, and_self]

end Attached

end Loading

end TraitIndex
