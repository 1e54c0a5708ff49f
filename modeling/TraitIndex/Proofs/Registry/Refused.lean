import TraitIndex.Proofs.Registry.Journal

/-!
# Refused calls leave no trace

A submission is refused when its fragment is malformed, and an attachment when a consumer is
attached already.  Either leaves the registry and the world as they were.  So the refused calls can
be struck from a run, and every other call goes as it did, with the same registry and the same world
behind it.
-/

namespace TraitIndex.Registry

variable {ι κ ω : Type}

/-- Holds of a submission that was refused as malformed, and of an attachment that was refused as a
duplicate. -/
def Call.isRefused : Call κ → Outcome → Bool
  | .submit _, .refused (.malformed _) => true
  | .attach _, .refused .duplicateAttachment => true
  | _, _ => false

/-- The calls of a run that were not refused, each with its turn. -/
def unrefused (calls : List (Call κ)) (turns : List (Turn κ ω)) : List (Call κ × Turn κ ω) :=
  (calls.zip turns).filter fun move => !move.1.isRefused move.2.outcome

theorem unrefused_cons_of_refused {call : Call κ} {turn : Turn κ ω}
    (refused : call.isRefused turn.outcome = true) (calls : List (Call κ))
    (turns : List (Turn κ ω)) :
    unrefused (call :: calls) (turn :: turns) = unrefused calls turns := by
  simp [unrefused, refused]

theorem unrefused_cons_of_not_refused {call : Call κ} {turn : Turn κ ω}
    (kept : call.isRefused turn.outcome = false) (calls : List (Call κ))
    (turns : List (Turn κ ω)) :
    unrefused (call :: calls) (turn :: turns) = (call, turn) :: unrefused calls turns := by
  simp [unrefused, kept]

variable [Consumer κ ω]

theorem Turned.unchanged_of_refused {registry : Registry κ} {world : ω} {call : Call κ}
    {turn : Turn κ ω} (turned : Turned registry world call turn)
    (refused : call.isRefused turn.outcome = true) :
    turn.registry = registry ∧ turn.world = world := by
  cases turned with
  | rejected => exact ⟨rfl, rfl⟩
  | duplicate => exact ⟨rfl, rfl⟩
  | queued => cases refused
  | forwarded => cases refused
  | forwardFailed => cases refused
  | attached => cases refused
  | flushFailed => cases refused

/-- Calls that a run did not refuse go the same way when they are made without the others. -/
theorem turns_map_fst_unrefused (registry : Registry κ) (world : ω) (calls : List (Call κ)) :
    let run := registry.turns world calls
    let kept := unrefused calls run
    registry.turns world (kept.map Prod.fst) = kept.map Prod.snd ∧
      registryAfter registry (kept.map Prod.snd) = registryAfter registry run ∧
      worldAfter world (kept.map Prod.snd) = worldAfter world run := by
  induction calls generalizing registry world with
  | nil => exact ⟨rfl, rfl, rfl⟩
  | cons call calls ih =>
      have rest := ih (registry.turn world call).registry (registry.turn world call).world
      cases refused : call.isRefused (registry.turn world call).outcome with
      | true =>
          rcases (turned_turn registry world call).unchanged_of_refused refused with
            ⟨sameRegistry, sameWorld⟩
          simp only [turns, unrefused_cons_of_refused refused, registryAfter, worldAfter]
          rw [sameRegistry, sameWorld] at rest ⊢
          exact rest
      | false =>
          rcases rest with ⟨again, registry, world⟩
          simp only [turns, unrefused_cons_of_not_refused refused, List.map_cons, registryAfter,
            worldAfter]
          exact ⟨by rw [again], registry, world⟩

/-- Striking the refused calls from a run changes no other turn: neither what comes of it, the
notices it gives and the fragments it hands over, nor the registry and the world that it leaves.
What every consumer receives during the run is the same. -/
theorem turns_unrefused [DecidableEq ι] (registry : Registry (Named ι κ)) (journal : Journal ι ω)
    (calls : List (Call (Named ι κ))) :
    let run := registry.turns journal calls
    let kept := unrefused calls run
    let rerun := registry.turns journal (kept.map Prod.fst)
    rerun = kept.map Prod.snd ∧
      registryAfter registry rerun = registryAfter registry run ∧
      ∀ name,
        (worldAfter journal rerun).received name = (worldAfter journal run).received name := by
  intro run kept rerun
  rcases turns_map_fst_unrefused registry journal calls with ⟨same, left, world⟩
  have again : rerun = kept.map Prod.snd := same
  refine ⟨again, ?_, ?_⟩
  · rw [again]
    exact left
  · intro name
    rw [again, world]

end TraitIndex.Registry
