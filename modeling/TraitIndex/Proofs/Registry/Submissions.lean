import TraitIndex.Proofs.Registry.Conservation

/-!
# Runs of submissions

While nothing attaches, a registry only takes in what is submitted: a well-formed fragment is
accepted, or the attached consumer fails on it.  What is accepted waits or counts as delivered, so
the accepted fragments can be counted in the registry.
-/

namespace TraitIndex.Registry

variable {κ ω : Type} [Consumer κ ω]

/-- Holds when a submitted fragment now waits, or was delivered. -/
def Outcome.isAccepted : Outcome → Bool
  | queued _ => true
  | forwarded => true
  | _ => false

/-- The number of fragments that a registry holds or has delivered. -/
def count (registry : Registry κ) : Nat :=
  registry.pending.length + registry.delivered

/-- The number of fragments that are accepted in some turns. -/
def acceptances (turns : List (Turn κ ω)) : Nat :=
  turns.countP fun turn => turn.outcome.isAccepted

omit [Consumer κ ω] in
theorem acceptances_append (earlier later : List (Turn κ ω)) :
    acceptances (earlier ++ later) = acceptances earlier + acceptances later :=
  List.countP_append

section Turned

variable {registry : Registry κ} {world : ω} {fragment : Fragment} {turn : Turn κ ω}
  (turned : Turned registry world (.submit fragment) turn)

include turned

theorem Turned.accepted_or_failed (wellFormed : fragment.WellFormed) :
    turn.outcome.isAccepted = true ∨ turn.outcome = .failed := by
  cases turned with
  | rejected faulty => simp [Fragment.WellFormed, faulty] at wellFormed
  | queued => exact .inl rfl
  | forwarded => exact .inl rfl
  | forwardFailed => exact .inr rfl

theorem Turned.exists_failed (failed : turn.outcome = .failed) :
    ∃ handover ∈ turn.handovers, handover.failed = true := by
  cases turned with
  | rejected => cases failed
  | queued => cases failed
  | forwarded => cases failed
  | forwardFailed => exact ⟨_, List.mem_singleton_self _, rfl⟩

theorem Turned.count_eq :
    turn.registry.count = registry.count + if turn.outcome.isAccepted then 1 else 0 := by
  cases turned with
  | rejected => simp [Outcome.isAccepted]
  | queued => simp [count, pending, delivered, Outcome.isAccepted]
  | forwarded => simp [count, pending, delivered, Outcome.isAccepted]
  | forwardFailed => simp [count, pending, delivered, Outcome.isAccepted]

end Turned

/-- Every turn of a run of submissions is the turn of one of the fragments. -/
theorem exists_turned_of_mem {registry : Registry κ} {world : ω} {fragments : List Fragment}
    {turn : Turn κ ω} (mem : turn ∈ registry.turns world (fragments.map .submit)) :
    ∃ fragment ∈ fragments, ∃ before earlier, Turned before earlier (.submit fragment) turn := by
  rcases exists_turned_of_mem_turns mem with ⟨_, listed, turned⟩
  rcases List.mem_map.mp listed with ⟨fragment, submitted, rfl⟩
  exact ⟨fragment, submitted, turned⟩

theorem count_turns_submit (registry : Registry κ) (world : ω) (fragments : List Fragment) :
    (registryAfter registry (registry.turns world (fragments.map .submit))).count =
      registry.count + acceptances (registry.turns world (fragments.map .submit)) := by
  induction fragments generalizing registry world with
  | nil => simp [turns, registryAfter, acceptances]
  | cons fragment fragments ih =>
      have first := (turned_turn registry world (.submit fragment)).count_eq
      rw [List.map_cons, turns, registryAfter, ih, first, acceptances, acceptances,
        List.countP_cons]
      omega

section WellFormed

variable {registry : Registry κ} {world : ω} {fragments : List Fragment}
  (wellFormed : ∀ fragment ∈ fragments, fragment.WellFormed)

include wellFormed

/-- Of a run of well-formed submissions none is refused. -/
theorem accepted_or_failed_of_mem_turns {turn : Turn κ ω}
    (mem : turn ∈ registry.turns world (fragments.map .submit)) :
    turn.outcome.isAccepted = true ∨ turn.outcome = .failed := by
  rcases exists_turned_of_mem mem with ⟨fragment, listed, _, _, turned⟩
  exact turned.accepted_or_failed (wellFormed fragment listed)

/-- When the consumer fails on nothing, all of a run of well-formed submissions are accepted. -/
theorem isAccepted_of_mem_turns
    (steady : ∀ handover ∈ handovers (registry.turns world (fragments.map .submit)),
      handover.failed = false)
    {turn : Turn κ ω} (mem : turn ∈ registry.turns world (fragments.map .submit)) :
    turn.outcome.isAccepted = true := by
  rcases accepted_or_failed_of_mem_turns wellFormed mem with accepted | failed
  · exact accepted
  · rcases exists_turned_of_mem mem with ⟨_, _, _, _, turned⟩
    rcases turned.exists_failed failed with ⟨handover, made, fails⟩
    have safe := steady handover (List.mem_flatMap.mpr ⟨turn, mem, made⟩)
    rw [fails] at safe
    cases safe

end WellFormed

end TraitIndex.Registry
