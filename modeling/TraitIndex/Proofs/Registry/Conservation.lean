import TraitIndex.Proofs.Registry.Journal

/-!
# Fragments are neither lost nor repeated nor reordered

At every moment of a run the fragments that consumers were handed so far, followed by those that
still wait, are the well-formed fragments submitted so far, in the order of their submission.  What
carries the induction is that a turn may only move fragments from the waiting ones to the handed
ones, or add the one submitted at the end.
-/

namespace TraitIndex.Registry

variable {ι κ ω : Type} [Consumer κ ω]

/-- The fragments that a registry takes in when some calls are made: the well-formed ones. -/
def accepted (calls : List (Call κ)) : List Fragment :=
  (submissions calls).filter fun fragment => fragment.WellFormed

@[simp]
theorem accepted_append (earlier later : List (Call κ)) :
    accepted (earlier ++ later) = accepted earlier ++ accepted later := by
  simp [accepted]

theorem wellFormed_of_mem_accepted {calls : List (Call κ)} {fragment : Fragment}
    (mem : fragment ∈ accepted calls) : fragment.WellFormed := by
  simpa using (List.mem_filter.mp mem).2

/-- One turn keeps the waiting fragments in order, ahead of what the call brings. -/
theorem handed_append_pending_turn (registry : Registry κ) (world : ω) (call : Call κ) :
    (registry.turn world call).handovers.map Handover.fragment ++
        (registry.turn world call).registry.pending =
      registry.pending ++ accepted [call] := by
  have turned := turned_turn registry world call
  generalize registry.turn world call = turn at turned ⊢
  cases turned with
  | rejected faulty => simp [accepted, Fragment.WellFormed, faulty]
  | queued wellFormed => simp [accepted, pending, wellFormed]
  | forwarded wellFormed => simp [accepted, pending, wellFormed]
  | forwardFailed wellFormed => simp [accepted, pending, wellFormed]
  | duplicate => simp [accepted, pending]
  | @attached consumer waiting world finished =>
      have conserved := flush_handovers_append consumer world waiting
      simpa [accepted, pending, finished] using conserved
  | @flushFailed consumer waiting rest world stopped =>
      have conserved := flush_handovers_append consumer world waiting
      simpa [accepted, pending, stopped] using conserved

theorem handed_append_pending (registry : Registry κ) (world : ω) (calls : List (Call κ)) :
    handed (registry.turns world calls) ++
        (registryAfter registry (registry.turns world calls)).pending =
      registry.pending ++ accepted calls := by
  induction calls generalizing registry world with
  | nil => simp [turns, handed, handovers, registryAfter, accepted]
  | cons call calls ih =>
      have turn := handed_append_pending_turn registry world call
      simp only [turns, handed_cons, registryAfter]
      rw [List.append_assoc, ih, ← List.append_assoc, turn, List.append_assoc, ← accepted_append]
      rfl

/-- At every moment of every run, with whatever consumers, the journal of what they were handed
followed by what waits is the list of the well-formed fragments submitted so far. -/
theorem journal_append_pending (world : ω) (calls : List (Call (Named ι κ))) (moment : Nat) :
    let run := (empty.turns (Journal.opened world) calls).take moment
    let journal := worldAfter (Journal.opened world) run
    let waiting := (registryAfter empty run).pending
    journal.fragments ++ waiting = accepted (calls.take moment) ∧
      ∀ fragment ∈ journal.fragments ++ waiting, fragment.WellFormed := by
  intro run journal waiting
  have conserved : journal.fragments ++ waiting = accepted (calls.take moment) := by
    have handed := handed_append_pending empty (Journal.opened world) (calls.take moment)
    simp only [journal, waiting, run, take_turns]
    rw [fragments_turns]
    simpa [Journal.opened, Journal.fragments, empty, pending] using handed
  refine ⟨conserved, ?_⟩
  intro fragment mem
  rw [conserved] at mem
  exact wellFormed_of_mem_accepted mem

end TraitIndex.Registry
