import TraitIndex.Proofs.Registry.Steady

/-!
# How far a flush gets

A flush delivers the waiting fragments one after the other, up to the first one that the consumer
fails on.  So it either delivers them all or there is exactly one place where it stops, and what is
behind that place is not touched.  `flush_append_of_takes` goes past the fragments that the consumer
takes, and `flush_of_failsBehind` says all that is left by a flush that stops.
-/

namespace TraitIndex

variable {ι κ ω : Type} [Consumer κ ω]

/-- Holds of a consumer that takes some fragments one after the other and fails on none. -/
def Consumer.Takes (consumer : κ) (world : ω) : List Fragment → Prop
  | [] => True
  | fragment :: fragments =>
      let reaction := accept consumer fragment world
      reaction.failed = false ∧ Takes reaction.consumer reaction.world fragments

/-- Holds of a consumer that takes the fragments `earlier` and fails on the one behind them. -/
def Consumer.FailsBehind (consumer : κ) (world : ω) (earlier : List Fragment)
    (fragment : Fragment) : Prop :=
  Takes consumer world earlier ∧
    let ready := Registry.deliver consumer world earlier
    (accept ready.1 fragment ready.2).failed = true

/-- A consumer takes all that it is given, or there is a first fragment that it fails on. -/
theorem Consumer.takes_or_failsBehind (consumer : κ) (world : ω) (waiting : List Fragment) :
    Takes consumer world waiting ∨
      ∃ earlier fragment behind, waiting = earlier ++ fragment :: behind ∧
        FailsBehind consumer world earlier fragment := by
  induction waiting generalizing consumer world with
  | nil => exact .inl trivial
  | cons fragment waiting ih =>
      rcases reaction : accept consumer fragment world with ⟨failed, after, left⟩
      cases failed with
      | true =>
          refine .inr ⟨[], fragment, waiting, rfl, trivial, ?_⟩
          simp only [Registry.deliver, reaction]
      | false =>
          rcases ih after left with takes | ⟨earlier, other, behind, rfl, takes, fails⟩
          · refine .inl ?_
            simp only [Takes, reaction]
            exact ⟨trivial, takes⟩
          · refine .inr ⟨fragment :: earlier, other, behind, rfl, ?_, ?_⟩
            · simp only [Takes, reaction]
              exact ⟨trivial, takes⟩
            · simp only [Registry.deliver, reaction]
              exact fails

namespace Registry

section Stops

variable {consumer : κ} {world : ω} {earlier : List Fragment} {fragment : Fragment}

/-- What a consumer takes is delivered to it, and the flush goes on behind that. -/
theorem flush_append_of_takes (takes : Consumer.Takes consumer world earlier)
    (behind : List Fragment) :
    flush consumer world (earlier ++ behind) =
      let ready := deliver consumer world earlier
      { flush ready.1 ready.2 behind with
        handovers := (flush consumer world earlier).handovers ++
          (flush ready.1 ready.2 behind).handovers } := by
  induction earlier generalizing consumer world with
  | nil => rfl
  | cons first earlier ih =>
      rcases reaction : Consumer.accept consumer first world with ⟨failed, after, left⟩
      simp only [Consumer.Takes, reaction] at takes
      rcases takes with ⟨rfl, takes⟩
      rw [List.cons_append, flush_cons_of_accepted reaction, flush_cons_of_accepted reaction,
        ih takes, deliver, reaction]
      rfl

theorem remaining_of_takes {waiting : List Fragment}
    (takes : Consumer.Takes consumer world waiting) :
    (flush consumer world waiting).remaining = none := by
  have whole := congrArg Flush.remaining (flush_append_of_takes takes [])
  rwa [List.append_nil] at whole

/-- A flush that stops does so at the fragment that the consumer fails on, in the world that it has
then come to. -/
theorem flush_of_failsBehind (fails : Consumer.FailsBehind consumer world earlier fragment)
    (behind : List Fragment) :
    flush consumer world (earlier ++ fragment :: behind) =
      let ready := deliver consumer world earlier
      let reaction := Consumer.accept ready.1 fragment ready.2
      ⟨reaction.consumer, reaction.world,
        (flush consumer world earlier).handovers ++ [⟨ready.1, fragment, true⟩], some behind⟩ := by
  rcases fails with ⟨takes, failed⟩
  rw [flush_append_of_takes takes]
  generalize deliver consumer world earlier = ready at failed ⊢
  rcases reaction : Consumer.accept ready.1 fragment ready.2 with ⟨_, after, left⟩
  simp only [reaction] at failed
  subst failed
  simp only [flush_cons_of_failed reaction, reaction]

theorem remaining_of_failsBehind (fails : Consumer.FailsBehind consumer world earlier fragment)
    (behind : List Fragment) :
    (flush consumer world (earlier ++ fragment :: behind)).remaining = some behind := by
  rw [flush_of_failsBehind fails]

/-- A flush that is not stopped hands over everything. -/
theorem handed_of_finished {waiting : List Fragment}
    (finished : (flush consumer world waiting).remaining = none) :
    (flush consumer world waiting).handovers.map Handover.fragment = waiting := by
  have conserved := flush_handovers_append consumer world waiting
  rwa [finished, Option.getD_none, List.append_nil] at conserved

theorem handed_of_failsBehind (fails : Consumer.FailsBehind consumer world earlier fragment)
    (behind : List Fragment) :
    (flush consumer world (earlier ++ fragment :: behind)).handovers.map Handover.fragment =
      earlier ++ [fragment] := by
  rw [flush_of_failsBehind fails, List.map_append, handed_of_finished (remaining_of_takes fails.1)]
  rfl

/-- A flush that is not stopped hands over nothing that the consumer fails on. -/
theorem failed_eq_false_of_finished {waiting : List Fragment}
    (finished : (flush consumer world waiting).remaining = none) {handover : Handover κ}
    (mem : handover ∈ (flush consumer world waiting).handovers) : handover.failed = false := by
  induction waiting generalizing consumer world with
  | nil => cases mem
  | cons fragment waiting ih =>
      rcases reaction : Consumer.accept consumer fragment world with ⟨failed, after, left⟩
      cases failed with
      | true => simp [flush_cons_of_failed reaction] at finished
      | false =>
          rw [flush_cons_of_accepted reaction] at finished mem
          rcases List.mem_cons.mp mem with rfl | mem
          · rfl
          · exact ih finished mem

end Stops

section Names

variable {named : Named ι κ} {journal : Journal ι ω} {waiting : List Fragment}

theorem name_of_mem_handovers_flush {handover : Handover (Named ι κ)}
    (mem : handover ∈ (flush named journal waiting).handovers) :
    handover.consumer.name = named.name := by
  induction waiting generalizing named journal with
  | nil => cases mem
  | cons fragment waiting ih =>
      rcases reaction : Consumer.accept named fragment journal with ⟨failed, after, left⟩
      cases failed with
      | true =>
          rw [flush_cons_of_failed reaction, List.mem_singleton] at mem
          rw [mem]
      | false =>
          rw [flush_cons_of_accepted reaction, List.mem_cons] at mem
          rcases mem with rfl | mem
          · rfl
          · rw [ih mem, name_of_accept reaction]

/-- A flush of a named consumer enters what it hands over, under the consumer's name. -/
theorem entries_flush_of_handed {handed : List Fragment}
    (isHanded : (flush named journal waiting).handovers.map Handover.fragment = handed) :
    (flush named journal waiting).world.entries =
      journal.entries ++ handed.map (Prod.mk named.name) := by
  rw [entries_flush, ← isHanded, List.map_map]
  congr 1
  apply List.map_congr_left
  intro handover mem
  exact congrArg (·, handover.fragment) (name_of_mem_handovers_flush mem)

end Names

end Registry

end TraitIndex
