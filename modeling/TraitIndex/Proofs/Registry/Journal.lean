import TraitIndex.Proofs.Registry.History
import TraitIndex.Proofs.Schedule

/-!
# Journals of what consumers are handed

To see what consumers are handed without trusting the turns to report it, consumers are given names
and the world a journal.  Being handed a fragment, a named consumer first enters the fragment with
its own name and then does whatever the consumer does, failing included.  The journal of a run turns
out to be what the turns report.
-/

namespace TraitIndex

variable {ι κ ω : Type}

structure Named (ι κ : Type) where
  name : ι
  consumer : κ

/-- A world with a list of all fragments that were handed over, each with the receiver's name. -/
structure Journal (ι ω : Type) where
  world : ω
  entries : Schedule ι Fragment

instance [Consumer κ ω] : Consumer (Named ι κ) (Journal ι ω) where
  accept named fragment journal :=
    let reaction := Consumer.accept named.consumer fragment journal.world
    ⟨reaction.failed, ⟨named.name, reaction.consumer⟩,
      ⟨reaction.world, journal.entries ++ [(named.name, fragment)]⟩⟩

def Handover.entry (handover : Handover (Named ι κ)) : ι × Fragment :=
  (handover.consumer.name, handover.fragment)

namespace Journal

def opened (world : ω) : Journal ι ω :=
  ⟨world, []⟩

/-- The fragments that the consumer of the given name was handed. -/
def received [DecidableEq ι] (journal : Journal ι ω) (name : ι) : List Fragment :=
  journal.entries.of name

def fragments (journal : Journal ι ω) : List Fragment :=
  journal.entries.map Prod.snd

end Journal

namespace Registry

variable [Consumer κ ω]

theorem name_of_accept {named after : Named ι κ} {journal left : Journal ι ω}
    {fragment : Fragment} {failed : Bool}
    (reaction : Consumer.accept named fragment journal = ⟨failed, after, left⟩) :
    after.name = named.name := by
  have consumer := congrArg Reaction.consumer reaction
  exact (congrArg Named.name consumer).symm

theorem entries_of_accept {named after : Named ι κ} {journal left : Journal ι ω}
    {fragment : Fragment} {failed : Bool}
    (reaction : Consumer.accept named fragment journal = ⟨failed, after, left⟩) :
    left.entries = journal.entries ++ [(named.name, fragment)] := by
  have world := congrArg Reaction.world reaction
  exact (congrArg Journal.entries world).symm

theorem name_flush (named : Named ι κ) (journal : Journal ι ω) (waiting : List Fragment) :
    (flush named journal waiting).consumer.name = named.name := by
  induction waiting generalizing named journal with
  | nil => rfl
  | cons fragment waiting ih =>
      rcases reaction : Consumer.accept named fragment journal with ⟨failed, after, left⟩
      have kept := name_of_accept reaction
      cases failed with
      | true => rw [flush_cons_of_failed reaction, kept]
      | false => rw [flush_cons_of_accepted reaction, ih, kept]

theorem entries_flush (named : Named ι κ) (journal : Journal ι ω) (waiting : List Fragment) :
    (flush named journal waiting).world.entries =
      journal.entries ++ (flush named journal waiting).handovers.map Handover.entry := by
  induction waiting generalizing named journal with
  | nil => simp [flush]
  | cons fragment waiting ih =>
      rcases reaction : Consumer.accept named fragment journal with ⟨failed, after, left⟩
      have entered := entries_of_accept reaction
      cases failed with
      | true => rw [flush_cons_of_failed reaction, entered]; rfl
      | false =>
          rw [flush_cons_of_accepted reaction, ih, entered, List.append_assoc]
          rfl

theorem entries_turn (registry : Registry (Named ι κ)) (journal : Journal ι ω)
    (call : Call (Named ι κ)) :
    (registry.turn journal call).world.entries =
      journal.entries ++ (registry.turn journal call).handovers.map Handover.entry := by
  have turned := turned_turn registry journal call
  generalize registry.turn journal call = turn at turned ⊢
  cases turned with
  | rejected => simp
  | queued => simp
  | forwarded _ accepted => exact entries_of_accept accepted
  | forwardFailed _ accepted => exact entries_of_accept accepted
  | duplicate => simp
  | attached => exact entries_flush _ _ _
  | flushFailed => exact entries_flush _ _ _

/-- A run enters exactly the handovers that its turns report. -/
theorem entries_turns (registry : Registry (Named ι κ)) (journal : Journal ι ω)
    (calls : List (Call (Named ι κ))) :
    (worldAfter journal (registry.turns journal calls)).entries =
      journal.entries ++ (handovers (registry.turns journal calls)).map Handover.entry := by
  induction calls generalizing registry journal with
  | nil => simp [turns, worldAfter, handovers]
  | cons call calls ih =>
      simp only [turns, worldAfter, handovers, List.flatMap_cons, List.map_append]
      rw [ih, entries_turn, List.append_assoc]
      rfl

theorem fragments_turns (registry : Registry (Named ι κ)) (journal : Journal ι ω)
    (calls : List (Call (Named ι κ))) :
    (worldAfter journal (registry.turns journal calls)).fragments =
      journal.fragments ++ handed (registry.turns journal calls) := by
  simp [Journal.fragments, entries_turns, handed, Handover.entry, Function.comp_def]

end Registry

end TraitIndex
