import TraitIndex.Registry.Run

/-!
# What a call can come to

`Turned` lists the seven ways in which a call to a registry can go, each with everything that the
call leaves behind.  `turned_turn` says that there is no other way, so facts about calls are proved
by cases on `Turned` and never by unfolding `submit` and `attach`.  The two ways of an attachment
rest on what a flush does to the waiting fragments.
-/

namespace TraitIndex.Registry

variable {κ ω : Type} [Consumer κ ω]

theorem flush_cons_of_failed {consumer after : κ} {world left : ω} {fragment : Fragment}
    (reaction : Consumer.accept consumer fragment world = ⟨true, after, left⟩)
    (waiting : List Fragment) :
    flush consumer world (fragment :: waiting) =
      ⟨after, left, [⟨consumer, fragment, true⟩], some waiting⟩ := by
  simp [flush, reaction]

theorem flush_cons_of_accepted {consumer after : κ} {world left : ω} {fragment : Fragment}
    (reaction : Consumer.accept consumer fragment world = ⟨false, after, left⟩)
    (waiting : List Fragment) :
    flush consumer world (fragment :: waiting) =
      { flush after left waiting with
        handovers := ⟨consumer, fragment, false⟩ :: (flush after left waiting).handovers } := by
  simp [flush, reaction]

/-- A flush hands over the waiting fragments in order, and what it does not hand over remains. -/
theorem flush_handovers_append (consumer : κ) (world : ω) (waiting : List Fragment) :
    (flush consumer world waiting).handovers.map Handover.fragment ++
      (flush consumer world waiting).remaining.getD [] = waiting := by
  induction waiting generalizing consumer world with
  | nil => rfl
  | cons fragment waiting ih =>
      rcases reaction : Consumer.accept consumer fragment world with ⟨failed, after, left⟩
      cases failed with
      | true =>
          rw [flush_cons_of_failed reaction]
          rfl
      | false =>
          rw [flush_cons_of_accepted reaction]
          exact congrArg (fragment :: ·) (ih after left)

inductive Turned : Registry κ → ω → Call κ → Turn κ ω → Prop where
  | rejected {registry : Registry κ} {world : ω} {fragment : Fragment} {fault : Fragment.Fault}
      (faulty : fragment.fault? = some fault) :
      Turned registry world (.submit fragment)
        ⟨.refused (.malformed fault), registry, world, [],
          [.fragmentRejected fragment.scope fault]⟩
  | queued {waiting : List Fragment} {world : ω} {fragment : Fragment}
      (wellFormed : fragment.WellFormed) :
      Turned (.unattached waiting) world (.submit fragment)
        ⟨.queued (waiting.length + 1), .unattached (waiting ++ [fragment]), world, [],
          [.fragmentQueued fragment.scope fragment.size (waiting.length + 1)]⟩
  | forwarded {consumer after : κ} {count : Nat} {world worldAfter : ω} {fragment : Fragment}
      (wellFormed : fragment.WellFormed)
      (accepted : Consumer.accept consumer fragment world = ⟨false, after, worldAfter⟩) :
      Turned (.attached consumer count) world (.submit fragment)
        ⟨.forwarded, .attached after (count + 1), worldAfter, [⟨consumer, fragment, false⟩],
          [.fragmentForwarded fragment.scope fragment.size (count + 1)]⟩
  | forwardFailed {consumer after : κ} {count : Nat} {world worldAfter : ω} {fragment : Fragment}
      (wellFormed : fragment.WellFormed)
      (accepted : Consumer.accept consumer fragment world = ⟨true, after, worldAfter⟩) :
      Turned (.attached consumer count) world (.submit fragment)
        ⟨.failed, .attached after count, worldAfter, [⟨consumer, fragment, true⟩], []⟩
  | duplicate {attached consumer : κ} {count : Nat} {world : ω} :
      Turned (.attached attached count) world (.attach consumer)
        ⟨.refused .duplicateAttachment, .attached attached count, world, [],
          [.duplicateAttachment count]⟩
  | attached {consumer : κ} {waiting : List Fragment} {world : ω}
      (finished : (flush consumer world waiting).remaining = none) :
      Turned (.unattached waiting) world (.attach consumer)
        ⟨.attached waiting.length,
          .attached (flush consumer world waiting).consumer waiting.length,
          (flush consumer world waiting).world, (flush consumer world waiting).handovers,
          [.consumerAttached waiting.length]⟩
  | flushFailed {consumer : κ} {waiting rest : List Fragment} {world : ω}
      (stopped : (flush consumer world waiting).remaining = some rest) :
      Turned (.unattached waiting) world (.attach consumer)
        ⟨.failed, .unattached rest, (flush consumer world waiting).world,
          (flush consumer world waiting).handovers, []⟩

theorem turned_submit (registry : Registry κ) (world : ω) (fragment : Fragment) :
    Turned registry world (.submit fragment) (registry.submit world fragment) := by
  cases faulty : fragment.fault? with
  | some fault =>
      simp only [submit, faulty]
      exact .rejected faulty
  | none =>
      cases registry with
      | unattached waiting =>
          simp only [submit, faulty]
          exact .queued faulty
      | attached consumer count =>
          rcases reaction : Consumer.accept consumer fragment world with ⟨failed, after, left⟩
          cases failed with
          | false =>
              simp only [submit, faulty, reaction, Bool.false_eq_true, if_false]
              exact .forwarded faulty reaction
          | true =>
              simp only [submit, faulty, reaction, if_true]
              exact .forwardFailed faulty reaction

theorem turned_attach (registry : Registry κ) (world : ω) (consumer : κ) :
    Turned registry world (.attach consumer) (registry.attach world consumer) := by
  cases registry with
  | attached attached count => exact .duplicate
  | unattached waiting =>
      cases remaining : (flush consumer world waiting).remaining with
      | none =>
          simp only [attach, remaining]
          exact .attached remaining
      | some rest =>
          simp only [attach, remaining]
          exact .flushFailed remaining

/-- Every call goes one of the ways of `Turned`. -/
theorem turned_turn (registry : Registry κ) (world : ω) (call : Call κ) :
    Turned registry world call (registry.turn world call) := by
  cases call with
  | submit fragment => exact turned_submit registry world fragment
  | attach consumer => exact turned_attach registry world consumer

/-- The way that a call goes determines its turn. -/
theorem Turned.eq_turn {registry : Registry κ} {world : ω} {call : Call κ} {turn : Turn κ ω}
    (turned : Turned registry world call turn) : registry.turn world call = turn := by
  cases turned with
  | rejected faulty => simp [Registry.turn, submit, faulty]
  | queued wellFormed =>
      rw [Fragment.WellFormed] at wellFormed
      simp [Registry.turn, submit, wellFormed]
  | forwarded wellFormed accepted =>
      rw [Fragment.WellFormed] at wellFormed
      simp [Registry.turn, submit, wellFormed, accepted]
  | forwardFailed wellFormed accepted =>
      rw [Fragment.WellFormed] at wellFormed
      simp [Registry.turn, submit, wellFormed, accepted]
  | duplicate => rfl
  | attached finished => simp [Registry.turn, attach, finished]
  | flushFailed stopped => simp [Registry.turn, attach, stopped]

end TraitIndex.Registry
