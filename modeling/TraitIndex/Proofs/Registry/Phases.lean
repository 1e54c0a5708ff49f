import TraitIndex.Proofs.Registry.History

/-!
# The two phases of a run

A run begins with a phase in which nothing is attached: fragments queue up, and attachments fail.
If an attachment succeeds, a second phase follows, in which fragments are forwarded to the attached
consumer and further attachments are turned away.  `Waits` and `Serves` are the runs of either
phase, with one constructor for each way in which a call can go there; `phases_turns` says that
there are no other runs.  What holds of whole runs is proved by induction on the two phases.
-/

namespace TraitIndex.Registry

variable {κ ω : Type} [Consumer κ ω]

/-- The runs that leave a registry without a consumer.  At the beginning the fragments `waiting`
wait in the world `world`, and at the end the fragments `rest` in the world `left`. -/
inductive Waits (rest : List Fragment) (left : ω) :
    List Fragment → ω → List (Call κ) → List (Turn κ ω) → Prop where
  | done : Waits rest left rest left [] []
  | rejected {waiting : List Fragment} {world : ω} {fragment : Fragment} {fault : Fragment.Fault}
      {calls : List (Call κ)} {turns : List (Turn κ ω)} (faulty : fragment.fault? = some fault)
      (further : Waits rest left waiting world calls turns) :
      Waits rest left waiting world (.submit fragment :: calls)
        (⟨.refused (.malformed fault), .unattached waiting, world, [],
          [.fragmentRejected fragment.scope fault]⟩ :: turns)
  | queued {waiting : List Fragment} {world : ω} {fragment : Fragment} {calls : List (Call κ)}
      {turns : List (Turn κ ω)} (wellFormed : fragment.WellFormed)
      (further : Waits rest left (waiting ++ [fragment]) world calls turns) :
      Waits rest left waiting world (.submit fragment :: calls)
        (⟨.queued (waiting.length + 1), .unattached (waiting ++ [fragment]), world, [],
          [.fragmentQueued fragment.scope fragment.size (waiting.length + 1)]⟩ :: turns)
  | failed {waiting behind : List Fragment} {world : ω} {consumer : κ} {calls : List (Call κ)}
      {turns : List (Turn κ ω)}
      (stopped : (flush consumer world waiting).remaining = some behind)
      (further : Waits rest left behind (flush consumer world waiting).world calls turns) :
      Waits rest left waiting world (.attach consumer :: calls)
        (⟨.failed, .unattached behind, (flush consumer world waiting).world,
          (flush consumer world waiting).handovers, []⟩ :: turns)

/-- The runs of a registry with a consumer that has taken `count` fragments. -/
inductive Serves : κ → Nat → ω → List (Call κ) → List (Turn κ ω) → Prop where
  | done {consumer : κ} {count : Nat} {world : ω} : Serves consumer count world [] []
  | rejected {consumer : κ} {count : Nat} {world : ω} {fragment : Fragment}
      {fault : Fragment.Fault} {calls : List (Call κ)} {turns : List (Turn κ ω)}
      (faulty : fragment.fault? = some fault)
      (further : Serves consumer count world calls turns) :
      Serves consumer count world (.submit fragment :: calls)
        (⟨.refused (.malformed fault), .attached consumer count, world, [],
          [.fragmentRejected fragment.scope fault]⟩ :: turns)
  | forwarded {consumer after : κ} {count : Nat} {world left : ω} {fragment : Fragment}
      {calls : List (Call κ)} {turns : List (Turn κ ω)} (wellFormed : fragment.WellFormed)
      (accepted : Consumer.accept consumer fragment world = ⟨false, after, left⟩)
      (further : Serves after (count + 1) left calls turns) :
      Serves consumer count world (.submit fragment :: calls)
        (⟨.forwarded, .attached after (count + 1), left, [⟨consumer, fragment, false⟩],
          [.fragmentForwarded fragment.scope fragment.size (count + 1)]⟩ :: turns)
  | failed {consumer after : κ} {count : Nat} {world left : ω} {fragment : Fragment}
      {calls : List (Call κ)} {turns : List (Turn κ ω)} (wellFormed : fragment.WellFormed)
      (accepted : Consumer.accept consumer fragment world = ⟨true, after, left⟩)
      (further : Serves after count left calls turns) :
      Serves consumer count world (.submit fragment :: calls)
        (⟨.failed, .attached after count, left, [⟨consumer, fragment, true⟩], []⟩ :: turns)
  | duplicate {consumer other : κ} {count : Nat} {world : ω} {calls : List (Call κ)}
      {turns : List (Turn κ ω)} (further : Serves consumer count world calls turns) :
      Serves consumer count world (.attach other :: calls)
        (⟨.refused .duplicateAttachment, .attached consumer count, world, [],
          [.duplicateAttachment count]⟩ :: turns)

/-- The turn of an attachment that succeeds. -/
def attachedTurn (consumer : κ) (world : ω) (waiting : List Fragment) : Turn κ ω :=
  let flush := flush consumer world waiting
  ⟨.attached waiting.length, .attached flush.consumer waiting.length, flush.world,
    flush.handovers, [.consumerAttached waiting.length]⟩

/-- A run that is cut at the attachment of `consumer`.  Up to it the registry waits, at last with the
fragments `rest` in the world `left`; from it on the registry serves the consumer. -/
structure Cut (waiting : List Fragment) (world : ω) (consumer : κ) (rest : List Fragment) (left : ω)
    (earlier later : List (Call κ)) (before after : List (Turn κ ω)) : Prop where
  waits : Waits rest left waiting world earlier before
  finished : (flush consumer left rest).remaining = none
  serves : Serves (flush consumer left rest).consumer rest.length (flush consumer left rest).world
    later after

/-- The runs of a registry without a consumer: they wait throughout or are cut at the attachment
that succeeds. -/
inductive Phases (waiting : List Fragment) (world : ω) :
    List (Call κ) → List (Turn κ ω) → Prop where
  | waiting {rest : List Fragment} {left : ω} {calls : List (Call κ)} {turns : List (Turn κ ω)}
      (waits : Waits rest left waiting world calls turns) : Phases waiting world calls turns
  | attached {rest : List Fragment} {left : ω} {consumer : κ} {earlier later : List (Call κ)}
      {before after : List (Turn κ ω)}
      (cut : Cut waiting world consumer rest left earlier later before after) :
      Phases waiting world (earlier ++ .attach consumer :: later)
        (before ++ attachedTurn consumer left rest :: after)

theorem serves_turns (consumer : κ) (count : Nat) (world : ω) (calls : List (Call κ)) :
    Serves consumer count world calls ((attached consumer count).turns world calls) := by
  induction calls generalizing consumer count world with
  | nil => exact .done
  | cons call calls ih =>
      have turned := turned_turn (attached consumer count) world call
      simp only [turns]
      generalize (attached consumer count).turn world call = turn at turned ⊢
      cases turned with
      | rejected faulty => exact .rejected faulty (ih ..)
      | forwarded wellFormed accepted => exact .forwarded wellFormed accepted (ih ..)
      | forwardFailed wellFormed accepted => exact .failed wellFormed accepted (ih ..)
      | duplicate => exact .duplicate (ih ..)

/-- What is called first in a waiting run may be called first in any run. -/
theorem Phases.cons {waiting behind : List Fragment} {world after : ω} {call : Call κ}
    {turn : Turn κ ω} {calls : List (Call κ)} {turns : List (Turn κ ω)}
    (first : ∀ {rest left calls turns}, Waits rest left behind after calls turns →
      Waits rest left waiting world (call :: calls) (turn :: turns))
    (further : Phases behind after calls turns) :
    Phases waiting world (call :: calls) (turn :: turns) := by
  cases further with
  | waiting waits => exact .waiting (first waits)
  | attached cut => exact .attached ⟨first cut.waits, cut.finished, cut.serves⟩

/-- Every run of a registry without a consumer goes through the two phases. -/
theorem phases_turns (waiting : List Fragment) (world : ω) (calls : List (Call κ)) :
    Phases waiting world calls ((unattached waiting : Registry κ).turns world calls) := by
  induction calls generalizing waiting world with
  | nil => exact .waiting .done
  | cons call calls ih =>
      have turned := turned_turn (unattached waiting) world call
      simp only [turns]
      generalize (unattached waiting : Registry κ).turn world call = turn at turned ⊢
      cases turned with
      | rejected faulty => exact (ih ..).cons (.rejected faulty)
      | queued wellFormed => exact (ih ..).cons (.queued wellFormed)
      | flushFailed stopped => exact (ih ..).cons (.failed stopped)
      | attached finished => exact .attached ⟨.done, finished, serves_turns _ _ _ calls⟩

section Ends

variable {rest waiting : List Fragment} {left world : ω} {calls : List (Call κ)}
  {turns : List (Turn κ ω)}

theorem Waits.registryAfter_eq (waits : Waits rest left waiting world calls turns) :
    registryAfter (unattached waiting) turns = unattached rest := by
  induction waits with
  | done => rfl
  | rejected _ _ ih => exact ih
  | queued _ _ ih => exact ih
  | failed _ _ ih => exact ih

theorem Waits.length_eq (waits : Waits rest left waiting world calls turns) :
    calls.length = turns.length := by
  induction waits with
  | done => rfl
  | rejected _ _ ih => exact congrArg (· + 1) ih
  | queued _ _ ih => exact congrArg (· + 1) ih
  | failed _ _ ih => exact congrArg (· + 1) ih

/-- An attached consumer stays attached, and its count grows with each forwarded fragment. -/
theorem Serves.exists_registryAfter {consumer : κ} {count : Nat}
    (serves : Serves consumer count world calls turns) :
    ∃ after, registryAfter (attached consumer count) turns =
      attached after (count + turns.countP fun turn => turn.outcome = .forwarded) := by
  induction serves with
  | done => exact ⟨_, rfl⟩
  | rejected _ _ ih => exact ih
  | forwarded _ _ _ ih =>
      rcases ih with ⟨after, ih⟩
      refine ⟨after, ih.trans ?_⟩
      rw [List.countP_cons_of_pos (by rfl)]
      congr 1
      omega
  | failed _ _ _ ih => exact ih
  | duplicate _ ih => exact ih

end Ends

/-- A run that ends without a consumer waited throughout. -/
theorem exists_waits {waiting : List Fragment} {world : ω} {calls : List (Call κ)}
    (free : (registryAfter (unattached waiting)
      ((unattached waiting : Registry κ).turns world calls)).isAttached = false) :
    ∃ rest left, Waits rest left waiting world calls
      ((unattached waiting : Registry κ).turns world calls) := by
  have phases := phases_turns waiting world calls
  generalize (unattached waiting : Registry κ).turns world calls = turns at phases free ⊢
  cases phases with
  | waiting waits => exact ⟨_, _, waits⟩
  | attached cut =>
      rcases cut.serves.exists_registryAfter with ⟨after, holds⟩
      rw [registryAfter_append, registryAfter] at free
      rw [attachedTurn, holds] at free
      cases free

end TraitIndex.Registry
