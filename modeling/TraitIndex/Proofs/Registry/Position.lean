import TraitIndex.Proofs.Registry.Steady

/-!
# The place of the attachment

A consumer that never fails may attach at any place among the submissions: before it they are
buffered and flushed, after it they are forwarded, and either way the consumer accepts what is well
formed, in order.  Whether a submission is refused is the fragment's own affair.
-/

namespace TraitIndex.Registry

variable {κ ω : Type} [Consumer κ ω]

/-- Submissions with one attachment among them, in front of which the given number stand. -/
def attachedAt (position : Nat) (fragments : List Fragment) (consumer : κ) : List (Call κ) :=
  (fragments.take position).map .submit ++ .attach consumer :: (fragments.drop position).map .submit

def Outcome.refusal? : Outcome → Option Refusal
  | refused refusal => some refusal
  | _ => none

/-- For each submission of a run, in order, its refusal, if it was refused. -/
def refusals (calls : List (Call κ)) (turns : List (Turn κ ω)) : List (Option Refusal) :=
  (calls.zip turns).filterMap fun move =>
    move.1.submitted?.map fun _ => move.2.outcome.refusal?

omit [Consumer κ ω] in
theorem refusals_cons (call : Call κ) (calls : List (Call κ)) (turn : Turn κ ω)
    (turns : List (Turn κ ω)) :
    refusals (call :: calls) (turn :: turns) =
      (call.submitted?.map fun _ => turn.outcome.refusal?).toList ++ refusals calls turns := by
  cases call with
  | submit fragment => rfl
  | attach consumer => rfl

theorem Turned.refusal? {registry : Registry κ} {world : ω} {fragment : Fragment}
    {turn : Turn κ ω} (turned : Turned registry world (.submit fragment) turn) :
    turn.outcome.refusal? = fragment.fault?.map .malformed := by
  cases turned with
  | rejected faulty => rw [faulty]; rfl
  | queued wellFormed => rw [Fragment.WellFormed] at wellFormed; rw [wellFormed]; rfl
  | forwarded wellFormed => rw [Fragment.WellFormed] at wellFormed; rw [wellFormed]; rfl
  | forwardFailed wellFormed => rw [Fragment.WellFormed] at wellFormed; rw [wellFormed]; rfl

/-- In every run submissions are refused for the faults of their fragments, and for nothing else. -/
theorem refusals_turns (registry : Registry κ) (world : ω) (calls : List (Call κ)) :
    refusals calls (registry.turns world calls) =
      (submissions calls).map fun fragment => fragment.fault?.map .malformed := by
  induction calls generalizing registry world with
  | nil => rfl
  | cons call calls ih =>
      rw [turns, refusals_cons, ih]
      cases call with
      | submit fragment =>
          rw [submissions_cons_submit, List.map_cons,
            ← (turned_turn registry world (.submit fragment)).refusal?]
          rfl
      | attach consumer => rfl

omit [Consumer κ ω] in
@[simp]
theorem submissions_map_submit (fragments : List Fragment) :
    submissions (fragments.map (Call.submit (κ := κ))) = fragments := by
  simp [submissions, List.filterMap_map, Function.comp_def, Call.submitted?]

omit [Consumer κ ω] in
@[simp]
theorem submissions_attachedAt (position : Nat) (fragments : List Fragment) (consumer : κ) :
    submissions (attachedAt position fragments consumer) = fragments := by
  rw [attachedAt, submissions_append, submissions_cons_attach, submissions_map_submit,
    submissions_map_submit, List.take_append_drop]

/-- Wherever it attaches, a consumer that never fails is delivered all that is well formed. -/
theorem turns_attachedAt {consumer : κ} (steady : Consumer.NeverFails consumer) (position : Nat)
    (fragments : List Fragment) (world : ω) :
    let run := (empty : Registry κ).turns world (attachedAt position fragments consumer)
    let wellFormed := fragments.filter fun fragment => fragment.WellFormed
    registryAfter empty run = attached (deliver consumer world wellFormed).1 wellFormed.length ∧
      worldAfter world run = (deliver consumer world wellFormed).2 := by
  have split : (fragments.take position).filter (fun fragment => fragment.WellFormed) ++
      accepted ((fragments.drop position).map (Call.submit (κ := κ))) =
        fragments.filter fun fragment => fragment.WellFormed := by
    rw [accepted, submissions_map_submit, ← List.filter_append, List.take_append_drop]
  have around := turns_around_attach steady (fragments.take position) world
    ((fragments.drop position).map .submit)
  simp only [split] at around
  exact around

section Journals

variable {ι : Type} [DecidableEq ι] (name : ι) (journal : Journal ι ω)

/-- Holds of two runs of a fresh registry that leave the same behind: the consumer of the given name
attached in the same state, with the same count of deliveries, having received the same fragments in
the same order.  They refuse the same submissions for the same reasons. -/
structure SameEnd (first second : List (Call (Named ι κ))) : Prop where
  registry : ∃ named count, named.name = name ∧
    registryAfter empty ((empty : Registry (Named ι κ)).turns journal first) =
      attached named count ∧
    registryAfter empty ((empty : Registry (Named ι κ)).turns journal second) =
      attached named count
  world : worldAfter journal ((empty : Registry (Named ι κ)).turns journal first) =
    worldAfter journal ((empty : Registry (Named ι κ)).turns journal second)
  received :
    (worldAfter journal ((empty : Registry (Named ι κ)).turns journal first)).received name =
      (worldAfter journal ((empty : Registry (Named ι κ)).turns journal second)).received name
  refusals : refusals first ((empty : Registry (Named ι κ)).turns journal first) =
    refusals second ((empty : Registry (Named ι κ)).turns journal second)

omit [DecidableEq ι] in
theorem name_deliver (named : Named ι κ) (journal : Journal ι ω) (fragments : List Fragment) :
    (deliver named journal fragments).1.name = named.name := by
  induction fragments generalizing named journal with
  | nil => rfl
  | cons fragment fragments ih => exact ih _ _

/-- It makes no difference where a consumer that never fails attaches. -/
theorem sameEnd_attachedAt {consumer : κ} (steady : Consumer.NeverFails consumer)
    (fragments : List Fragment) (early late : Nat) :
    SameEnd name journal (attachedAt early fragments ⟨name, consumer⟩)
      (attachedAt late fragments (⟨name, consumer⟩ : Named ι κ)) := by
  rcases turns_attachedAt (steady.named name) early fragments journal with ⟨first, firstWorld⟩
  rcases turns_attachedAt (steady.named name) late fragments journal with ⟨second, secondWorld⟩
  refine ⟨⟨_, _, name_deliver _ _ _, first, second⟩, ?_, ?_, ?_⟩
  · rw [firstWorld, secondWorld]
  · rw [firstWorld, secondWorld]
  · rw [refusals_turns, refusals_turns, submissions_attachedAt, submissions_attachedAt]

end Journals

end TraitIndex.Registry
