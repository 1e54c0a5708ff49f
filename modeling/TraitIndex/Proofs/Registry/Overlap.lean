import TraitIndex.Proofs.Registry.Turn
import TraitIndex.Proofs.Schedule

/-!
# Calls that overlap

A registry is locked while a call is made on it, so calls on one registry come one after the other.
Calls on different registries may overlap, and the world is theirs in turn.  A submission hands over
one fragment at most, so it is a single move.  An attachment hands over one waiting fragment after
the other, and between two of them other registries may move; here it is taken apart into a move for
each fragment.  If nothing comes in between, the moves come to what `attach` does.
-/

namespace TraitIndex

namespace Registry

variable {κ ω : Type}

/-- A registry at rest, or one that is locked by an attachment. -/
inductive Phase (κ : Type) where
  | resting (registry : Registry κ)
  /-- The consumer took so many fragments, and has yet to take those that still wait. -/
  | attaching (consumer : κ) (taken : Nat) (waiting : List Fragment)

inductive Move (κ : Type) where
  | call (call : Call κ)
  /-- The attachment that is under way goes on with the next fragment, or ends. -/
  | proceed

/-- What a move comes to.  There is no outcome as long as a call goes on, and none if the registry
is locked or nothing is under way. -/
structure Progress (κ ω : Type) where
  outcome : Option Outcome
  phase : Phase κ
  world : ω
  handovers : List (Handover κ)
  notices : List Notice

def Turn.progress (turn : Turn κ ω) : Progress κ ω :=
  ⟨some turn.outcome, .resting turn.registry, turn.world, turn.handovers, turn.notices⟩

/-- What a flush comes to if the consumer, unless it failed, has taken so many fragments. -/
def Flush.progress (flushed : Flush κ ω) (taken : Nat) : Progress κ ω :=
  match flushed.remaining with
  | none =>
      ⟨some (.attached taken), .resting (attached flushed.consumer taken), flushed.world,
        flushed.handovers, [.consumerAttached taken]⟩
  | some rest =>
      ⟨some .failed, .resting (unattached rest), flushed.world, flushed.handovers, []⟩

def Phase.still (phase : Phase κ) (world : ω) : Progress κ ω :=
  ⟨none, phase, world, [], []⟩

variable [Consumer κ ω]

/-- Makes a call on a registry at rest. -/
def start (registry : Registry κ) (world : ω) (call : Call κ) : Progress κ ω :=
  match registry, call with
  | unattached waiting, .attach consumer => (Phase.attaching consumer 0 waiting).still world
  | registry, call => (registry.turn world call).progress

/-- Hands the next of the waiting fragments to the consumer that is being attached. -/
def proceed (consumer : κ) (taken : Nat) (world : ω) : List Fragment → Progress κ ω
  | [] =>
      ⟨some (.attached taken), .resting (attached consumer taken), world, [],
        [.consumerAttached taken]⟩
  | fragment :: waiting =>
      let reaction := Consumer.accept consumer fragment world
      let handover : Handover κ := ⟨consumer, fragment, reaction.failed⟩
      if reaction.failed then
        ⟨some .failed, .resting (unattached waiting), reaction.world, [handover], []⟩
      else
        ⟨none, .attaching reaction.consumer (taken + 1) waiting, reaction.world, [handover], []⟩

namespace Phase

def move (phase : Phase κ) (world : ω) (move : Move κ) : Progress κ ω :=
  match phase, move with
  | resting registry, .call call => start registry world call
  | attaching consumer taken waiting, .proceed => proceed consumer taken world waiting
  | phase, _ => phase.still world

/-- What a move can come to.  Calls go the ways of `Turned`, except that an attachment to a
registry without a consumer is only started. -/
inductive Moved : Phase κ → ω → Move κ → Progress κ ω → Prop where
  | locked {consumer : κ} {taken : Nat} {waiting : List Fragment} {world : ω} {call : Call κ} :
      Moved (attaching consumer taken waiting) world (.call call)
        ((attaching consumer taken waiting).still world)
  | idle {registry : Registry κ} {world : ω} :
      Moved (resting registry) world .proceed ((resting registry).still world)
  | started {consumer : κ} {waiting : List Fragment} {world : ω} :
      Moved (resting (unattached waiting)) world (.call (.attach consumer))
        ((attaching consumer 0 waiting).still world)
  | called {registry : Registry κ} {world : ω} {call : Call κ} {turn : Turn κ ω}
      (turned : Turned registry world call turn)
      (atOnce : ∀ consumer, call = .attach consumer → registry.isAttached = true) :
      Moved (resting registry) world (.call call) turn.progress
  | ended {consumer : κ} {taken : Nat} {world : ω} :
      Moved (attaching consumer taken []) world .proceed
        ⟨some (.attached taken), resting (attached consumer taken), world, [],
          [.consumerAttached taken]⟩
  | took {consumer after : κ} {taken : Nat} {world left : ω} {fragment : Fragment}
      {waiting : List Fragment}
      (accepted : Consumer.accept consumer fragment world = ⟨false, after, left⟩) :
      Moved (attaching consumer taken (fragment :: waiting)) world .proceed
        ⟨none, attaching after (taken + 1) waiting, left, [⟨consumer, fragment, false⟩], []⟩
  | failed {consumer after : κ} {taken : Nat} {world left : ω} {fragment : Fragment}
      {waiting : List Fragment}
      (accepted : Consumer.accept consumer fragment world = ⟨true, after, left⟩) :
      Moved (attaching consumer taken (fragment :: waiting)) world .proceed
        ⟨some .failed, resting (unattached waiting), left, [⟨consumer, fragment, true⟩], []⟩

theorem moved_start (registry : Registry κ) (world : ω) (call : Call κ) :
    Moved (resting registry) world (.call call) (start registry world call) := by
  cases call with
  | submit fragment =>
      have turned := turned_turn registry world (.submit fragment)
      cases registry <;> exact .called turned nofun
  | attach consumer =>
      cases registry with
      | unattached waiting => exact .started
      | attached attached count => exact .called .duplicate fun _ _ => rfl

theorem moved_proceed (consumer : κ) (taken : Nat) (world : ω) (waiting : List Fragment) :
    Moved (attaching consumer taken waiting) world .proceed
      (proceed consumer taken world waiting) := by
  cases waiting with
  | nil => exact .ended
  | cons fragment waiting =>
      rcases reaction : Consumer.accept consumer fragment world with ⟨failed, after, left⟩
      cases failed with
      | true =>
          simp only [proceed, reaction, if_true]
          exact .failed reaction
      | false =>
          simp only [proceed, reaction, Bool.false_eq_true, if_false]
          exact .took reaction

/-- Every move goes one of the ways of `Moved`. -/
theorem moved_move (phase : Phase κ) (world : ω) (move : Move κ) :
    Moved phase world move (phase.move world move) := by
  cases phase with
  | resting registry =>
      cases move with
      | call call => exact moved_start registry world call
      | proceed => exact .idle
  | attaching consumer taken waiting =>
      cases move with
      | call call => exact .locked
      | proceed => exact moved_proceed consumer taken world waiting

/-- The moves of one registry while no other moves. -/
def alone (phase : Phase κ) (world : ω) : List (Move κ) → Progress κ ω
  | [] => phase.still world
  | move :: moves =>
      let first := phase.move world move
      let rest := first.phase.alone first.world moves
      ⟨first.outcome <|> rest.outcome, rest.phase, rest.world, first.handovers ++ rest.handovers,
        first.notices ++ rest.notices⟩

theorem alone_resting (registry : Registry κ) (world : ω) (moves : Nat) :
    (resting registry).alone world (List.replicate moves .proceed) =
      (resting registry).still world := by
  induction moves with
  | zero => rfl
  | succ moves ih =>
      rw [List.replicate_succ, alone]
      exact ih

/-- An attachment that nothing comes between is a flush. -/
theorem alone_attaching (consumer : κ) (taken : Nat) (world : ω) (waiting : List Fragment) :
    (attaching consumer taken waiting).alone world
        (List.replicate (waiting.length + 1) .proceed) =
      (flush consumer world waiting).progress (taken + waiting.length) := by
  induction waiting generalizing consumer taken world with
  | nil => rfl
  | cons fragment waiting ih =>
      rcases reaction : Consumer.accept consumer fragment world with ⟨failed, after, left⟩
      cases failed with
      | true =>
          rw [flush_cons_of_failed reaction, List.replicate_succ, alone]
          simp [move, proceed, reaction, alone_resting, still, Flush.progress]
      | false =>
          have rest := ih after (taken + 1) left
          rw [flush_cons_of_accepted reaction, List.replicate_succ, alone]
          simp only [move, proceed, reaction, Bool.false_eq_true, if_false, List.length_cons, rest,
            Flush.progress]
          rw [Nat.add_right_comm, Nat.add_assoc]
          split <;> rfl

theorem progress_attach_unattached (waiting : List Fragment) (world : ω) (consumer : κ) :
    ((unattached waiting).attach world consumer).progress =
      (flush consumer world waiting).progress waiting.length := by
  cases remaining : (flush consumer world waiting).remaining with
  | none => simp only [attach, Flush.progress, Turn.progress, remaining]
  | some rest => simp only [attach, Flush.progress, Turn.progress, remaining]

/-- An attachment that nothing comes between does what `attach` does. -/
theorem alone_attach (registry : Registry κ) (world : ω) (consumer : κ) :
    (resting registry).alone world
        (.call (.attach consumer) :: List.replicate (registry.pending.length + 1) .proceed) =
      (registry.attach world consumer).progress := by
  rw [alone]
  cases registry with
  | attached attached count =>
      simp only [move, start, Turn.progress, alone_resting]
      rfl
  | unattached waiting =>
      have flushed := alone_attaching consumer 0 world waiting
      simp only [move, start, still, pending]
      rw [flushed, progress_attach_unattached, Nat.zero_add]
      rfl

end Phase

end Registry

/-- Registries in one world, each at rest or locked by an attachment. -/
structure Crowd (ρ κ ω : Type) where
  phases : ρ → Registry.Phase κ
  world : ω

namespace Crowd

open Registry

variable {ρ κ ω : Type}

def fresh (world : ω) : Crowd ρ κ ω :=
  ⟨fun _ => .resting .empty, world⟩

variable [Consumer κ ω]

def move (crowd : Crowd ρ κ ω) (move : ρ × Move κ) : Progress κ ω :=
  (crowd.phases move.1).move crowd.world move.2

variable [DecidableEq ρ]

def next (crowd : Crowd ρ κ ω) (move : ρ × Move κ) : Crowd ρ κ ω where
  phases := Function.update crowd.phases move.1 (crowd.move move).phase
  world := (crowd.move move).world

def after (crowd : Crowd ρ κ ω) : Schedule ρ (Move κ) → Crowd ρ κ ω
  | [] => crowd
  | move :: moves => (crowd.next move).after moves

/-- What is handed over when some moves are made, in the order of time. -/
def handovers (crowd : Crowd ρ κ ω) : Schedule ρ (Move κ) → List (Handover κ)
  | [] => []
  | move :: moves => (crowd.move move).handovers ++ (crowd.next move).handovers moves

/-- The moves of one registry change nothing but it and the world, and are those that it makes
alone. -/
theorem after_alone (crowd : Crowd ρ κ ω) (which : ρ) (moves : List (Move κ)) :
    let alone := (crowd.phases which).alone crowd.world moves
    crowd.after (moves.map (Prod.mk which)) =
        ⟨Function.update crowd.phases which alone.phase, alone.world⟩ ∧
      crowd.handovers (moves.map (Prod.mk which)) = alone.handovers := by
  induction moves generalizing crowd with
  | nil => simp [after, handovers, Phase.alone, Phase.still]
  | cons move moves ih =>
      have rest := ih (crowd.next (which, move))
      simp only [next, Crowd.move, Function.update_self, Function.update_idem] at rest
      simp only [List.map_cons, after, handovers, Phase.alone]
      exact ⟨rest.1, congrArg _ rest.2⟩

/-- So an attachment whose moves follow on each other is a call of `attach`. -/
theorem after_attach {crowd : Crowd ρ κ ω} {which : ρ} {registry : Registry κ}
    (resting : crowd.phases which = .resting registry) (consumer : κ) :
    let moves : List (Move κ) :=
      .call (.attach consumer) :: List.replicate (registry.pending.length + 1) .proceed
    let turn := registry.attach crowd.world consumer
    crowd.after (moves.map (Prod.mk which)) =
        ⟨Function.update crowd.phases which (.resting turn.registry), turn.world⟩ ∧
      crowd.handovers (moves.map (Prod.mk which)) = turn.handovers := by
  intro moves turn
  have alone : (crowd.phases which).alone crowd.world moves = turn.progress := by
    rw [resting]
    exact Phase.alone_attach registry crowd.world consumer
  rcases crowd.after_alone which moves with ⟨left, handed⟩
  rw [alone] at left handed
  exact ⟨left, handed⟩

/-- A consumer that comes to a registry which has one leaves no trace. -/
theorem next_of_attached {crowd : Crowd ρ κ ω} {which : ρ} {attached : κ} {count : Nat}
    (held : crowd.phases which = .resting (.attached attached count)) (consumer : κ) :
    crowd.next (which, .call (.attach consumer)) = crowd ∧
      (crowd.move (which, .call (.attach consumer))).outcome =
        some (.refused .duplicateAttachment) ∧
      (crowd.move (which, .call (.attach consumer))).handovers = [] := by
  have moved : crowd.move (which, .call (.attach consumer)) =
      ⟨some (.refused .duplicateAttachment), crowd.phases which, crowd.world, [],
        [.duplicateAttachment count]⟩ := by
    rw [move, held]
    rfl
  refine ⟨?_, by rw [moved], by rw [moved]⟩
  rw [next, moved, Function.update_eq_self]

/-- What a move adds to a quantity of its registry it adds to the total. -/
theorem sum_next [Fintype ρ] (measure : Phase κ → Nat) {more : Nat} {crowd : Crowd ρ κ ω}
    {move : ρ × Move κ}
    (moved : measure (crowd.move move).phase = measure (crowd.phases move.1) + more) :
    ∑ which, measure ((crowd.next move).phases which) =
      ∑ which, measure (crowd.phases which) + more := by
  have others : ∀ which ∈ Finset.univ.erase move.1,
      measure ((crowd.next move).phases which) = measure (crowd.phases which) := by
    intro which mem
    exact congrArg measure (Function.update_of_ne (Finset.ne_of_mem_erase mem) _ _)
  have own : measure ((crowd.next move).phases move.1) = measure (crowd.phases move.1) + more := by
    rw [← moved]
    exact congrArg measure (Function.update_self _ _ _)
  rw [← Finset.add_sum_erase _ _ (Finset.mem_univ move.1), own, Finset.sum_congr rfl others,
    ← Finset.add_sum_erase _ (fun which => measure (crowd.phases which))
      (Finset.mem_univ move.1)]
  exact Nat.add_right_comm _ _ _

end Crowd

end TraitIndex
