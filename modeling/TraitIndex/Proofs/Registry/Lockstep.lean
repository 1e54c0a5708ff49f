import Mathlib.Data.List.Forall2
import TraitIndex.Proofs.Registry.Group
import TraitIndex.Proofs.Registry.Journal

/-!
# Two runs in lockstep

Two runs are compared whose calls correspond to each other: fragments, consumers and worlds are
related, and accepting related fragments keeps the relations and fails in both runs or in neither.
If besides that related fragments have the same fault and the same number of entries, every call
goes the same way in both runs.  Its outcomes are equal, and its notices may differ in the scopes of
related fragments only.

What may differ between two runs is thus settled by the relations alone; the induction over the
calls is done here once.
-/

namespace TraitIndex.Registry

/-- What is told of related items is equal if the relation says so of any two. -/
theorem map_eq_of_forall₂ {α α' β : Type} {tell : α → β} {tell' : α' → β}
    {related : α → α' → Prop} {items : List α} {items' : List α'}
    (lists : List.Forall₂ related items items')
    (same : ∀ item item', related item item' → tell item = tell' item') :
    items.map tell = items'.map tell' := by
  rw [← List.forall₂_eq_eq_eq, List.forall₂_map_left_iff, List.forall₂_map_right_iff]
  exact lists.imp same

/-- Relations between the fragments, the consumers and the worlds of two runs which accepting a
fragment keeps. -/
structure Lockstep (κ ω : Type) [Consumer κ ω] where
  fragments : Fragment → Fragment → Prop
  consumers : κ → κ → Prop
  worlds : ω → ω → Prop
  fault_eq : ∀ {first second : Fragment}, fragments first second → first.fault? = second.fault?
  size_eq : ∀ {first second : Fragment}, fragments first second → first.size = second.size
  accept : ∀ {consumer consumer' : κ} {fragment fragment' : Fragment} {world world' : ω},
    consumers consumer consumer' → fragments fragment fragment' → worlds world world' →
      let reaction := Consumer.accept consumer fragment world
      let reaction' := Consumer.accept consumer' fragment' world'
      reaction.failed = reaction'.failed ∧ consumers reaction.consumer reaction'.consumer ∧
        worlds reaction.world reaction'.world

namespace Lockstep

variable {κ ω : Type} [Consumer κ ω] (lockstep : Lockstep κ ω)

/-- Registries that hold related fragments, or related consumers and the same count. -/
inductive Registries : Registry κ → Registry κ → Prop where
  | unattached {waiting waiting' : List Fragment}
      (related : List.Forall₂ lockstep.fragments waiting waiting') :
      Registries (.unattached waiting) (.unattached waiting')
  | attached {consumer consumer' : κ} (related : lockstep.consumers consumer consumer')
      (count : Nat) : Registries (.attached consumer count) (.attached consumer' count)

inductive Calls : Call κ → Call κ → Prop where
  | submit {fragment fragment' : Fragment} (related : lockstep.fragments fragment fragment') :
      Calls (.submit fragment) (.submit fragment')
  | attach {consumer consumer' : κ} (related : lockstep.consumers consumer consumer') :
      Calls (.attach consumer) (.attach consumer')

/-- Equal notices, but for the scopes of related fragments. -/
inductive Notices : Notice → Notice → Prop where
  | rejected {fragment fragment' : Fragment} (related : lockstep.fragments fragment fragment')
      (fault : Fragment.Fault) :
      Notices (.fragmentRejected fragment.scope fault) (.fragmentRejected fragment'.scope fault)
  | queued {fragment fragment' : Fragment} (related : lockstep.fragments fragment fragment')
      (symbols pending : Nat) :
      Notices (.fragmentQueued fragment.scope symbols pending)
        (.fragmentQueued fragment'.scope symbols pending)
  | forwarded {fragment fragment' : Fragment} (related : lockstep.fragments fragment fragment')
      (symbols delivered : Nat) :
      Notices (.fragmentForwarded fragment.scope symbols delivered)
        (.fragmentForwarded fragment'.scope symbols delivered)
  | duplicate (delivered : Nat) :
      Notices (.duplicateAttachment delivered) (.duplicateAttachment delivered)
  | attached (flushed : Nat) : Notices (.consumerAttached flushed) (.consumerAttached flushed)

structure Flushes (first second : Flush κ ω) : Prop where
  consumer : lockstep.consumers first.consumer second.consumer
  world : lockstep.worlds first.world second.world
  remaining : Option.Rel (List.Forall₂ lockstep.fragments) first.remaining second.remaining

structure Turns (first second : Turn κ ω) : Prop where
  outcome : first.outcome = second.outcome
  registry : lockstep.Registries first.registry second.registry
  world : lockstep.worlds first.world second.world
  notices : List.Forall₂ lockstep.Notices first.notices second.notices

variable {lockstep} {registry registry' : Registry κ} {world world' : ω}

section Registries

variable (registries : lockstep.Registries registry registry')

include registries

theorem Registries.isAttached_eq : registry.isAttached = registry'.isAttached := by
  cases registries <;> rfl

theorem Registries.pending :
    List.Forall₂ lockstep.fragments registry.pending registry'.pending := by
  cases registries with
  | unattached related => exact related
  | attached => exact .nil

theorem Registries.delivered_eq : registry.delivered = registry'.delivered := by
  cases registries <;> rfl

theorem Registries.describe_eq : registry.describe = registry'.describe := by
  unfold describe
  cases registries with
  | unattached related => dsimp only; rw [related.length_eq]
  | attached => dsimp only

end Registries

theorem wellFormed {fragment fragment' : Fragment}
    (related : lockstep.fragments fragment fragment') (wellFormed : fragment.WellFormed) :
    fragment'.WellFormed :=
  (lockstep.fault_eq related).symm.trans wellFormed

/-- A consumer that accepts a fragment in one run reacts alike in the other. -/
theorem reaction {consumer consumer' after : κ} {fragment fragment' : Fragment} {failed : Bool}
    {left : ω} (consumers : lockstep.consumers consumer consumer')
    (fragments : lockstep.fragments fragment fragment') (worlds : lockstep.worlds world world')
    (reaction : Consumer.accept consumer fragment world = ⟨failed, after, left⟩) :
    ∃ after' left', Consumer.accept consumer' fragment' world' = ⟨failed, after', left'⟩ ∧
      lockstep.consumers after after' ∧ lockstep.worlds left left' := by
  have accepted := lockstep.accept consumers fragments worlds
  rcases reaction' : Consumer.accept consumer' fragment' world' with ⟨failed', after', left'⟩
  rw [reaction, reaction'] at accepted
  rcases accepted with ⟨rfl, consumersAfter, worldsAfter⟩
  exact ⟨after', left', rfl, consumersAfter, worldsAfter⟩

theorem flush {consumer consumer' : κ} {waiting waiting' : List Fragment}
    (related : List.Forall₂ lockstep.fragments waiting waiting')
    (consumers : lockstep.consumers consumer consumer') (worlds : lockstep.worlds world world') :
    lockstep.Flushes (Registry.flush consumer world waiting)
      (Registry.flush consumer' world' waiting') := by
  induction related generalizing consumer consumer' world world' with
  | nil => exact ⟨consumers, worlds, .none⟩
  | @cons fragment fragment' waiting waiting' first rest ih =>
      rcases accepted : Consumer.accept consumer fragment world with ⟨failed, after, left⟩
      rcases lockstep.reaction consumers first worlds accepted with
        ⟨after', left', accepted', consumersAfter, worldsAfter⟩
      cases failed with
      | true =>
          rw [flush_cons_of_failed accepted, flush_cons_of_failed accepted']
          exact ⟨consumersAfter, worldsAfter, .some rest⟩
      | false =>
          rw [flush_cons_of_accepted accepted, flush_cons_of_accepted accepted']
          rcases ih consumersAfter worldsAfter with ⟨consumers, worlds, remaining⟩
          exact ⟨consumers, worlds, remaining⟩

theorem Flushes.finished {first second : Flush κ ω} (flushes : lockstep.Flushes first second)
    (finished : first.remaining = none) : second.remaining = none := by
  have remaining := flushes.remaining
  rw [finished] at remaining
  cases left : second.remaining with
  | none => rfl
  | some rest => rw [left] at remaining; cases remaining

theorem Flushes.stopped {first second : Flush κ ω} {rest : List Fragment}
    (flushes : lockstep.Flushes first second) (stopped : first.remaining = some rest) :
    ∃ rest', second.remaining = some rest' ∧ List.Forall₂ lockstep.fragments rest rest' := by
  have remaining := flushes.remaining
  rw [stopped] at remaining
  cases left : second.remaining with
  | none => rw [left] at remaining; cases remaining
  | some rest' =>
      rw [left] at remaining
      rcases remaining with ⟨related⟩
      exact ⟨rest', rfl, related⟩

/-- Calls that correspond to each other go the same way. -/
theorem turn {call call' : Call κ} (registries : lockstep.Registries registry registry')
    (worlds : lockstep.worlds world world') (calls : lockstep.Calls call call') :
    lockstep.Turns (registry.turn world call) (registry'.turn world' call') := by
  have turned := turned_turn registry world call
  generalize registry.turn world call = first at turned ⊢
  -- What sent the first call its way holds of the second one too, and then the way says the rest.
  cases turned with
  | rejected faulty =>
      rcases calls with ⟨related⟩
      have faulty' := (lockstep.fault_eq related).symm.trans faulty
      rw [(Turned.rejected faulty').eq_turn]
      exact ⟨rfl, registries, worlds, .cons (.rejected related _) .nil⟩
  | queued wellFormed =>
      rcases calls with ⟨related⟩
      rcases registries with ⟨waiting⟩
      rw [(Turned.queued (lockstep.wellFormed related wellFormed)).eq_turn, ← waiting.length_eq,
        ← lockstep.size_eq related]
      exact ⟨rfl, .unattached (List.rel_append waiting (.cons related .nil)), worlds,
        .cons (.queued related _ _) .nil⟩
  | forwarded wellFormed accepted =>
      rcases calls with ⟨related⟩
      rcases registries with - | ⟨consumers, count⟩
      rcases lockstep.reaction consumers related worlds accepted with
        ⟨after', left', accepted', consumersAfter, worldsAfter⟩
      rw [(Turned.forwarded (lockstep.wellFormed related wellFormed) accepted').eq_turn,
        ← lockstep.size_eq related]
      exact ⟨rfl, .attached consumersAfter _, worldsAfter, .cons (.forwarded related _ _) .nil⟩
  | forwardFailed wellFormed accepted =>
      rcases calls with ⟨related⟩
      rcases registries with - | ⟨consumers, count⟩
      rcases lockstep.reaction consumers related worlds accepted with
        ⟨after', left', accepted', consumersAfter, worldsAfter⟩
      rw [(Turned.forwardFailed (lockstep.wellFormed related wellFormed) accepted').eq_turn]
      exact ⟨rfl, .attached consumersAfter _, worldsAfter, .nil⟩
  | duplicate =>
      rcases calls with - | ⟨related⟩
      rcases registries with - | ⟨consumers, count⟩
      rw [Turned.duplicate.eq_turn]
      exact ⟨rfl, .attached consumers _, worlds, .cons (.duplicate _) .nil⟩
  | attached finished =>
      rcases calls with - | ⟨related⟩
      rcases registries with ⟨waiting⟩
      have flushes := lockstep.flush waiting related worlds
      rw [(Turned.attached (flushes.finished finished)).eq_turn, ← waiting.length_eq]
      exact ⟨rfl, .attached flushes.consumer _, flushes.world, .cons (.attached _) .nil⟩
  | flushFailed stopped =>
      rcases calls with - | ⟨related⟩
      rcases registries with ⟨waiting⟩
      have flushes := lockstep.flush waiting related worlds
      rcases flushes.stopped stopped with ⟨rest', stopped', rest⟩
      rw [(Turned.flushFailed stopped').eq_turn]
      exact ⟨rfl, .unattached rest, flushes.world, .nil⟩

/-- In two runs whose calls correspond to each other, every call goes the same way. -/
theorem turns {calls calls' : List (Call κ)}
    (registries : lockstep.Registries registry registry') (worlds : lockstep.worlds world world')
    (related : List.Forall₂ lockstep.Calls calls calls') :
    List.Forall₂ lockstep.Turns (registry.turns world calls) (registry'.turns world' calls') := by
  induction related generalizing registry registry' world world' with
  | nil => exact .nil
  | cons first rest ih =>
      have turn := lockstep.turn registries worlds first
      exact .cons turn (ih turn.registry turn.world)

section Groups

variable {ρ : Type}

structure Groups (lockstep : Lockstep κ ω) (first second : Group ρ κ ω) : Prop where
  registries : ∀ which, lockstep.Registries (first.registries which) (second.registries which)
  world : lockstep.worlds first.world second.world

variable {group group' : Group ρ κ ω} {call call' : Call κ}

theorem Groups.turn (groups : lockstep.Groups group group') (which : ρ)
    (calls : lockstep.Calls call call') :
    lockstep.Turns (group.turn (which, call)) (group'.turn (which, call')) :=
  lockstep.turn (groups.registries which) groups.world calls

theorem Groups.next [DecidableEq ρ] (groups : lockstep.Groups group group') (which : ρ)
    (calls : lockstep.Calls call call') :
    lockstep.Groups (group.next (which, call)) (group'.next (which, call')) := by
  have turns := groups.turn which calls
  refine ⟨?_, turns.world⟩
  intro other
  by_cases same : other = which
  · subst same
    rw [Group.registries_next_self group (other, call),
      Group.registries_next_self group' (other, call')]
    exact turns.registry
  · rw [Group.registries_next_of_ne group same, Group.registries_next_of_ne group' same]
    exact groups.registries other

end Groups

section Journals

variable {ι : Type} (lockstep : Lockstep κ ω)

def Entries (first second : ι × Fragment) : Prop :=
  first.1 = second.1 ∧ lockstep.fragments first.2 second.2

/-- Consumers that go in lockstep still do when they have names, and their journals tell of related
fragments that the same names received. -/
def named : Lockstep (Named ι κ) (Journal ι ω) where
  fragments := lockstep.fragments
  consumers first second :=
    first.name = second.name ∧ lockstep.consumers first.consumer second.consumer
  worlds first second :=
    lockstep.worlds first.world second.world ∧
      List.Forall₂ lockstep.Entries first.entries second.entries
  fault_eq := lockstep.fault_eq
  size_eq := lockstep.size_eq
  accept := by
    rintro named named' fragment fragment' journal journal' ⟨names, consumers⟩ related
      ⟨worlds, entries⟩
    rcases lockstep.accept consumers related worlds with ⟨failed, after, left⟩
    refine ⟨failed, ⟨names, after⟩, left, ?_⟩
    exact List.rel_append entries (.cons ⟨names, related⟩ .nil)

end Journals

end Lockstep

end TraitIndex.Registry
