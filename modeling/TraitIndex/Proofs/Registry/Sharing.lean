import Mathlib.Data.Fintype.Basic
import TraitIndex.Proofs.Client
import TraitIndex.Proofs.Index.Merge
import TraitIndex.Proofs.Registry.Overlap

/-!
# One shared index behind several registries

Clones of one shared index may be attached to several registries, next to consumers of any other
kind, and calls on different registries may overlap.  Whatever a clone is handed goes into the
index, and nothing else does, so the index is the fold of what its clones were handed in the order
of time.  A move adds to the count of a registry what it adds to the index if a clone is attached
there or about to be, and nothing otherwise; so the counts of the registries with clones add up to
the count of the index.
-/

namespace TraitIndex

open Registry

variable {γ ω : Type}

namespace Registry

/-- The fragments among some handovers that clones of an index were handed. -/
def takenBy (name : String) (handovers : List (Handover (Client γ))) : List Fragment :=
  (handovers.filter fun handover => handover.consumer.isClone name).map Handover.fragment

@[simp]
theorem takenBy_append (name : String) (earlier later : List (Handover (Client γ))) :
    takenBy name (earlier ++ later) = takenBy name earlier ++ takenBy name later := by
  simp [takenBy]

@[simp]
theorem takenBy_singleton (name : String) (handover : Handover (Client γ)) :
    takenBy name [handover] =
      if handover.consumer.isClone name then [handover.fragment] else [] := by
  by_cases clone : handover.consumer.isClone name = true <;> simp [takenBy, clone]

/-- Whether a clone of the index is attached. -/
def hasClone (name : String) : Registry (Client γ) → Bool
  | unattached _ => false
  | attached client _ => client.isClone name

/-- What a registry has contributed to the count of an index. -/
def share (name : String) : Phase (Client γ) → Nat
  | .resting registry => if registry.hasClone name then registry.delivered else 0
  | .attaching client taken _ => if client.isClone name then taken else 0

variable [Guest γ ω] {name : String} {index : Index} {world left : Shelf × ω}
  {client after : Client γ} {fragment : Fragment}

theorem index?_accept {failed : Bool} (found : world.1.index? name = some index)
    (reaction : Consumer.accept client fragment world = ⟨failed, after, left⟩) :
    left.1.index? name = some (index.applyAll (takenBy name [⟨client, fragment, failed⟩])) := by
  have taken := Client.index?_accept found client fragment
  rw [reaction] at taken
  rw [taken, takenBy_singleton]
  split <;> rfl

theorem isClone_of_accept {failed : Bool}
    (reaction : Consumer.accept client fragment world = ⟨failed, after, left⟩) :
    after.isClone name = client.isClone name := by
  have same := Client.isClone_accept name client fragment world
  rwa [reaction] at same

theorem isClone_eq_false_of_failed
    (reaction : Consumer.accept client fragment world = ⟨true, after, left⟩) :
    client.isClone name = false := by
  cases clone : client.isClone name with
  | false => rfl
  | true =>
      rcases (Client.neverFails_of_isClone clone).accept fragment world with ⟨_, _, accepted, _⟩
      rw [reaction] at accepted
      cases accepted

/-- A move folds into the index what it hands to clones, and changes nothing else about it. -/
theorem index?_move (found : world.1.index? name = some index) (phase : Phase (Client γ))
    (move : Move (Client γ)) :
    (phase.move world move).world.1.index? name =
      some (index.applyAll (takenBy name (phase.move world move).handovers)) := by
  have moved := Phase.moved_move phase world move
  generalize phase.move world move = progress at moved ⊢
  cases moved with
  | locked => exact found
  | idle => exact found
  | started => exact found
  | called turned atOnce =>
      cases turned with
      | rejected => exact found
      | queued => exact found
      | forwarded _ accepted => exact index?_accept found accepted
      | forwardFailed _ accepted => exact index?_accept found accepted
      | duplicate => exact found
      -- An attachment that finds no consumer is started, and is no call that is done at once.
      | attached => cases atOnce _ rfl
      | flushFailed => cases atOnce _ rfl
  | ended => exact found
  | took accepted => exact index?_accept found accepted
  | failed accepted => exact index?_accept found accepted

/-- A move adds as much to the share of its registry as it adds to the index. -/
theorem share_move (name : String) (phase : Phase (Client γ)) (world : Shelf × ω)
    (move : Move (Client γ)) :
    share name (phase.move world move).phase =
      share name phase + (takenBy name (phase.move world move).handovers).length := by
  have moved := Phase.moved_move phase world move
  generalize phase.move world move = progress at moved ⊢
  cases moved with
  | locked => rfl
  | idle => rfl
  | started => simp [share, hasClone, Phase.still, takenBy]
  | called turned atOnce =>
      cases turned with
      | rejected => rfl
      | queued => rfl
      | @forwarded client after count world left fragment wellFormed accepted =>
          have same : after.isClone name = client.isClone name := isClone_of_accept accepted
          by_cases clone : client.isClone name = true <;>
            simp [share, hasClone, Turn.progress, delivered, same, clone]
      | @forwardFailed client after count world left fragment wellFormed accepted =>
          have same : after.isClone name = client.isClone name := isClone_of_accept accepted
          have other : client.isClone name = false := isClone_eq_false_of_failed accepted
          simp [share, hasClone, Turn.progress, same, other]
      | duplicate => rfl
      | attached => cases atOnce _ rfl
      | flushFailed => cases atOnce _ rfl
  | ended => rfl
  | @took client after taken world left fragment waiting accepted =>
      have same : after.isClone name = client.isClone name := isClone_of_accept accepted
      by_cases clone : client.isClone name = true <;> simp [share, same, clone]
  | @failed client after taken world left fragment waiting accepted =>
      have other : client.isClone name = false := isClone_eq_false_of_failed accepted
      simp [share, hasClone, other]

end Registry

namespace Crowd

variable {ρ : Type} [DecidableEq ρ] [Guest γ ω] {name : String} {index : Index}

/-- The index after some moves is the fold of what clones were handed, whatever it was before. -/
theorem index?_after {crowd : Crowd ρ (Client γ) (Shelf × ω)}
    (found : crowd.world.1.index? name = some index) (moves : Schedule ρ (Move (Client γ))) :
    (crowd.after moves).world.1.index? name =
      some (index.applyAll (takenBy name (crowd.handovers moves))) := by
  induction moves generalizing crowd index with
  | nil => exact found
  | cons move moves ih =>
      have first : (crowd.next move).world.1.index? name = _ :=
        index?_move found (crowd.phases move.1) move.2
      rw [after, handovers, takenBy_append, Index.applyAll_append]
      exact ih first

variable [Fintype ρ]

theorem sum_share_after (name : String) (crowd : Crowd ρ (Client γ) (Shelf × ω))
    (moves : Schedule ρ (Move (Client γ))) :
    ∑ which, share name ((crowd.after moves).phases which) =
      ∑ which, share name (crowd.phases which) +
        (takenBy name (crowd.handovers moves)).length := by
  induction moves generalizing crowd with
  | nil => rfl
  | cons move moves ih =>
      have first := sum_next (share name)
        (share_move name (crowd.phases move.1) crowd.world move.2)
      rw [after, handovers, takenBy_append, List.length_append, ih, first]
      exact Nat.add_assoc _ _ _

/-- Whatever moves are made on fresh registries around an empty index, the index is the fold of
what its clones were handed, in the order of time.  When no attachment is under way, its count is
the sum of the counts of the registries to which clones are attached.  A clone that comes to a
registry which has a consumer is refused and handed nothing, and leaves the registries and the index
as they are. -/
theorem index?_after_fresh {shelf : Shelf} {policy : MergePolicy}
    (opened : shelf.index? name = some (Index.empty policy)) (world : ω)
    (moves : Schedule ρ (Move (Client γ))) :
    let crowd : Crowd ρ (Client γ) (Shelf × ω) := fresh (shelf, world)
    let left := crowd.after moves
    let attachClone : Move (Client γ) := .call (.attach (.house (.index name)))
    ∃ index, left.world.1.index? name = some index ∧
      index = (Index.empty policy).applyAll (takenBy name (crowd.handovers moves)) ∧
      (∀ registries : ρ → Registry (Client γ),
        (∀ which, left.phases which = .resting (registries which)) →
        index.fragmentCount =
          ∑ which with (registries which).hasClone name, (registries which).delivered) ∧
      ∀ which consumer count, left.phases which = .resting (.attached consumer count) →
        left.next (which, attachClone) = left ∧
          (left.move (which, attachClone)).outcome = some (.refused .duplicateAttachment) ∧
          (left.move (which, attachClone)).handovers = [] := by
  intro crowd left attachClone
  have folded : left.world.1.index? name = _ := index?_after opened moves
  refine ⟨_, folded, rfl, ?_, ?_⟩
  · intro registries resting
    have total : ∑ which, share name (left.phases which) = _ := sum_share_after name crowd moves
    have none : ∑ which, share name (crowd.phases which) = 0 :=
      Finset.sum_eq_zero fun which _ => rfl
    have shares : ∀ which, share name (left.phases which) =
        if (registries which).hasClone name then (registries which).delivered else 0 := by
      intro which
      rw [resting which, share]
    simp only [shares, none, Nat.zero_add] at total
    rw [Index.fragmentCount_applyAll, ← total, Finset.sum_filter]
    exact Nat.zero_add _
  · intro which consumer count held
    exact next_of_attached held _

/-- Clones in two registries, one after a keeper that failed there, and a third that came too late.
While the first clone takes what waits, the second one is attached and takes a fragment too. -/
theorem index?_after_fresh_keepers :
    let shelf := Shelf.empty.openIndex "merged" .union
    let crowd : Crowd (Fin 3) (Client Keeper) (Shelf × List Fragment) := fresh (shelf, [])
    let clone : Move (Client Keeper) := .call (.attach (.house (.index "merged")))
    let keeper (room : Nat) : Move (Client Keeper) := .call (.attach (.guest ⟨room⟩))
    let submit (symbol : String) : Move (Client Keeper) := .call (.submit ⟨none, [⟨symbol, []⟩]⟩)
    let moves : Schedule (Fin 3) (Move (Client Keeper)) :=
      [(0, submit "A"), (0, submit "B"), (1, submit "C"), (1, submit "D"), (1, keeper 0),
        (1, .proceed), (2, keeper 5), (2, .proceed), (0, clone), (0, .proceed), (1, clone),
        (1, .proceed), (2, clone), (0, .proceed), (1, .proceed), (0, .proceed), (1, submit "E"),
        (2, submit "F")]
    let left := crowd.after moves
    let registries : Fin 3 → Registry (Client Keeper)
      | 0 => .attached (.house (.index "merged")) 2
      | 1 => .attached (.house (.index "merged")) 2
      | 2 => .attached (.guest ⟨4⟩) 1
    shelf.index? "merged" = some (Index.empty .union) ∧
      (∀ which, left.phases which = .resting (registries which)) ∧
      ∃ index, left.world.1.index? "merged" = some index ∧ index.fragmentCount = 4 ∧
        index.fragmentCount = ∑ which with (registries which).hasClone "merged",
          (registries which).delivered := by
  intro shelf crowd clone keeper submit moves left registries
  have opened : shelf.index? "merged" = some (Index.empty .union) :=
    Shelf.index?_openIndex_empty "merged" .union
  have resting : ∀ which, left.phases which = .resting (registries which)
    | 0 => rfl
    | 1 => rfl
    | 2 => rfl
  rcases index?_after_fresh opened ([] : List Fragment) moves with
    ⟨index, found, folded, count, _⟩
  refine ⟨opened, resting, index, found, ?_, count registries resting⟩
  rw [folded, Index.fragmentCount_applyAll]
  rfl

end Crowd

end TraitIndex
