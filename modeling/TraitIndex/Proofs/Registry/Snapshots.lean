import TraitIndex.Proofs.Index.Growth
import TraitIndex.Proofs.Registry.Sharing

/-!
# Snapshots of a shared index

A snapshot of a shared index can be pulled at any time, also while a registry hands over the
fragments that waited for it.  Between two moments of a run the index is changed only by folding
into it what its clones were handed, so of any two snapshots the later one has grown out of the
earlier one, whatever else is attached, refused or fails in between.
-/

namespace TraitIndex.Crowd

open Registry

variable {ρ γ κ ω : Type}

section Moments

variable [Consumer κ ω] [DecidableEq ρ]

/-- A crowd before some moves and after each of them. -/
def moments (crowd : Crowd ρ κ ω) : Schedule ρ (Move κ) → List (Crowd ρ κ ω)
  | [] => [crowd]
  | move :: moves => crowd :: (crowd.next move).moments moves

end Moments

def snapshot? (name : String) (crowd : Crowd ρ κ (Shelf × ω)) : Option Index :=
  crowd.world.1.index? name

variable [DecidableEq ρ] [Guest γ ω] {name : String} {index : Index}
  {crowd : Crowd ρ (Client γ) (Shelf × ω)}

theorem exists_grown_next (pulled : crowd.snapshot? name = some index)
    (move : ρ × Move (Client γ)) :
    ∃ grown, (crowd.next move).snapshot? name = some grown ∧ index.Grows grown :=
  ⟨_, index?_move pulled (crowd.phases move.1) move.2, index.grows_applyAll _⟩

/-- Of any two snapshots that are pulled in the course of a run, the later one has grown out of the
earlier one. -/
theorem pairwise_grows_snapshots (pulled : crowd.snapshot? name = some index)
    (moves : Schedule ρ (Move (Client γ))) :
    ∃ further : List Index,
      (crowd.moments moves).map (snapshot? name) = (index :: further).map some ∧
        (index :: further).Pairwise Index.Grows := by
  induction moves generalizing crowd index with
  | nil => exact ⟨[], by simp [moments, pulled], List.pairwise_singleton _ _⟩
  | cons move moves ih =>
      rcases exists_grown_next pulled move with ⟨grown, pulledNext, grows⟩
      rcases ih pulledNext with ⟨further, snapshots, pairwise⟩
      refine ⟨grown :: further, by simp [moments, pulled, snapshots], ?_⟩
      rw [List.pairwise_cons]
      refine ⟨?_, pairwise⟩
      intro later listed
      rcases List.mem_cons.mp listed with rfl | listed
      · exact grows
      · exact grows.trans (List.rel_of_pairwise_cons pairwise listed)

/-- A keeper fails on what waits, and then a clone takes the rest, also a second list for a symbol,
which is empty and replaces the first.  Snapshots are pulled before and after every move, so also
while the clone has taken only some of what waited. -/
theorem pairwise_grows_snapshots_replacing :
    let crowd : Crowd Unit (Client Keeper) (Shelf × List Fragment) :=
      fresh (Shelf.empty.openIndex "merged" .replace, [])
    let submit (symbol : String) (texts : List Descriptor) : Unit × Move (Client Keeper) :=
      ((), .call (.submit ⟨none, [⟨symbol, texts⟩]⟩))
    let attach (client : Client Keeper) : Unit × Move (Client Keeper) :=
      ((), .call (.attach client))
    let moves : Schedule Unit (Move (Client Keeper)) :=
      [submit "A" [], submit "B" [⟨"x"⟩], attach (.guest ⟨0⟩), ((), .proceed),
        attach (.house (.index "merged")), ((), .proceed), ((), .proceed), submit "B" [],
        submit "C" []]
    crowd.snapshot? "merged" = some (Index.empty .replace) ∧
      ∃ further : List Index,
        (crowd.moments moves).map (snapshot? "merged") =
            (Index.empty .replace :: further).map some ∧
          (Index.empty .replace :: further).Pairwise Index.Grows ∧
          further.map Index.symbols =
            [[], [], [], [], [], ["B"], ["B"], ["B"], ["B", "C"]] := by
  intro crowd submit attach moves
  have pulled : crowd.snapshot? "merged" = some (Index.empty .replace) :=
    Shelf.index?_openIndex_empty "merged" .replace
  rcases pairwise_grows_snapshots pulled moves with ⟨further, snapshots, pairwise⟩
  refine ⟨pulled, further, snapshots, pairwise, ?_⟩
  have shown : ((crowd.moments moves).map (snapshot? "merged")).map (Option.map Index.symbols) =
      [[], [], [], [], [], [], ["B"], ["B"], ["B"], ["B", "C"]].map some := rfl
  rw [snapshots, List.map_map] at shown
  have symbols : (Index.empty .replace :: further).map Index.symbols =
      [[], [], [], [], [], [], ["B"], ["B"], ["B"], ["B", "C"]] := by
    apply List.map_injective_iff.mpr (Option.some_injective _)
    rw [List.map_map]
    exact shown
  exact (List.cons.inj symbols).2

end TraitIndex.Crowd
