/-!
# Chunks

The scripts of a pass are cut into contiguous chunks, one per worker.  There are at most as many
workers as scripts and at least one; the chunks are of equal size, rounded up, but for the last.
-/

namespace TraitIndex.Loading

/-- The number of workers that are asked for, brought into range. -/
def workerCount (limit scripts : Nat) : Nat :=
  max 1 (min limit (max scripts 1))

/-- The size of all chunks but the last; it is positive also when there is nothing to cut. -/
def chunkSize (scripts workers : Nat) : Nat :=
  max 1 ((scripts + workers - 1) / workers)

/-- Cuts a list into pieces of the given size; only the last may be shorter. -/
def cut {α : Type} (size : Nat) : List α → List (List α)
  | [] => []
  | item :: items => (item :: items.take (size - 1)) :: cut size (items.drop (size - 1))
termination_by items => items.length
decreasing_by
  simp only [List.length_drop, List.length_cons]
  omega

def chunks {α : Type} (limit : Nat) (scripts : List α) : List (List α) :=
  cut (chunkSize scripts.length (workerCount limit scripts.length)) scripts

end TraitIndex.Loading
