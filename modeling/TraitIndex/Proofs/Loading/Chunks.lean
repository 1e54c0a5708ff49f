import TraitIndex.Proofs.Loading.Pass

/-!
# Chunks of equal size

How many chunks a list is cut into follows from their size alone: a number of chunks suffices if and
only if so many chunks of that size hold the whole list.  The size is rounded up, so as many chunks
as there are workers do.
-/

namespace TraitIndex.Loading

section Cuts

variable {α : Type} {size : Nat} {items : List α}

theorem cut_eq_nil_iff : cut size items = [] ↔ items = [] := by
  cases items <;> simp [cut]

theorem ne_nil_of_mem_cut {chunk : List α} (listed : chunk ∈ cut size items) : chunk ≠ [] := by
  fun_induction cut size items with
  | case1 => exact absurd listed List.not_mem_nil
  | case2 item items ih =>
      rcases List.mem_cons.mp listed with rfl | later
      · exact List.cons_ne_nil _ _
      · exact ih later

/-- So many chunks suffice if and only if they have room for all items. -/
theorem length_cut_le_iff (positive : 0 < size) {count : Nat} :
    (cut size items).length ≤ count ↔ items.length ≤ size * count := by
  fun_induction cut size items generalizing count with
  | case1 => simp
  | case2 item items ih =>
      cases count with
      | zero => simp
      | succ count =>
          rw [List.length_cons, Nat.add_le_add_iff_right, ih, List.length_drop, List.length_cons,
            Nat.mul_succ]
          omega

theorem length_le_of_mem_cut (positive : 0 < size) {chunk : List α}
    (listed : chunk ∈ cut size items) : chunk.length ≤ size := by
  fun_induction cut size items with
  | case1 => exact absurd listed List.not_mem_nil
  | case2 item items ih =>
      rcases List.mem_cons.mp listed with rfl | later
      · rw [List.length_cons, List.length_take]
        omega
      · exact ih later

/-- A chunk with another one behind it is full. -/
theorem length_of_mem_dropLast_cut (positive : 0 < size) {chunk : List α}
    (listed : chunk ∈ (cut size items).dropLast) : chunk.length = size := by
  fun_induction cut size items with
  | case1 => exact absurd listed List.not_mem_nil
  | case2 item items ih =>
      by_cases last : cut size (items.drop (size - 1)) = []
      · simp [last] at listed
      · rw [List.dropLast_cons_of_ne_nil last] at listed
        rcases List.mem_cons.mp listed with rfl | later
        · rw [cut_eq_nil_iff, List.drop_eq_nil_iff] at last
          rw [List.length_cons, List.length_take]
          omega
        · exact ih later

end Cuts

section Sizes

variable {limit scripts workers : Nat}

theorem workerCount_pos : 0 < workerCount limit scripts :=
  Nat.le_max_left 1 _

theorem workerCount_le : workerCount limit scripts ≤ max 1 limit := by
  rw [workerCount]
  omega

theorem chunkSize_pos : 0 < chunkSize scripts workers :=
  Nat.le_max_left 1 _

/-- The chunks of all workers together have room for all scripts. -/
theorem le_chunkSize_mul (working : 0 < workers) :
    scripts ≤ chunkSize scripts workers * workers := by
  have roundedUp : (scripts + workers - 1) / workers ≤ chunkSize scripts workers :=
    Nat.le_max_right 1 _
  rw [Nat.div_le_iff_le_mul_add_pred working, Nat.mul_comm] at roundedUp
  omega

end Sizes

section Chunks

variable {α : Type} {limit : Nat} {scripts : List α}

theorem length_chunks_le_workerCount :
    (chunks limit scripts).length ≤ workerCount limit scripts.length :=
  (length_cut_le_iff chunkSize_pos).mpr (le_chunkSize_mul workerCount_pos)

theorem length_chunks_le_limit : (chunks limit scripts).length ≤ max 1 limit :=
  length_chunks_le_workerCount.trans workerCount_le

theorem length_chunks_le_length : (chunks limit scripts).length ≤ scripts.length :=
  (length_cut_le_iff chunkSize_pos).mpr (Nat.le_mul_of_pos_left _ chunkSize_pos)

end Chunks

/-- What the chunks are like that the scripts of a pass are cut into. -/
structure CutEvenly (limit : Nat) (scripts : List Path) (chunks : List (List Path)) : Prop where
  divisor : 0 < workerCount limit scripts.length
  size : 0 < chunkSize scripts.length (workerCount limit scripts.length)
  nonempty : ∀ chunk ∈ chunks, chunk ≠ []
  flatten : chunks.flatten = scripts
  atMostLimit : chunks.length ≤ max 1 limit
  atMostScripts : chunks.length ≤ scripts.length
  full : ∀ chunk ∈ chunks.dropLast,
    chunk.length = chunkSize scripts.length (workerCount limit scripts.length)
  last : ∀ chunk ∈ chunks.getLast?,
    chunk.length ≤ chunkSize scripts.length (workerCount limit scripts.length)
  nothing : scripts = [] → chunks = []

variable {κ ω : Type}

/-- However many scripts there are and however many workers are asked for, what the workers of a pass
start with are the scripts, cut into pieces of one positive size, of which only the last may be
shorter.  There are no more pieces than workers or scripts. -/
theorem cutEvenly_start (limit : Nat) (scripts : List Path) (registry : Registry κ) (world : ω) :
    let start := Pass.start limit scripts registry world
    CutEvenly limit scripts (start.workers.map Worker.waiting) := by
  intro start
  rw [map_waiting_start]
  exact
    { divisor := workerCount_pos
      size := chunkSize_pos
      nonempty := fun _ => ne_nil_of_mem_cut
      flatten := flatten_chunks limit scripts
      atMostLimit := length_chunks_le_limit
      atMostScripts := length_chunks_le_length
      full := fun _ => length_of_mem_dropLast_cut chunkSize_pos
      last := by
        intro chunk isLast
        exact length_le_of_mem_cut chunkSize_pos (List.mem_of_getLast? isLast)
      nothing := by
        rintro rfl
        exact cut_eq_nil_iff.mpr rfl }

example : (chunks 4 (List.range 5)).map List.length = [2, 2, 1] := by
  decide +kernel

end TraitIndex.Loading
