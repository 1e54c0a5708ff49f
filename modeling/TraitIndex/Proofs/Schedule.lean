import Mathlib.Algebra.BigOperators.Group.Finset.Piecewise

/-!
# Schedules

A schedule lists what several threads do in the order in which it happens.  It interleaves the
programs of the threads when each thread does what its program says, in the program's order and
nothing else; how the threads take turns is left open.
-/

namespace TraitIndex

/-- What happens, each with the thread that does it. -/
abbrev Schedule (θ α : Type) :=
  List (θ × α)

namespace Schedule

variable {θ α β : Type} [DecidableEq θ]

/-- What one thread does, in order. -/
def of (schedule : Schedule θ α) (thread : θ) : List α :=
  (schedule.filter fun move => move.1 = thread).map Prod.snd

def Interleaves (schedule : Schedule θ α) (programs : θ → List α) : Prop :=
  ∀ thread, schedule.of thread = programs thread

@[simp]
theorem of_nil (thread : θ) : of ([] : Schedule θ α) thread = [] :=
  rfl

theorem of_cons (move : θ × α) (schedule : Schedule θ α) (thread : θ) :
    of (move :: schedule) thread =
      if move.1 = thread then move.2 :: schedule.of thread else schedule.of thread := by
  by_cases same : move.1 = thread <;> simp [of, same]

@[simp]
theorem of_append (earlier later : Schedule θ α) (thread : θ) :
    of (earlier ++ later) thread = earlier.of thread ++ later.of thread := by
  simp [of]

theorem of_map (change : α → β) (schedule : Schedule θ α) (thread : θ) :
    of (schedule.map fun move => (move.1, change move.2)) thread =
      (schedule.of thread).map change := by
  induction schedule with
  | nil => rfl
  | cons move schedule ih =>
      rw [List.map_cons, of_cons, of_cons, ih]
      by_cases same : move.1 = thread <;> simp [same]

theorem of_filterMap (change : α → Option β) (schedule : Schedule θ α) (thread : θ) :
    of (schedule.filterMap fun move => (change move.2).map (Prod.mk move.1)) thread =
      (schedule.of thread).filterMap change := by
  induction schedule with
  | nil => rfl
  | cons move schedule ih =>
      rw [List.filterMap_cons, of_cons]
      cases changed : change move.2 with
      | none => by_cases same : move.1 = thread <;> simp [same, changed, ih]
      | some item => by_cases same : move.1 = thread <;> simp [same, changed, of_cons, ih]

theorem of_eq_nil_of_ne {schedule : Schedule θ α} {thread : θ}
    (absent : ∀ move ∈ schedule, move.1 ≠ thread) : schedule.of thread = [] := by
  induction schedule with
  | nil => rfl
  | cons move schedule ih =>
      have other := absent move (by simp)
      rw [of_cons, if_neg other]
      apply ih
      intro later mem
      exact absent later (by simp [mem])

theorem of_map_mk (items : List α) (only thread : θ) :
    of (items.map (Prod.mk only)) thread = if only = thread then items else [] := by
  induction items with
  | nil => simp
  | cons item items ih =>
      rw [List.map_cons, of_cons, ih]
      by_cases same : only = thread <;> simp [same]

theorem mem_of {schedule : Schedule θ α} {thread : θ} {item : α}
    (mem : (thread, item) ∈ schedule) : item ∈ schedule.of thread := by
  simp only [of, List.mem_map, List.mem_filter, decide_eq_true_eq]
  exact ⟨(thread, item), ⟨mem, rfl⟩, rfl⟩

theorem sum_length_of [Fintype θ] (schedule : Schedule θ α) :
    ∑ thread, (schedule.of thread).length = schedule.length := by
  induction schedule with
  | nil => simp
  | cons move schedule ih =>
      have split : ∀ thread, (of (move :: schedule) thread).length =
          (if move.1 = thread then 1 else 0) + (of schedule thread).length := by
        intro thread
        rw [of_cons]
        by_cases same : move.1 = thread
        · simp [same, Nat.add_comm]
        · simp [same]
      simp [split, Finset.sum_add_distrib, ih, Nat.add_comm]

end Schedule

end TraitIndex
