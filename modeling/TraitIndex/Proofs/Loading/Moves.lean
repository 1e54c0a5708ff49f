import TraitIndex.Loading.Pass
import TraitIndex.Proofs.Schedule

/-!
# The order in which scripts are taken

Which script a worker takes in its turn depends on the chunks and on the turns before only.  When
every worker gets at least as many turns as its chunk has scripts, each script is taken once.
-/

namespace TraitIndex.Loading

/-- What workers do that have the given chunks and take turns by a schedule: in each turn a worker
takes its next script, if it has one. -/
def moves (chunks : List (List Path)) : List Nat → Schedule Nat Path
  | [] => []
  | position :: schedule =>
      match chunks[position]? with
      | some (path :: waiting) => (position, path) :: moves (chunks.set position waiting) schedule
      | _ => moves chunks schedule

/-- Holds of a schedule by which every worker can finish its chunk. -/
def Suffices (chunks : List (List Path)) (schedule : List Nat) : Prop :=
  ∀ position, (chunks.getD position []).length ≤ schedule.count position

/-- Holds of a scheduler that lets every worker finish, whatever the chunks are. -/
def Scheduler.Complete (scheduler : Scheduler) : Prop :=
  ∀ chunks, Suffices chunks (scheduler chunks)

/-- The scripts in the order in which workers take them. -/
def order (scheduler : Scheduler) (limit : Nat) (scripts : List Path) : List Path :=
  (moves (chunks limit scripts) (scheduler (chunks limit scripts))).map Prod.snd

section Moves

variable {chunks : List (List Path)} {position : Nat} {schedule : List Nat}

theorem moves_cons_of_some {path : Path} {waiting : List Path}
    (next : chunks[position]? = some (path :: waiting)) :
    moves chunks (position :: schedule) =
      (position, path) :: moves (chunks.set position waiting) schedule := by
  simp [moves, next]

theorem moves_cons_of_idle (idle : chunks.getD position [] = []) :
    moves chunks (position :: schedule) = moves chunks schedule := by
  rw [List.getD_eq_getElem?_getD] at idle
  cases next : chunks[position]? with
  | none => simp [moves, next]
  | some chunk =>
      rw [next, Option.getD_some] at idle
      simp [moves, next, idle]

theorem Suffices.of_taken {path : Path} {waiting : List Path}
    (enough : Suffices chunks (position :: schedule))
    (next : chunks[position]? = some (path :: waiting)) :
    Suffices (chunks.set position waiting) schedule := by
  intro other
  have many := enough other
  rcases List.getElem?_eq_some_iff.mp next with ⟨inside, _⟩
  by_cases same : position = other
  · subst same
    rw [List.getD_eq_getElem?_getD, next] at many
    rw [List.getD_eq_getElem?_getD, List.getElem?_set_self inside]
    simpa using many
  · simpa [List.getD_eq_getElem?_getD, List.count_cons, same] using many

theorem Suffices.of_idle (enough : Suffices chunks (position :: schedule))
    (idle : chunks.getD position [] = []) : Suffices chunks schedule := by
  intro other
  have many := enough other
  by_cases same : position = other
  · subst same
    rw [idle]
    exact Nat.zero_le _
  · simpa [List.count_cons, same] using many

theorem flatten_eq_nil_of_suffices (enough : Suffices chunks []) : chunks.flatten = [] := by
  rw [List.flatten_eq_nil_iff]
  intro chunk mem
  rcases List.mem_iff_getElem?.mp mem with ⟨place, isChunk⟩
  have none := enough place
  simpa [List.getD_eq_getElem?_getD, isChunk] using none

theorem flatten_perm_cons {path : Path} {waiting : List Path}
    (next : chunks[position]? = some (path :: waiting)) :
    chunks.flatten.Perm (path :: (chunks.set position waiting).flatten) := by
  rcases List.getElem?_eq_some_iff.mp next with ⟨inside, isNext⟩
  have cut : ∃ before after, chunks = before ++ chunks[position] :: after ∧
      before.length = position ∧ chunks.set position waiting = before ++ waiting :: after :=
    List.exists_of_set inside
  rcases cut with ⟨before, after, whole, _, set⟩
  rw [isNext] at whole
  rw [set, whole]
  simp only [List.flatten_append, List.flatten_cons, List.cons_append]
  exact List.perm_middle

/-- By a schedule that suffices, each script of the chunks is taken once. -/
theorem map_snd_moves_perm (enough : Suffices chunks schedule) :
    ((moves chunks schedule).map Prod.snd).Perm chunks.flatten := by
  induction schedule generalizing chunks with
  | nil =>
      rw [flatten_eq_nil_of_suffices enough]
      exact .refl []
  | cons position schedule ih =>
      cases waiting : chunks.getD position [] with
      | nil =>
          rw [moves_cons_of_idle waiting]
          exact ih (enough.of_idle waiting)
      | cons path rest =>
          have next : chunks[position]? = some (path :: rest) := by
            cases found : chunks[position]? with
            | none => simp [List.getD_eq_getElem?_getD, found] at waiting
            | some chunk => simpa [List.getD_eq_getElem?_getD, found] using waiting
          rw [moves_cons_of_some next, List.map_cons]
          exact ((ih (enough.of_taken next)).cons path).trans (flatten_perm_cons next).symm

end Moves

theorem flatten_cut {α : Type} (size : Nat) (items : List α) :
    (cut size items).flatten = items := by
  fun_induction cut size items with
  | case1 => rfl
  | case2 item items ih =>
      rw [List.flatten_cons, ih, List.cons_append, List.take_append_drop]

@[simp]
theorem flatten_chunks {α : Type} (limit : Nat) (scripts : List α) :
    (chunks limit scripts).flatten = scripts :=
  flatten_cut _ scripts

/-- A scheduler that lets every worker finish has each script taken once. -/
theorem order_perm {scheduler : Scheduler} (complete : scheduler.Complete) (limit : Nat)
    (scripts : List Path) : (order scheduler limit scripts).Perm scripts := by
  have taken := map_snd_moves_perm (complete (chunks limit scripts))
  rwa [flatten_chunks] at taken

theorem suffices_inOrder (chunks : List (List Path)) (first position : Nat) :
    (chunks.getD position []).length ≤ (inOrder chunks first).count (first + position) := by
  induction chunks generalizing first position with
  | nil => simp
  | cons chunk chunks ih =>
      rw [inOrder, List.count_append]
      cases position with
      | zero => simp
      | succ position =>
          have rest := ih (first + 1) position
          rw [Nat.add_assoc, Nat.add_comm 1] at rest
          rw [List.getD_cons_succ]
          omega

theorem complete_oneByOne : oneByOne.Complete := by
  intro chunks position
  have enough := suffices_inOrder chunks 0 position
  rwa [Nat.zero_add] at enough

end TraitIndex.Loading
