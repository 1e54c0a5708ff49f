import TraitIndex.Proofs.Registry.Turn

/-!
# Histories of a registry

What can be read off a list of turns: the registry and the world that it leaves and the fragments
that it hands over.  A beginning of a run is the run of a beginning of its calls, so whatever holds
after every run holds at every moment of a run.
-/

namespace TraitIndex.Registry

variable {κ ω : Type}

def Call.submitted? : Call κ → Option Fragment
  | .submit fragment => some fragment
  | .attach _ => none

def submissions (calls : List (Call κ)) : List Fragment :=
  calls.filterMap Call.submitted?

/-- The consumer of an attachment. -/
def Call.consumer? : Call κ → Option κ
  | .submit _ => none
  | .attach consumer => some consumer

/-- The attachments of a run, in order, each with its consumer and its turn. -/
def attempts (calls : List (Call κ)) (turns : List (Turn κ ω)) : List (κ × Turn κ ω) :=
  (calls.zip turns).filterMap fun move => move.1.consumer?.map fun consumer => (consumer, move.2)

/-- The registry after some turns, the first of which was made on the given one. -/
def registryAfter (registry : Registry κ) : List (Turn κ ω) → Registry κ
  | [] => registry
  | turn :: turns => registryAfter turn.registry turns

def worldAfter (world : ω) : List (Turn κ ω) → ω
  | [] => world
  | turn :: turns => worldAfter turn.world turns

def handovers (turns : List (Turn κ ω)) : List (Handover κ) :=
  turns.flatMap Turn.handovers

/-- The fragments that some turns hand to consumers, in order. -/
def handed (turns : List (Turn κ ω)) : List Fragment :=
  (handovers turns).map Handover.fragment

@[simp]
theorem submissions_nil : submissions ([] : List (Call κ)) = [] :=
  rfl

@[simp]
theorem submissions_cons_submit (fragment : Fragment) (calls : List (Call κ)) :
    submissions (.submit fragment :: calls) = fragment :: submissions calls :=
  rfl

@[simp]
theorem submissions_cons_attach (consumer : κ) (calls : List (Call κ)) :
    submissions (.attach consumer :: calls) = submissions calls :=
  rfl

@[simp]
theorem submissions_append (earlier later : List (Call κ)) :
    submissions (earlier ++ later) = submissions earlier ++ submissions later :=
  List.filterMap_append

@[simp]
theorem attempts_cons_attach (consumer : κ) (calls : List (Call κ)) (turn : Turn κ ω)
    (turns : List (Turn κ ω)) :
    attempts (.attach consumer :: calls) (turn :: turns) =
      (consumer, turn) :: attempts calls turns :=
  rfl

theorem attempts_append {earlier : List (Call κ)} {before : List (Turn κ ω)}
    (sameLength : earlier.length = before.length) (later : List (Call κ))
    (after : List (Turn κ ω)) :
    attempts (earlier ++ later) (before ++ after) =
      attempts earlier before ++ attempts later after := by
  rw [attempts, List.zip_append sameLength, List.filterMap_append]
  rfl

@[simp]
theorem handovers_cons (turn : Turn κ ω) (turns : List (Turn κ ω)) :
    handovers (turn :: turns) = turn.handovers ++ handovers turns :=
  List.flatMap_cons

@[simp]
theorem handovers_append (earlier later : List (Turn κ ω)) :
    handovers (earlier ++ later) = handovers earlier ++ handovers later :=
  List.flatMap_append

@[simp]
theorem handed_cons (turn : Turn κ ω) (turns : List (Turn κ ω)) :
    handed (turn :: turns) = turn.handovers.map Handover.fragment ++ handed turns := by
  simp [handed]

section Runs

variable [Consumer κ ω]

@[simp]
theorem length_turns (registry : Registry κ) (world : ω) (calls : List (Call κ)) :
    (registry.turns world calls).length = calls.length := by
  induction calls generalizing registry world with
  | nil => rfl
  | cons call calls ih => simp [turns, ih]

/-- Every turn of a run is the turn of one of its calls. -/
theorem exists_turned_of_mem_turns {registry : Registry κ} {world : ω} {calls : List (Call κ)}
    {turn : Turn κ ω} (mem : turn ∈ registry.turns world calls) :
    ∃ call ∈ calls, ∃ before earlier, Turned before earlier call turn := by
  induction calls generalizing registry world with
  | nil => cases mem
  | cons call calls ih =>
      rcases List.mem_cons.mp mem with rfl | mem
      · exact ⟨call, List.mem_cons_self, registry, world, turned_turn registry world call⟩
      · rcases ih mem with ⟨other, listed, turned⟩
        exact ⟨other, List.mem_cons_of_mem _ listed, turned⟩

theorem take_turns (registry : Registry κ) (world : ω) (calls : List (Call κ)) (moment : Nat) :
    (registry.turns world calls).take moment = registry.turns world (calls.take moment) := by
  induction calls generalizing registry world moment with
  | nil => simp [turns]
  | cons call calls ih =>
      cases moment with
      | zero => rfl
      | succ moment => simp [turns, ih]

theorem turns_append (registry : Registry κ) (world : ω) (earlier later : List (Call κ)) :
    registry.turns world (earlier ++ later) =
      registry.turns world earlier ++
        (registryAfter registry (registry.turns world earlier)).turns
          (worldAfter world (registry.turns world earlier)) later := by
  induction earlier generalizing registry world with
  | nil => rfl
  | cons call earlier ih =>
      simp only [List.cons_append, turns, registryAfter, worldAfter]
      exact congrArg _ (ih _ _)

end Runs

@[simp]
theorem registryAfter_append (registry : Registry κ) (earlier later : List (Turn κ ω)) :
    registryAfter registry (earlier ++ later) =
      registryAfter (registryAfter registry earlier) later := by
  induction earlier generalizing registry with
  | nil => rfl
  | cons turn earlier ih => exact ih turn.registry

@[simp]
theorem worldAfter_append (world : ω) (earlier later : List (Turn κ ω)) :
    worldAfter world (earlier ++ later) = worldAfter (worldAfter world earlier) later := by
  induction earlier generalizing world with
  | nil => rfl
  | cons turn earlier ih => exact ih turn.world

end TraitIndex.Registry
