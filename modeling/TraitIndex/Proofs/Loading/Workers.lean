import TraitIndex.Proofs.Loading.Accounts
import TraitIndex.Proofs.Loading.Chunks
import TraitIndex.Proofs.Registry.Chronicle

/-!
# The number of workers

When a pass finishes it says how many workers it was meant to have: as many as were asked for, and
no more than there are scripts.  The size of the chunks is rounded up, so fewer chunks may hold all
scripts; then there are fewer workers than the record says.  Its number is right if and only if the
chunks of one worker fewer have no room for all scripts.
-/

namespace TraitIndex.Loading

/-- The numbers of workers that some records show, one for each pass that they say has finished. -/
def workersShown (records : List Log.Record) : List (Option String) :=
  (records.filter fun record => record.event = "load_finished").map (Log.Record.field? · "workers")

theorem workersShown_append (records further : List Log.Record) :
    workersShown (records ++ further) = workersShown records ++ workersShown further := by
  rw [workersShown, List.filter_append, List.map_append, workersShown, workersShown]

theorem workersShown_eq_nil {records : List Log.Record}
    (others : ∀ record ∈ records, record.event ≠ "load_finished") : workersShown records = [] := by
  rw [workersShown, List.map_eq_nil_iff, List.filter_eq_nil_iff]
  simpa using others

section Records

variable {κ ω : Type} [Consumer κ ω] (loader : Loader)

theorem workersShown_notices (notices : List Registry.Notice) :
    workersShown (notices.map Registry.Notice.record) = [] := by
  apply workersShown_eq_nil
  intro record mem
  rcases List.mem_map.mp mem with ⟨notice, _, rfl⟩
  cases notice <;> simp [Registry.Notice.record]

/-- Whatever becomes of a script, the records of it do not say that the pass has finished. -/
theorem workersShown_take (pass : Pass κ ω) (position : Nat) (worker : Worker) (path : Path)
    (waiting : List Path) :
    workersShown (pass.take loader position worker path waiting).records =
      workersShown pass.records := by
  rw [Pass.take]
  cases loader path with
  | error error =>
      have other : workersShown [loadFailed path error] = [] :=
        workersShown_eq_nil (by simp [loadFailed])
      simp only [workersShown_append, other, List.append_nil]
  | ok fragment =>
      have others := workersShown_notices (pass.registry.submit pass.world fragment).notices
      cases outcome : (pass.registry.submit pass.world fragment).outcome with
      | refused refusal =>
          have other : workersShown [submitFailed path refusal] = [] :=
            workersShown_eq_nil (by simp [submitFailed])
          simp only [outcome, workersShown_append, others, other, List.append_nil]
      | queued | forwarded | attached | failed =>
          simp only [outcome, workersShown_append, others, List.append_nil]

theorem workersShown_step (pass : Pass κ ω) (position : Nat) :
    workersShown (pass.step loader position).records = workersShown pass.records := by
  rw [Pass.step]
  split
  · rfl
  · split
    · exact workersShown_take loader pass position _ _ _
    · rfl

theorem workersShown_run (pass : Pass κ ω) (schedule : List Nat) :
    workersShown (pass.run loader schedule).records = workersShown pass.records := by
  induction schedule generalizing pass with
  | nil => rfl
  | cons position schedule ih => rw [run_cons, ih, workersShown_step]

/-- One record of a pass shows a number of workers, and it is the number that was brought into
range. -/
theorem workersShown_loadBy (scheduler : Scheduler) (limit : Nat) (scripts : List Path)
    (registry : Registry κ) (world : ω) :
    workersShown (loadBy scheduler loader limit scripts registry world).records =
      [some (Nat.repr (workerCount limit scripts.length))] := by
  rw [loadBy, workersShown_append, workersShown_run]
  rfl

end Records

section Count

variable {limit scripts count : Nat}

theorem workerCount_eq_min (positive : 0 < scripts) :
    workerCount limit scripts = min (max 1 limit) scripts := by
  rw [workerCount]
  omega

/-- All chunks together have room for fewer than one further script per worker. -/
theorem chunkSize_mul_lt (positive : 0 < scripts) (working : 0 < count) :
    chunkSize scripts count * count < scripts + count := by
  have least : 1 ≤ (scripts + count - 1) / count := by
    rw [Nat.le_div_iff_mul_le working]
    omega
  rw [chunkSize, Nat.max_eq_right least]
  have floor := Nat.div_mul_le_self (scripts + count - 1) count
  omega

theorem chunkSize_self (working : 0 < count) : chunkSize count count = 1 := by
  have below := chunkSize_mul_lt working working
  rw [← Nat.two_mul] at below
  have small : chunkSize count count < 2 := Nat.lt_of_mul_lt_mul_right below
  have positive : 0 < chunkSize count count := chunkSize_pos
  omega

/-- With many scripts for each worker, the chunks are so large that no worker is left without. -/
theorem chunkSize_mul_pred_lt (working : 0 < count) (many : count * (count - 1) < scripts) :
    chunkSize scripts count * (count - 1) < scripts := by
  have below := chunkSize_mul_lt (Nat.zero_lt_of_lt many) working
  have large : count ≤ chunkSize scripts count := by
    by_contra small
    have room : scripts ≤ chunkSize scripts count * count := le_chunkSize_mul working
    have little : chunkSize scripts count * count ≤ (count - 1) * count :=
      Nat.mul_le_mul_right count (by omega)
    rw [Nat.mul_comm (count - 1)] at little
    omega
  rw [Nat.mul_sub_one]
  omega

theorem length_cut {α : Type} {size : Nat} (positive : 0 < size) (items : List α) :
    (cut size items).length = (items.length + size - 1) / size := by
  apply eq_of_forall_ge_iff
  intro bound
  rw [length_cut_le_iff positive, Nat.div_le_iff_le_mul_add_pred positive]
  omega

/-- There are as many chunks as workers were meant if one fewer would not be enough. -/
theorem length_chunks_eq_iff {α : Type} {scripts : List α}
    (meant : workerCount limit scripts.length = count) :
    (chunks limit scripts).length = count ↔
      chunkSize scripts.length count * (count - 1) < scripts.length := by
  subst meant
  have working : 0 < workerCount limit scripts.length := workerCount_pos
  have enough : (chunks limit scripts).length ≤ workerCount limit scripts.length :=
    length_chunks_le_workerCount
  have fewer : (chunks limit scripts).length ≤ workerCount limit scripts.length - 1 ↔
      scripts.length ≤ chunkSize scripts.length (workerCount limit scripts.length) *
        (workerCount limit scripts.length - 1) :=
    length_cut_le_iff chunkSize_pos
  omega

end Count

/-- What a pass over some scripts says of its workers, and how many of them there are, when `count`
are meant. -/
structure Staffed (scripts : List Path) (count : Nat) (workers : List Worker)
    (records : List Log.Record) : Prop where
  shown : workersShown records = [some (Nat.repr count)]
  /-- Every worker is given a script. -/
  busy : ∀ worker ∈ workers, worker.waiting ≠ []
  counted : workers.length = (scripts.length + chunkSize scripts.length count - 1) /
    chunkSize scripts.length count
  atMost : workers.length ≤ count
  /-- The number shown is exact if the chunks of one worker fewer have no room for all scripts. -/
  exact_iff : workers.length = count ↔
    chunkSize scripts.length count * (count - 1) < scripts.length
  exact_of_few : scripts.length ≤ count → workers.length = count
  exact_of_many : count * (count - 1) < scripts.length → workers.length = count

variable {κ ω : Type} [Consumer κ ω]

/-- A pass over scripts shows the number of workers that it was meant to have, which is never too
small.  If that is the number of the scripts, or if there are many scripts for each worker, it is
the number of workers that were given a script. -/
theorem staffed_loadBy (scheduler : Scheduler) (loader : Loader) (limit : Nat)
    {scripts : List Path} (nonempty : scripts ≠ []) (registry : Registry κ) (world : ω) :
    Staffed scripts (min (max 1 limit) scripts.length)
      (Pass.start limit scripts registry world).workers
      (loadBy scheduler loader limit scripts registry world).records := by
  have meant : workerCount limit scripts.length = min (max 1 limit) scripts.length :=
    workerCount_eq_min (List.length_pos_of_ne_nil nonempty)
  have within : min (max 1 limit) scripts.length ≤ scripts.length := Nat.min_le_right _ _
  have workers : (Pass.start limit scripts registry world).workers.length =
      (chunks limit scripts).length := by
    rw [← map_waiting_start limit scripts registry world, List.length_map]
  have right := length_chunks_eq_iff meant
  generalize min (max 1 limit) scripts.length = count at meant within right ⊢
  have working : 0 < count := meant ▸ workerCount_pos
  rw [← workers] at right
  constructor
  · rw [workersShown_loadBy, meant]
  · intro worker mem
    have chunk : worker.waiting ∈ chunks limit scripts := by
      rw [← map_waiting_start limit scripts registry world]
      exact List.mem_map_of_mem mem
    exact ne_nil_of_mem_cut chunk
  · rw [workers, chunks, length_cut chunkSize_pos, meant]
  · rw [workers, ← meant]
    exact length_chunks_le_workerCount
  · exact right
  · intro few
    have each : scripts.length = count := Nat.le_antisymm few within
    rw [right, each, chunkSize_self working]
    omega
  · intro many
    rw [right]
    exact chunkSize_mul_pred_lt working many

/-- Three workers are meant for four scripts, and there are two: two chunks of two scripts do. -/
theorem staffed_loadBy_idle :
    let loader : Loader := Script.load twoScripts ⟨[]⟩
    let registry : Registry ShelfConsumer := .attached (.recorder "received" (.atCall 2) 0) 0
    let workers := (Pass.start 3 fourPaths registry Shelf.empty).workers
    fourPaths ≠ [] ∧
      Staffed fourPaths 3 workers
        (loadBy oneByOne loader 3 fourPaths registry Shelf.empty).records ∧
      workers.length = 2 := by
  intro loader registry workers
  have staffed : Staffed fourPaths 3 workers
      (loadBy oneByOne loader 3 fourPaths registry Shelf.empty).records :=
    staffed_loadBy oneByOne loader 3 (by decide) registry Shelf.empty
  refine ⟨by decide, staffed, ?_⟩
  rw [staffed.counted]
  decide +kernel

/-- A pass can show more workers than were given a script. -/
theorem not_forall_shown_eq_length :
    ¬ ∀ (loader : Loader) (limit : Nat) (scripts : List Path), scripts ≠ [] →
      ∀ (registry : Registry ShelfConsumer) (world : Shelf),
        workersShown (loadBy oneByOne loader limit scripts registry world).records =
          [some (Nat.repr (Pass.start limit scripts registry world).workers.length)] := by
  intro always
  have right := always (Script.load twoScripts ⟨[]⟩) 3 fourPaths (by decide) .empty Shelf.empty
  rw [workersShown_loadBy] at right
  revert right
  decide +kernel

end TraitIndex.Loading
