import TraitIndex.Loading.Chunks
import TraitIndex.Registry.Run
import TraitIndex.Script.Load

/-!
# Loading passes

In a pass each worker takes the scripts of its chunk one after the other, loads them and submits the
fragments to the registry.  Workers take turns in an order given by a schedule, and a turn is one
script.  A script that cannot be loaded is reported and counted as failed.  When the consumer fails
on a fragment the worker that submitted it stops, and its whole chunk counts as failed.
-/

namespace TraitIndex.Loading

variable {κ ω : Type}

structure Worker where
  waiting : List Path
  submitted : Nat
  stopped : Bool
  deriving DecidableEq, Repr

def Worker.start (chunk : List Path) : Worker :=
  ⟨chunk, 0, false⟩

/-- The scripts that a worker contributes to the summary. -/
def Worker.credit (worker : Worker) : Nat :=
  if worker.stopped then 0 else worker.submitted

structure Pass (κ ω : Type) where
  workers : List Worker
  registry : Registry κ
  world : ω
  handovers : List (Handover κ)
  records : List Log.Record

structure Summary where
  submitted : Nat
  failed : Nat
  deriving DecidableEq, Repr

abbrev Loader :=
  Path → Except Script.LoadError Fragment

def loadFailed (path : Path) (error : Script.LoadError) : Log.Record :=
  ⟨.warn, "script_load_failed", "cli", .error,
    [("path", path.display), ("reason", error.message)]⟩

def submitFailed (path : Path) (refusal : Registry.Refusal) : Log.Record :=
  ⟨.warn, "script_submit_failed", "cli", .error,
    [("path", path.display), ("reason", refusal.message)]⟩

def loadFinished (workers : Nat) (summary : Summary) : Log.Record :=
  ⟨.info, "load_finished", "cli", if summary.failed = 0 then .ok else .partly,
    [("workers", Nat.repr workers), ("submitted", Nat.repr summary.submitted),
      ("failed", Nat.repr summary.failed)]⟩

/-- The turn of a worker whose next script is at `path`. -/
def Pass.take [Consumer κ ω] (loader : Loader) (pass : Pass κ ω) (position : Nat)
    (worker : Worker) (path : Path) (waiting : List Path) : Pass κ ω :=
  match loader path with
  | .error error =>
      { pass with
        workers := pass.workers.set position { worker with waiting := waiting }
        records := pass.records ++ [loadFailed path error] }
  | .ok fragment =>
      let turn := pass.registry.submit pass.world fragment
      let notices := turn.notices.map Registry.Notice.record
      let after : Pass κ ω :=
        { workers := pass.workers
          registry := turn.registry
          world := turn.world
          handovers := pass.handovers ++ turn.handovers
          records := pass.records ++ notices }
      match turn.outcome with
      | .failed =>
          { after with workers := pass.workers.set position ⟨waiting, worker.submitted, true⟩ }
      | .refused refusal =>
          { after with
            workers := pass.workers.set position { worker with waiting := waiting }
            records := after.records ++ [submitFailed path refusal] }
      | _ =>
          { after with
            workers := pass.workers.set position ⟨waiting, worker.submitted + 1, false⟩ }

/-- The turn of the worker at a position; it passes if it has stopped or has nothing to do. -/
def Pass.step [Consumer κ ω] (loader : Loader) (pass : Pass κ ω) (position : Nat) : Pass κ ω :=
  match pass.workers[position]? with
  | none => pass
  | some worker =>
      match worker.stopped, worker.waiting with
      | false, path :: waiting => pass.take loader position worker path waiting
      | _, _ => pass

def Pass.start (limit : Nat) (scripts : List Path) (registry : Registry κ) (world : ω) :
    Pass κ ω :=
  ⟨(chunks limit scripts).map Worker.start, registry, world, [], []⟩

def Pass.run [Consumer κ ω] (loader : Loader) (pass : Pass κ ω) (schedule : List Nat) :
    Pass κ ω :=
  schedule.foldl (Pass.step loader) pass

def credits (workers : List Worker) : Nat :=
  workers.foldr (fun worker count => worker.credit + count) 0

/-- Holds when no worker has anything left to do. -/
def Pass.Finished (pass : Pass κ ω) : Prop :=
  ∀ worker ∈ pass.workers, worker.stopped = true ∨ worker.waiting = []

/-- The summary of a finished pass over the given number of scripts. -/
def Pass.summary (pass : Pass κ ω) (scripts : Nat) : Summary :=
  ⟨credits pass.workers, scripts - credits pass.workers⟩

/-- The schedule by which each worker finishes its chunk before the next one starts. -/
def inOrder (chunks : List (List Path)) (first : Nat) : List Nat :=
  match chunks with
  | [] => []
  | chunk :: chunks => List.replicate chunk.length first ++ inOrder chunks (first + 1)

/-- Chooses the order in which workers take turns, given their chunks. -/
abbrev Scheduler :=
  List (List Path) → List Nat

def oneByOne : Scheduler :=
  fun chunks => inOrder chunks 0

structure Result (κ ω : Type) where
  summary : Summary
  registry : Registry κ
  world : ω
  records : List Log.Record

/-- Loads the scripts with at most `limit` workers, which take turns as the scheduler chooses. -/
def loadBy [Consumer κ ω] (scheduler : Scheduler) (loader : Loader) (limit : Nat)
    (scripts : List Path) (registry : Registry κ) (world : ω) : Result κ ω :=
  let pass := (Pass.start limit scripts registry world).run loader
    (scheduler (chunks limit scripts))
  let summary := pass.summary scripts.length
  let finished := loadFinished (workerCount limit scripts.length) summary
  ⟨summary, pass.registry, pass.world, pass.records ++ [finished]⟩

/-- Loads the scripts with at most `limit` workers, one after the other. -/
def load [Consumer κ ω] (loader : Loader) (limit : Nat) (scripts : List Path)
    (registry : Registry κ) (world : ω) : Result κ ω :=
  loadBy oneByOne loader limit scripts registry world

end TraitIndex.Loading
