import TraitIndex.Proofs.Registry.Chronicle
import TraitIndex.Registry.Shared

/-!
# The registry of a process beside one of its own

The registry of a process is created by the first access to it, whatever that access is and whatever
becomes of it.  The same accesses to a registry that is there from the start differ from it in one
thing only, the record of the creation, which the first access writes before anything else.  Looks
at the state change nothing, so the calls among the accesses make a run like any other.
-/

namespace TraitIndex.Registry

variable {κ ω : Type}

def Visit.records (visit : Visit κ ω) : List Log.Record :=
  visit.notices.map Notice.record

/-- The visit with the creation of the registry in front of what it notes. -/
def Visit.announcing (visit : Visit κ ω) : Visit κ ω :=
  { visit with notices := .created :: visit.notices }

/-- The call that an access makes, if it is one. -/
def Access.call? : Access κ → Option (Call κ)
  | .call made => some made
  | .look => none

/-- The turn of a visit for a call. -/
def Visit.turn? (visit : Visit κ ω) : Option (Turn κ ω) :=
  visit.outcome.map fun outcome =>
    ⟨outcome, visit.registry, visit.world, visit.handovers, visit.notices⟩

/-- How visits to the registry of a process stand beside those to a registry of its own. -/
structure Mirrors (own shared : List (Visit κ ω)) : Prop where
  outcomes : shared.map Visit.outcome = own.map Visit.outcome
  handovers : shared.map Visit.handovers = own.map Visit.handovers
  registries : shared.map Visit.registry = own.map Visit.registry
  worlds : shared.map Visit.world = own.map Visit.world
  records : shared.map Visit.records =
    (own.map Visit.records).modifyHead (Notice.created.record :: ·)
  /-- The record of the creation is the only one of its kind. -/
  once : ∀ visit ∈ own, ∀ record ∈ visit.records, record.event ≠ Notice.created.record.event

theorem records_announcing (visit : Visit κ ω) :
    visit.announcing.records = Notice.created.record :: visit.records :=
  rfl

/-- What a view shows of a change to the first item is a change to what it shows of that item. -/
theorem map_modifyHead {α β : Type} {change : α → α} {seen : β → β} {view : α → β}
    (sees : ∀ item, view (change item) = seen (view item)) (items : List α) :
    (items.modifyHead change).map view = (items.map view).modifyHead seen := by
  cases items with
  | nil => rfl
  | cons first others => simp [sees]

theorem map_modifyHead_announcing {β : Type} {view : Visit κ ω → β}
    (blind : ∀ visit, view visit.announcing = view visit) (visits : List (Visit κ ω)) :
    (visits.modifyHead Visit.announcing).map view = visits.map view := by
  have unseen : ∀ visit, view visit.announcing = id (view visit) := blind
  rw [map_modifyHead unseen, List.modifyHead_id, id]

section Runs

variable [Consumer κ ω]

/-- The calls among some accesses go as if nobody had looked in between. -/
theorem filterMap_turn?_visits (registry : Registry κ) (world : ω) (accesses : List (Access κ)) :
    (registry.visits world accesses).filterMap Visit.turn? =
      registry.turns world (accesses.filterMap Access.call?) := by
  induction accesses generalizing registry world with
  | nil => rfl
  | cons access accesses ih =>
      cases access with
      | call call =>
          have made : (registry.visit world (.call call)).turn? = some (registry.turn world call) :=
            rfl
          rw [visits, List.filterMap_cons_some made, ih]
          rfl
      | look =>
          have nothing : (registry.visit world .look).turn? = none := rfl
          rw [visits, List.filterMap_cons_none nothing, ih]
          rfl

/-- A visit logs what a call came to, and a look logs nothing. -/
theorem event_of_mem_visits {registry : Registry κ} {world : ω} {accesses : List (Access κ)}
    {visit : Visit κ ω} (mem : visit ∈ registry.visits world accesses) :
    visit.records.map Log.Record.event = (visit.outcome.bind Outcome.event?).toList := by
  induction accesses generalizing registry world with
  | nil => cases mem
  | cons access accesses ih =>
      rcases List.mem_cons.mp mem with rfl | mem
      · cases access with
        | call call => exact (turned_turn registry world call).logged.events
        | look => rfl
      · exact ih mem

/-- Once the registry of the process is there, it is like any other. -/
theorem Shared.visits_some (registry : Registry κ) (world : ω) (accesses : List (Access κ)) :
    Shared.visits (some registry) world accesses = registry.visits world accesses := by
  induction accesses generalizing registry world with
  | nil => rfl
  | cons access accesses ih =>
      exact congrArg (registry.visit world access :: ·) (ih _ _)

/-- The first access creates the registry and then goes its way on it. -/
theorem Shared.visits_none (world : ω) (accesses : List (Access κ)) :
    Shared.visits none world accesses =
      (empty.visits world accesses).modifyHead Visit.announcing := by
  cases accesses with
  | nil => rfl
  | cons access accesses =>
      exact congrArg ((empty.visit world access).announcing :: ·) (visits_some _ _ accesses)

end Runs

/-- No call comes to the event of the creation. -/
theorem Outcome.event?_ne_created (outcome : Outcome) :
    outcome.event? ≠ some Notice.created.record.event := by
  cases outcome with
  | refused refusal =>
      cases refusal with
      | malformed fault => simp [Outcome.event?, Notice.record]
      | duplicateAttachment => simp [Outcome.event?, Notice.record]
  | queued pending => simp [Outcome.event?, Notice.record]
  | forwarded => simp [Outcome.event?, Notice.record]
  | attached flushed => simp [Outcome.event?, Notice.record]
  | failed => simp [Outcome.event?]

/-- Whatever a process does with its registry goes as on a fresh registry of its own, and but for
the record of the creation in front it logs the same. -/
theorem mirrors_visits [Consumer κ ω] (world : ω) (accesses : List (Access κ)) :
    let own := (empty : Registry κ).visits world accesses
    Mirrors own (Shared.visits none world accesses) ∧
      own.filterMap Visit.turn? = empty.turns world (accesses.filterMap Access.call?) := by
  intro own
  refine ⟨?_, filterMap_turn?_visits empty world accesses⟩
  rw [Shared.visits_none]
  refine ⟨?_, ?_, ?_, ?_, map_modifyHead records_announcing own, ?_⟩
  · exact map_modifyHead_announcing (fun _ => rfl) own
  · exact map_modifyHead_announcing (fun _ => rfl) own
  · exact map_modifyHead_announcing (fun _ => rfl) own
  · exact map_modifyHead_announcing (fun _ => rfl) own
  · intro visit mem record recorded same
    have event : record.event ∈ visit.records.map Log.Record.event := List.mem_map_of_mem recorded
    rw [event_of_mem_visits mem, same, Option.mem_toList] at event
    rcases Option.bind_eq_some_iff.mp event with ⟨outcome, _, created⟩
    exact outcome.event?_ne_created created

end TraitIndex.Registry
