import TraitIndex.Proofs.Registry.Lockstep
import TraitIndex.Proofs.Script.Scope
import TraitIndex.Proofs.Session

/-!
# Scopes decide nothing

Two sessions whose scopes differ and which are otherwise alike give the same glimpses: what a host
sees of them once scopes are blotted out.  The registries go in lockstep, with fragments related by
having the same entries.  That needs consumers which do not look at scopes.  Recorders and indexes
do not; a guest does not if some relation between its states in the two sessions is kept whenever
the fragments have the same entries.
-/

namespace TraitIndex

section Shelves

/-- Everything on a shelf except the scopes of recorded fragments. -/
def Shelf.unscoped (shelf : Shelf) : List (String × List (List Entry)) × List (String × Index) :=
  (shelf.lists.map fun item => (item.1, item.2.map Fragment.entries), shelf.indexes)

theorem map_update {α β : Type} (image : α → β) {change : α → α} {change' : β → β}
    (follows : ∀ value, image (change value) = change' (image value)) (name : String) (fresh : α)
    (items : List (String × α)) :
    (Shelf.update name fresh change items).map (fun item => (item.1, image item.2)) =
      Shelf.update name (image fresh) change' (items.map fun item => (item.1, image item.2)) := by
  induction items with
  | nil => simp [Shelf.update, follows]
  | cons item items ih =>
      by_cases same : item.1 = name
      · simp [Shelf.update, same, follows]
      · simp [Shelf.update, same, ih]

theorem Shelf.unscoped_record (shelf : Shelf) (name : String) (fragment : Fragment) :
    (shelf.record name fragment).unscoped =
      (update name [] (· ++ [fragment.entries]) shelf.unscoped.1, shelf.unscoped.2) := by
  have follows : ∀ fragments : List Fragment,
      (fragments ++ [fragment]).map Fragment.entries =
        fragments.map Fragment.entries ++ [fragment.entries] := by simp
  exact congrArg (·, shelf.indexes)
    (map_update (List.map Fragment.entries) follows name [] shelf.lists)

/-- An index takes the entries of a fragment. -/
theorem Shelf.unscoped_apply (shelf : Shelf) (name : String) (fragment : Fragment) :
    (shelf.apply name fragment).unscoped =
      (shelf.unscoped.1, update name (Index.empty .append)
        (fun index => index.apply ⟨none, fragment.entries⟩) shelf.unscoped.2) :=
  rfl

theorem Shelf.unscoped_openIndex (shelf : Shelf) (name : String) (policy : MergePolicy) :
    (shelf.openIndex name policy).unscoped =
      (shelf.unscoped.1, update name (Index.empty policy) id shelf.unscoped.2) :=
  rfl

variable {shelf shelf' : Shelf} {fragment fragment' : Fragment}

theorem Trigger.fires_eq_of_entries (entries : fragment.entries = fragment'.entries)
    (trigger : Trigger) (call : Nat) :
    trigger.fires call fragment = trigger.fires call fragment' := by
  cases trigger <;> simp only [fires, Fragment.get?, entries]

/-- Recorders and indexes do not look at scopes. -/
theorem ShelfConsumer.accept_unscoped (entries : fragment.entries = fragment'.entries)
    (alike : shelf.unscoped = shelf'.unscoped) (consumer : ShelfConsumer) :
    let reaction := Consumer.accept consumer fragment shelf
    let reaction' := Consumer.accept consumer fragment' shelf'
    reaction.failed = reaction'.failed ∧ reaction.consumer = reaction'.consumer ∧
      reaction.world.unscoped = reaction'.world.unscoped := by
  rcases consumer with ⟨list, trigger, calls⟩ | name
  · simp only [Consumer.accept, accept, trigger.fires_eq_of_entries entries]
    split
    · exact ⟨rfl, rfl, alike⟩
    · simp only [Shelf.unscoped_record, entries, alike, and_self]
  · simp only [Consumer.accept, accept, Shelf.unscoped_apply, entries, alike, and_self]

end Shelves

/-- Guests that do not look at scopes: relations between their states, and between their worlds, in
two sessions, which are kept when guests are handed fragments with the same entries. -/
structure Unseeing (γ ω : Type) [Guest γ ω] where
  guests : γ → γ → Prop
  worlds : ω → ω → Prop
  accept : ∀ {guest guest' : γ} {fragment fragment' : Fragment} {shelf shelf' : Shelf}
    {world world' : ω},
    guests guest guest' → fragment.entries = fragment'.entries →
      shelf.unscoped = shelf'.unscoped → worlds world world' →
        let reaction := Guest.accept guest fragment shelf world
        let reaction' := Guest.accept guest' fragment' shelf' world'
        reaction.failed = reaction'.failed ∧ guests reaction.consumer reaction'.consumer ∧
          worlds reaction.world reaction'.world

namespace Unseeing

open Registry

variable {γ ω : Type} [Guest γ ω] (unseeing : Unseeing γ ω)

inductive Clients : Client γ → Client γ → Prop where
  | house (consumer : ShelfConsumer) : Clients (.house consumer) (.house consumer)
  | guest {guest guest' : γ} (related : unseeing.guests guest guest') :
      Clients (.guest guest) (.guest guest')

def lockstep : Lockstep (Client γ) (Shelf × ω) where
  fragments first second := first.entries = second.entries
  consumers := unseeing.Clients
  worlds first second :=
    first.1.unscoped = second.1.unscoped ∧ unseeing.worlds first.2 second.2
  fault_eq same := by simp only [Fragment.fault?, same]
  size_eq same := by simp only [Fragment.size, same]
  accept := by
    rintro client client' fragment fragment' world world' clients entries ⟨shelves, worlds⟩
    cases clients with
    | house consumer =>
        rcases consumer.accept_unscoped entries shelves with ⟨failed, after, left⟩
        refine ⟨failed, ?_, left, worlds⟩
        simp only [Consumer.accept, Client.accept] at after ⊢
        rw [after]
        exact .house _
    | guest related =>
        rcases unseeing.accept related entries shelves worlds with ⟨failed, after, left⟩
        exact ⟨failed, .guest after, shelves, left⟩

end Unseeing

section Glimpses

open Registry

/-- The record with what stands behind `scope=` blotted out. -/
def Log.Record.unscoped (record : Log.Record) : Log.Record :=
  { record with
    fields := record.fields.map fun field => if field.1 = "scope" then ("scope", "") else field }

def Answer.unscoped : Answer → Answer
  | .parsed result => .parsed (result.map (Fragment.rescope none))
  | answer => answer

/-- What a registry tells about itself, without scopes. -/
structure Gauge where
  isAttached : Bool
  pending : List (List Entry)
  delivered : Nat
  description : String

def Registry.gauge {κ : Type} (registry : Registry κ) : Gauge where
  isAttached := registry.isAttached
  pending := registry.pending.map Fragment.entries
  delivered := registry.delivered
  description := registry.describe

/-- What a host sees of an action and of the session after it, without scopes. -/
structure Glimpse (ρ ι : Type) where
  answer : Answer
  records : List Log.Record
  gauges : ρ → Gauge
  /-- What each consumer received, in the order of time. -/
  received : List (ι × List Entry)
  shelf : List (String × List (List Entry)) × List (String × Index)

def Stage.glimpse {ρ ι γ ω : Type} (stage : Stage ρ ι γ ω) : Glimpse ρ ι where
  answer := stage.answer.unscoped
  records := stage.notices.map fun notice => notice.record.unscoped
  gauges which := (stage.session.group.registries which).gauge
  received := stage.session.group.world.entries.map fun entry => (entry.1, entry.2.entries)
  shelf := stage.session.shelf.unscoped

end Glimpses

/-- A keeper does not look at the scopes of what it keeps. -/
def Keeper.unseeing : Unseeing Keeper (List Fragment) where
  guests := Eq
  worlds first second := first.map Fragment.entries = second.map Fragment.entries
  accept := by
    rintro ⟨room⟩ _ fragment fragment' shelf shelf' kept kept' rfl entries _ alike
    cases room with
    | zero => exact ⟨rfl, rfl, alike⟩
    | succ room =>
        refine ⟨rfl, rfl, ?_⟩
        simp only [Guest.accept, List.map_append, alike, List.map_cons, entries]

namespace Unseeing

open Registry

variable {ρ ι γ ω : Type} [Guest γ ω] {unseeing : Unseeing γ ω}

inductive Sources : Source → Source → Prop where
  | given {fragment fragment' : Fragment} (entries : fragment.entries = fragment'.entries) :
      Sources (.given fragment) (.given fragment')
  | parsed (number : Nat) : Sources (.parsed number) (.parsed number)

/-- Actions that differ in scopes only. -/
inductive Actions (unseeing : Unseeing γ ω) :
    Action ρ (Named ι (Client γ)) → Action ρ (Named ι (Client γ)) → Prop where
  | parse (scope scope' : Option String) (script : String) :
      Actions unseeing (.parse scope script) (.parse scope' script)
  | submit (which : ρ) {source source' : Source} (sources : Sources source source') :
      Actions unseeing (.submit which source) (.submit which source')
  | attach (which : ρ) (name : ι) {client client' : Client γ}
      (clients : unseeing.Clients client client') :
      Actions unseeing (.attach which ⟨name, client⟩) (.attach which ⟨name, client'⟩)
  | openIndex (name : String) (policy : MergePolicy) :
      Actions unseeing (.openIndex name policy) (.openIndex name policy)
  | apply (name : String) {source source' : Source} (sources : Sources source source') :
      Actions unseeing (.apply name source) (.apply name source')

structure Sessions (unseeing : Unseeing γ ω) (first second : Session ρ ι γ ω) : Prop where
  group : unseeing.lockstep.named.Groups first.group second.group
  parses : first.parses.map (Except.map (Fragment.rescope none)) =
    second.parses.map (Except.map (Fragment.rescope none))

structure Stages (unseeing : Unseeing γ ω) (first second : Stage ρ ι γ ω) : Prop where
  answer : first.answer.unscoped = second.answer.unscoped
  records : first.notices.map (fun notice => notice.record.unscoped) =
    second.notices.map (fun notice => notice.record.unscoped)
  session : unseeing.Sessions first.session second.session

/-- The records of two runs in lockstep differ behind `scope=` only. -/
theorem unscoped_record_eq {κ : Type} [Consumer κ ω] {lockstep : Lockstep κ ω}
    {first second : Notice} (related : lockstep.Notices first second) :
    first.record.unscoped = second.record.unscoped := by
  cases related <;> simp [Notice.record, Log.Record.unscoped]

theorem gauge_eq {first second : Registry (Named ι (Client γ))}
    (registries : unseeing.lockstep.named.Registries first second) :
    first.gauge = second.gauge := by
  have pending : first.pending.map Fragment.entries = second.pending.map Fragment.entries :=
    map_eq_of_forall₂ registries.pending fun _ _ same => same
  simp only [Registry.gauge, registries.isAttached_eq, registries.delivered_eq,
    registries.describe_eq, pending]

variable {first second : Session ρ ι γ ω}

theorem Sessions.received_eq (sessions : unseeing.Sessions first second) :
    (first.group.world.entries.map fun entry => (entry.1, entry.2.entries)) =
      second.group.world.entries.map fun entry => (entry.1, entry.2.entries) :=
  map_eq_of_forall₂ sessions.group.world.2 fun _ _ same => Prod.ext same.1 same.2

theorem Sessions.shelf_eq (sessions : unseeing.Sessions first second) :
    first.shelf.unscoped = second.shelf.unscoped :=
  sessions.group.world.1.1

theorem Stages.glimpse_eq {first second : Stage ρ ι γ ω} (stages : unseeing.Stages first second) :
    first.glimpse = second.glimpse := by
  have sessions := stages.session
  have gauges : ∀ which, (first.session.group.registries which).gauge =
      (second.session.group.registries which).gauge :=
    fun which => gauge_eq (sessions.group.registries which)
  simp only [Stage.glimpse, stages.answer, stages.records, gauges, sessions.received_eq,
    sessions.shelf_eq]

/-- A source yields a fragment in both sessions or in neither. -/
theorem Sessions.fragment? (sessions : unseeing.Sessions first second) {source source' : Source}
    (sources : Sources source source') :
    (first.fragment? source = none ∧ second.fragment? source' = none) ∨
      ∃ fragment fragment', first.fragment? source = some fragment ∧
        second.fragment? source' = some fragment' ∧ fragment.entries = fragment'.entries := by
  cases sources with
  | given entries => exact .inr ⟨_, _, rfl, rfl, entries⟩
  | parsed number =>
      have results := congrArg (fun results => results[number]?) sessions.parses
      simp only [List.getElem?_map] at results
      simp only [Session.fragment?]
      generalize first.parses[number]? = result at results ⊢
      generalize second.parses[number]? = result' at results ⊢
      rcases result with - | (error | fragment) <;> rcases result' with - | (error' | fragment') <;>
        simp_all [Except.map, Except.toOption, Fragment.rescope]

/-- A change of the shelf that keeps shelves alike keeps sessions alike. -/
theorem Sessions.changeShelf (sessions : unseeing.Sessions first second)
    (change change' : Shelf → Shelf)
    (alike : (change first.shelf).unscoped = (change' second.shelf).unscoped) :
    unseeing.Sessions (first.changeShelf change) (second.changeShelf change') where
  group :=
    ⟨sessions.group.registries, ⟨alike, sessions.group.world.1.2⟩, sessions.group.world.2⟩
  parses := sessions.parses

variable [DecidableEq ρ]

theorem Sessions.call (sessions : unseeing.Sessions first second) (which : ρ)
    {call call' : Call (Named ι (Client γ))} (calls : unseeing.lockstep.named.Calls call call') :
    unseeing.Stages (first.call which call) (second.call which call') := by
  have turns := sessions.group.turn which calls
  refine ⟨?_, ?_, sessions.group.next which calls, sessions.parses⟩
  · exact congrArg Answer.called turns.outcome
  · exact map_eq_of_forall₂ turns.notices fun _ _ => unscoped_record_eq

theorem Sessions.act (sessions : unseeing.Sessions first second)
    {action action' : Action ρ (Named ι (Client γ))} (actions : unseeing.Actions action action') :
    unseeing.Stages (first.act action) (second.act action') := by
  have shelves := sessions.shelf_eq
  cases actions with
  | parse scope scope' script =>
      -- Without their scopes, both results are what parsing without a scope gives.
      have results : (Script.parse scope script).map (Fragment.rescope none) =
          (Script.parse scope' script).map (Fragment.rescope none) := by
        rw [← Script.parse_eq_map, ← Script.parse_eq_map]
      refine ⟨congrArg Answer.parsed results, rfl, sessions.group, ?_⟩
      simp only [Session.act, List.map_append, sessions.parses, List.map_cons, results]
  | submit which sources =>
      simp only [Session.act]
      rcases sessions.fragment? sources with ⟨none, none'⟩ | ⟨_, _, some, some', entries⟩
      · rw [none, none']
        exact ⟨rfl, rfl, sessions⟩
      · rw [some, some']
        exact sessions.call which (.submit entries)
  | attach which name clients => exact sessions.call which (.attach ⟨rfl, clients⟩)
  | openIndex name policy =>
      have opened : (first.shelf.openIndex name policy).unscoped =
          (second.shelf.openIndex name policy).unscoped := by
        rw [Shelf.unscoped_openIndex, Shelf.unscoped_openIndex, shelves]
      exact ⟨rfl, rfl, sessions.changeShelf (fun shelf => shelf.openIndex name policy)
        (fun shelf => shelf.openIndex name policy) opened⟩
  | apply name sources =>
      simp only [Session.act]
      rcases sessions.fragment? sources with
        ⟨none, none'⟩ | ⟨fragment, fragment', some, some', entries⟩
      · rw [none, none']
        exact ⟨rfl, rfl, sessions⟩
      · have applied : (first.shelf.apply name fragment).unscoped =
            (second.shelf.apply name fragment').unscoped := by
          rw [Shelf.unscoped_apply, Shelf.unscoped_apply, shelves, entries]
        rw [some, some']
        exact ⟨rfl, rfl, sessions.changeShelf (fun shelf => shelf.apply name fragment)
          (fun shelf => shelf.apply name fragment') applied⟩

/-- Actions that differ in scopes only keep sessions alike. -/
theorem Sessions.run (sessions : unseeing.Sessions first second)
    {actions actions' : List (Action ρ (Named ι (Client γ)))}
    (related : List.Forall₂ unseeing.Actions actions actions') :
    List.Forall₂ unseeing.Stages (first.run actions) (second.run actions') := by
  induction related generalizing first second with
  | nil => exact .nil
  | cons action actions ih =>
      have stages := sessions.act action
      exact .cons stages (ih stages.session)

/-- Two sessions whose actions differ in scopes only give the same glimpses.  Every parse has the
same error or a fragment with the same entries, every call the same outcome; between the actions the
registries, the indexes and what each consumer received are the same up to scopes; and so are the
records, behind `scope=`. -/
theorem glimpses_eq {world world' : ω} (worlds : unseeing.worlds world world') (shelf : Shelf)
    {actions actions' : List (Action ρ (Named ι (Client γ)))}
    (related : List.Forall₂ unseeing.Actions actions actions') :
    ((Session.fresh shelf world).run actions).map Stage.glimpse =
      ((Session.fresh shelf world').run actions').map Stage.glimpse := by
  have fresh : unseeing.Sessions (Session.fresh shelf world : Session ρ ι γ ω)
      (Session.fresh shelf world') :=
    ⟨⟨fun _ => .unattached .nil, ⟨rfl, worlds⟩, .nil⟩, rfl⟩
  exact map_eq_of_forall₂ (fresh.run related) fun _ _ => Stages.glimpse_eq

/-- A keeper that fails on its second fragment, and an index that is fed past the registries too. -/
theorem glimpses_eq_keeper :
    let session (first second : Option String) :
        List (Action Bool (Named String (Client Keeper))) :=
      [.parse first "var implementors = \x7b\"A\": [[\"impl X for A\"]], \"B\": []\x7d;",
        .submit false (.parsed 0), .openIndex "merged" .union, .apply "merged" (.parsed 0),
        .attach false ⟨"keeper", .guest ⟨1⟩⟩, .submit false (.given ⟨second, [⟨"C", []⟩]⟩),
        .submit true (.given ⟨first, [⟨"", []⟩]⟩), .submit true (.given ⟨first, [⟨"D", []⟩]⟩),
        .attach true ⟨"merged", .house (.index "merged")⟩]
    Keeper.unseeing.worlds [] [] ∧
      List.Forall₂ Keeper.unseeing.Actions (session none (some "core"))
        (session (some "") none) ∧
      ((Session.fresh Shelf.empty []).run (session none (some "core"))).map Stage.glimpse =
        ((Session.fresh Shelf.empty []).run (session (some "") none)).map Stage.glimpse := by
  intro session
  have worlds : Keeper.unseeing.worlds [] [] := rfl
  have related : List.Forall₂ Keeper.unseeing.Actions (session none (some "core"))
      (session (some "") none) :=
    .cons (.parse _ _ _) (.cons (.submit _ (.parsed 0)) (.cons (.openIndex _ _)
      (.cons (.apply _ (.parsed 0)) (.cons (.attach _ _ (.guest rfl))
      (.cons (.submit _ (.given rfl)) (.cons (.submit _ (.given rfl))
      (.cons (.submit _ (.given rfl)) (.cons (.attach _ _ (.house _)) .nil))))))))
  exact ⟨worlds, related, glimpses_eq worlds Shelf.empty related⟩

end Unseeing

end TraitIndex
