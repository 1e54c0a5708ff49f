import TraitIndex.Proofs.Client
import TraitIndex.Proofs.Registry.Group
import TraitIndex.Script.Table

/-!
# Sessions of a host

A host parses scripts, submits fragments to its registries, attaches consumers to them, and folds
fragments into indexes that it opened, which consumers may share.  A fragment is given as it is, or
it is the result of a parse that the host made before.  A journal tells which consumer received
which fragment, in the order of time.
-/

namespace TraitIndex

open Registry

/-- Where a host takes a fragment from. -/
inductive Source where
  | given (fragment : Fragment)
  /-- The result of the parse with this number, counted from zero. -/
  | parsed (number : Nat)

inductive Action (ρ κ : Type) where
  | parse (scope : Option String) (script : String)
  | submit (which : ρ) (source : Source)
  | attach (which : ρ) (consumer : κ)
  | openIndex (name : String) (policy : MergePolicy)
  | apply (name : String) (source : Source)

inductive Answer where
  | parsed (result : Except Script.LoadError Fragment)
  | called (outcome : Outcome)
  | done
  /-- There is no fragment to be had from the source. -/
  | absent

/-- Named consumers and their journal, around one shelf. -/
structure Session (ρ ι γ ω : Type) where
  group : Group ρ (Named ι (Client γ)) (Journal ι (Shelf × ω))
  parses : List (Except Script.LoadError Fragment)

/-- What an action of the host came to, and the session after it. -/
structure Stage (ρ ι γ ω : Type) where
  answer : Answer
  notices : List Notice
  session : Session ρ ι γ ω

namespace Session

variable {ρ ι γ ω : Type}

def fresh (shelf : Shelf) (world : ω) : Session ρ ι γ ω :=
  ⟨.fresh (.opened (shelf, world)), []⟩

def shelf (session : Session ρ ι γ ω) : Shelf :=
  session.group.world.world.1

def fragment? (session : Session ρ ι γ ω) : Source → Option Fragment
  | .given fragment => some fragment
  | .parsed number => session.parses[number]? >>= Except.toOption

/-- Changes the shelf, past the registries. -/
def changeShelf (change : Shelf → Shelf) (session : Session ρ ι γ ω) : Session ρ ι γ ω :=
  let journal := session.group.world
  { session with
    group := ⟨session.group.registries,
      ⟨(change journal.world.1, journal.world.2), journal.entries⟩⟩ }

variable [DecidableEq ρ] [Guest γ ω]

def call (session : Session ρ ι γ ω) (which : ρ) (call : Call (Named ι (Client γ))) :
    Stage ρ ι γ ω :=
  let turn := session.group.turn (which, call)
  ⟨.called turn.outcome, turn.notices, { session with group := session.group.next (which, call) }⟩

def act (session : Session ρ ι γ ω) : Action ρ (Named ι (Client γ)) → Stage ρ ι γ ω
  | .parse scope script =>
      let result := Script.parse scope script
      ⟨.parsed result, [], { session with parses := session.parses ++ [result] }⟩
  | .submit which source =>
      match session.fragment? source with
      | none => ⟨.absent, [], session⟩
      | some fragment => session.call which (.submit fragment)
  | .attach which named => session.call which (.attach named)
  | .openIndex name policy =>
      ⟨.done, [], session.changeShelf fun shelf => shelf.openIndex name policy⟩
  | .apply name source =>
      match session.fragment? source with
      | none => ⟨.absent, [], session⟩
      | some fragment => ⟨.done, [], session.changeShelf fun shelf => shelf.apply name fragment⟩

def run (session : Session ρ ι γ ω) : List (Action ρ (Named ι (Client γ))) → List (Stage ρ ι γ ω)
  | [] => []
  | action :: actions =>
      let stage := session.act action
      stage :: stage.session.run actions

end Session

end TraitIndex
