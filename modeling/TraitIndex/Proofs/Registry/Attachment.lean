import TraitIndex.Proofs.Registry.Flush

/-!
# One attachment, for good

A run is looked at moment by moment, each moment being a call with the registry and the world that
it is made on.  What carries the proofs is that a registry that a consumer is attached to stays
attached to that consumer, through failures and through the calls that it turns away; so the first
attachment that succeeds settles every later moment, and until then nothing is attached.
-/

namespace TraitIndex.Registry

/-- A call of a run, with the registry and the world that it is made on. -/
structure Moment (κ ω : Type) where
  registry : Registry κ
  world : ω
  call : Call κ

variable {ι κ ω : Type} [Consumer κ ω]

namespace Moment

def turn (moment : Moment κ ω) : Turn κ ω :=
  moment.registry.turn moment.world moment.call

/-- Holds of a moment at which an attachment succeeds. -/
def Attaches (moment : Moment κ ω) : Prop :=
  ∃ flushed, moment.turn.outcome = .attached flushed

/-- Holds of a moment at which the consumer of the given name is attached already. -/
def HeldBy (moment : Moment (Named ι κ) (Journal ι ω)) (name : ι) : Prop :=
  ∃ named count, moment.registry = .attached named count ∧ named.name = name

/-- Holds of a moment at which a fragment is handed once, to the attached consumer, whose name is
given; it stays attached, in the state that it is left in. -/
def HandsOnly (moment : Moment (Named ι κ) (Journal ι ω)) (name : ι) (fragment : Fragment) :
    Prop :=
  ∃ named count after,
    let reaction := Consumer.accept named fragment moment.world
    moment.registry = .attached named count ∧ named.name = name ∧
      moment.turn.handovers = [⟨named, fragment, reaction.failed⟩] ∧
      moment.turn.world = reaction.world ∧
      moment.turn.world.entries = moment.world.entries ++ [(name, fragment)] ∧
      moment.turn.registry = .attached reaction.consumer after

/-- Holds of a moment at which an attachment fails because the consumer that was to be attached
fails.  Of what waits it takes the fragments in front, one after the other, and fails on the next one
in the world that it has then come to; nobody else is handed anything, and what is behind waits
on. -/
structure FailsByOwn (moment : Moment (Named ι κ) (Journal ι ω)) (named : Named ι κ) : Prop where
  outcome : moment.turn.outcome = .failed
  free : moment.turn.registry.isAttached = false
  own : ∀ handover ∈ moment.turn.handovers, handover.consumer.name = named.name
  stopped : ∃ earlier fragment behind,
    let ready := deliver named moment.world earlier
    let reaction := Consumer.accept ready.1 fragment ready.2
    moment.registry = .unattached (earlier ++ fragment :: behind) ∧
      Consumer.FailsBehind named moment.world earlier fragment ∧
      moment.turn.handovers.getLast? = some ⟨ready.1, fragment, true⟩ ∧
      moment.turn.world = reaction.world ∧
      moment.turn.world.entries =
        moment.world.entries ++ (earlier ++ [fragment]).map (Prod.mk named.name) ∧
      moment.turn.registry = .unattached behind

/-- Holds of a moment that leaves the registry and the world as they are, while the call is refused
for the given reason and nobody is handed anything. -/
def Refuses (moment : Moment κ ω) (refusal : Refusal) : Prop :=
  moment.turn.outcome = .refused refusal ∧ moment.turn.handovers = [] ∧
    moment.turn.registry = moment.registry ∧ moment.turn.world = moment.world

end Moment

/-- The moments of a run. -/
def moments (registry : Registry κ) (world : ω) : List (Call κ) → List (Moment κ ω)
  | [] => []
  | call :: calls =>
      let first : Moment κ ω := ⟨registry, world, call⟩
      first :: moments first.turn.registry first.turn.world calls

theorem map_turn_moments (registry : Registry κ) (world : ω) (calls : List (Call κ)) :
    (registry.moments world calls).map Moment.turn = registry.turns world calls := by
  induction calls generalizing registry world with
  | nil => rfl
  | cons call calls ih => exact congrArg (registry.turn world call :: ·) (ih _ _)

section Turned

variable {registry : Registry κ} {world : ω} {call : Call κ} {turn : Turn κ ω}
  {held : Registry (Named ι κ)} {journal : Journal ι ω} {named : Named ι κ} {fragment : Fragment}

theorem Turned.exists_consumer (turned : Turned registry world call turn) {flushed : Nat}
    (outcome : turn.outcome = .attached flushed) : ∃ consumer, call = .attach consumer := by
  cases turned with
  | rejected => cases outcome
  | queued => cases outcome
  | forwarded => cases outcome
  | forwardFailed => cases outcome
  | duplicate => exact ⟨_, rfl⟩
  | attached => exact ⟨_, rfl⟩
  | flushFailed => exact ⟨_, rfl⟩

theorem Turned.attached_of_outcome {turn : Turn (Named ι κ) (Journal ι ω)}
    (turned : Turned held journal (.attach named) turn) {flushed : Nat}
    (outcome : turn.outcome = .attached flushed) :
    ∃ after count, turn.registry = .attached after count ∧ after.name = named.name := by
  cases turned with
  | duplicate => cases outcome
  | attached => exact ⟨_, _, rfl, name_flush _ _ _⟩
  | flushFailed => cases outcome

/-- An attached consumer stays attached, also when it fails. -/
theorem Turned.attached_of_attached {call : Call (Named ι κ)} {count : Nat}
    {turn : Turn (Named ι κ) (Journal ι ω)}
    (turned : Turned (.attached named count) journal call turn) :
    ∃ after further, turn.registry = .attached after further ∧ after.name = named.name := by
  cases turned with
  | rejected => exact ⟨named, count, rfl, rfl⟩
  | forwarded _ reaction => exact ⟨_, _, rfl, name_of_accept reaction⟩
  | forwardFailed _ reaction => exact ⟨_, _, rfl, name_of_accept reaction⟩
  | duplicate => exact ⟨named, count, rfl, rfl⟩

theorem Turned.isAttached_eq_false (turned : Turned registry world call turn)
    (free : registry.isAttached = false) (fails : ∀ flushed, turn.outcome ≠ .attached flushed) :
    turn.registry.isAttached = false := by
  cases turned with
  | rejected => exact free
  | queued => rfl
  | forwarded => cases free
  | forwardFailed => cases free
  | duplicate => cases free
  | attached => exact absurd rfl (fails _)
  | flushFailed => rfl

theorem Turned.isQueued_iff (turned : Turned registry world (.submit fragment) turn) :
    turn.outcome.isQueued = true ↔ fragment.WellFormed ∧ registry.isAttached = false := by
  cases turned with
  | rejected faulty => simp [Outcome.isQueued, Fragment.WellFormed, faulty]
  | queued wellFormed => simp [Outcome.isQueued, isAttached, wellFormed]
  | forwarded => simp [Outcome.isQueued, isAttached]
  | forwardFailed => simp [Outcome.isQueued, isAttached]

end Turned

namespace Moment

theorem turned (moment : Moment κ ω) :
    Turned moment.registry moment.world moment.call moment.turn :=
  turned_turn _ _ _

theorem Attaches.exists_consumer {moment : Moment κ ω} (attaches : moment.Attaches) :
    ∃ consumer, moment.call = .attach consumer := by
  rcases attaches with ⟨flushed, outcome⟩
  exact moment.turned.exists_consumer outcome

variable {moment : Moment (Named ι κ) (Journal ι ω)} {name : ι} {fragment : Fragment}
  {named : Named ι κ}

theorem HeldBy.refuses (held : moment.HeldBy name) (called : moment.call = .attach named) :
    moment.Refuses .duplicateAttachment := by
  rcases held with ⟨holder, count, registry, _⟩
  rcases moment with ⟨_, journal, _⟩
  cases registry
  cases called
  exact ⟨rfl, rfl, rfl, rfl⟩

theorem HeldBy.not_attaches (held : moment.HeldBy name) : ¬ moment.Attaches := by
  intro attaches
  rcases attaches.exists_consumer with ⟨named, called⟩
  rcases attaches with ⟨flushed, outcome⟩
  rw [(held.refuses called).1] at outcome
  cases outcome

theorem HeldBy.handsOnly (held : moment.HeldBy name) (called : moment.call = .submit fragment)
    (wellFormed : fragment.WellFormed) : moment.HandsOnly name fragment := by
  have turned := moment.turned
  rcases held with ⟨holder, count, registry, rfl⟩
  rw [registry, called] at turned
  simp only [HandsOnly, registry]
  generalize moment.turn = turn at turned ⊢
  cases turned with
  | rejected faulty => simp [faulty, Fragment.WellFormed] at wellFormed
  | forwarded _ reaction =>
      refine ⟨holder, count, count + 1, rfl, rfl, ?_⟩
      rw [reaction]
      exact ⟨rfl, rfl, entries_of_accept reaction, rfl⟩
  | forwardFailed _ reaction =>
      refine ⟨holder, count, count, rfl, rfl, ?_⟩
      rw [reaction]
      exact ⟨rfl, rfl, entries_of_accept reaction, rfl⟩

theorem failsByOwn_of_failsBehind {journal : Journal ι ω} {earlier : List Fragment}
    (fails : Consumer.FailsBehind named journal earlier fragment) (behind : List Fragment) :
    FailsByOwn ⟨.unattached (earlier ++ fragment :: behind), journal, .attach named⟩ named := by
  have flushed := flush_of_failsBehind fails behind
  have turned := (Turned.flushFailed (remaining_of_failsBehind fails behind)).eq_turn
  have entered := entries_flush_of_handed (handed_of_failsBehind fails behind)
  exact
    { outcome := congrArg Turn.outcome turned
      free := congrArg (fun turn => turn.registry.isAttached) turned
      own := by
        intro handover mem
        rw [turn, turned] at mem
        exact name_of_mem_handovers_flush mem
      stopped := by
        refine ⟨earlier, fragment, behind, rfl, fails, ?_, ?_, ?_, ?_⟩
        · rw [turn, turned, flushed]
          exact List.getLast?_concat
        · rw [turn, turned, flushed]
        · rw [turn, turned, entered]
        · rw [turn, turned] }

/-- On a registry that nothing is attached to, an attachment succeeds or fails by its own
consumer. -/
theorem attaches_or_failsByOwn (free : moment.registry.isAttached = false)
    (called : moment.call = .attach named) : moment.Attaches ∨ moment.FailsByOwn named := by
  rcases moment with ⟨registry, journal, _⟩
  cases called
  cases registry with
  | attached => cases free
  | unattached waiting =>
      rcases Consumer.takes_or_failsBehind named journal waiting with
        takes | ⟨earlier, fragment, behind, rfl, fails⟩
      · have turned := (Turned.attached (remaining_of_takes takes)).eq_turn
        exact .inl ⟨waiting.length, congrArg Turn.outcome turned⟩
      · exact .inr (failsByOwn_of_failsBehind fails behind)

/-- A fragment with a fault is refused for it, attached or not. -/
theorem exists_refuses_of_faulty (called : moment.call = .submit fragment)
    (faulty : ¬ fragment.WellFormed) :
    ∃ fault, fragment.fault? = some fault ∧ moment.Refuses (.malformed fault) := by
  have turned := moment.turned
  rw [called] at turned
  simp only [Refuses]
  generalize moment.turn = turn at turned ⊢
  generalize moment.registry = registry at turned ⊢
  cases turned with
  | rejected fault => exact ⟨_, fault, rfl, rfl, rfl, rfl⟩
  | queued wellFormed => exact absurd wellFormed faulty
  | forwarded wellFormed => exact absurd wellFormed faulty
  | forwardFailed wellFormed => exact absurd wellFormed faulty

end Moment

section Runs

theorem heldBy_of_mem_moments {moment : Moment (Named ι κ) (Journal ι ω)} {named : Named ι κ}
    {count : Nat} {journal : Journal ι ω} {calls : List (Call (Named ι κ))}
    (mem : moment ∈ (attached named count).moments journal calls) : moment.HeldBy named.name := by
  induction calls generalizing named count journal with
  | nil => cases mem
  | cons call calls ih =>
      rcases List.mem_cons.mp mem with rfl | mem
      · exact ⟨named, count, rfl, rfl⟩
      · rcases (turned_turn (attached named count) journal call).attached_of_attached with
          ⟨after, further, left, kept⟩
        simp only [Moment.turn] at mem
        rw [left] at mem
        rw [← kept]
        exact ih mem

variable (registry : Registry (Named ι κ)) (journal : Journal ι ω)
  (calls : List (Call (Named ι κ)))

/-- Whoever attaches successfully holds the registry at every later moment. -/
theorem pairwise_heldBy :
    (registry.moments journal calls).Pairwise fun earlier later =>
      ∀ named, earlier.call = .attach named → earlier.Attaches → later.HeldBy named.name := by
  induction calls generalizing registry journal with
  | nil => exact .nil
  | cons call calls ih =>
      refine .cons ?_ (ih _ _)
      intro later mem named called attaches
      rcases attaches with ⟨flushed, outcome⟩
      have turned := Moment.turned ⟨registry, journal, call⟩
      rw [called] at turned
      rcases turned.attached_of_outcome outcome with ⟨after, count, left, kept⟩
      rw [left] at mem
      rw [← kept]
      exact heldBy_of_mem_moments mem

theorem pairwise_isAttached :
    (registry.moments journal calls).Pairwise fun earlier later =>
      earlier.turn.registry.isAttached = true → later.turn.registry.isAttached = true := by
  induction calls generalizing registry journal with
  | nil => exact .nil
  | cons call calls ih =>
      refine .cons ?_ (ih _ _)
      intro later mem isAttached
      cases left : (Moment.turn ⟨registry, journal, call⟩).registry with
      | unattached waiting =>
          rw [left] at isAttached
          cases isAttached
      | attached named count =>
          rw [left] at mem
          rcases heldBy_of_mem_moments mem with ⟨holder, further, registry, _⟩
          have turned := later.turned
          rw [registry] at turned
          rcases turned.attached_of_attached with ⟨after, count, stays, _⟩
          rw [stays]
          rfl

variable {registry journal calls}

/-- Nothing is attached before the first successful attachment. -/
theorem isAttached_eq_false_of_none_attaches
    {earlier later : List (Moment (Named ι κ) (Journal ι ω))}
    {moment : Moment (Named ι κ) (Journal ι ω)} (free : registry.isAttached = false)
    (split : registry.moments journal calls = earlier ++ moment :: later)
    (none : ∀ other ∈ earlier, ¬ other.Attaches) : moment.registry.isAttached = false := by
  induction earlier generalizing registry journal calls with
  | nil =>
      cases calls with
      | nil => cases split
      | cons call calls =>
          rw [List.nil_append] at split
          rw [← (List.cons.inj split).1]
          exact free
  | cons other earlier ih =>
      cases calls with
      | nil => cases split
      | cons call calls =>
          rw [List.cons_append] at split
          rcases List.cons.inj split with ⟨first, rest⟩
          refine ih ?_ rest ?_
          · apply (Moment.turned ⟨registry, journal, call⟩).isAttached_eq_false free
            intro flushed outcome
            apply none other (by simp)
            rw [← first]
            exact ⟨flushed, outcome⟩
          · intro another mem
            exact none another (by simp [mem])

end Runs

/-- What the moments of a run on a fresh registry say of attachments. -/
structure AttachedOnce (run : List (Moment (Named ι κ) (Journal ι ω))) : Prop where
  permanent : run.Pairwise fun earlier later =>
    earlier.turn.registry.isAttached = true → later.turn.registry.isAttached = true
  once : run.Pairwise fun earlier later => earlier.Attaches → ¬ later.Attaches
  failing : ∀ earlier moment later, run = earlier ++ moment :: later →
    (∀ other ∈ earlier, ¬ other.Attaches) → ∀ named, moment.call = .attach named →
      moment.Attaches ∨ moment.FailsByOwn named
  turnedAway : run.Pairwise fun earlier later =>
    earlier.Attaches → ∀ named, later.call = .attach named → later.Refuses .duplicateAttachment
  handed : run.Pairwise fun earlier later =>
    ∀ winner, earlier.call = .attach winner → earlier.Attaches →
      ∀ fragment, later.call = .submit fragment → fragment.WellFormed →
        later.HandsOnly winner.name fragment
  queued : ∀ moment ∈ run, ∀ fragment, moment.call = .submit fragment →
    (moment.turn.outcome.isQueued = true ↔
      fragment.WellFormed ∧ moment.registry.isAttached = false)
  malformed : ∀ moment ∈ run, ∀ fragment, moment.call = .submit fragment →
    ¬ fragment.WellFormed →
      ∃ fault, fragment.fault? = some fault ∧ moment.Refuses (.malformed fault)

/-- In every run, with whatever consumers, at most one attachment succeeds, and it settles for good
who is handed what is submitted from then on. -/
theorem attachedOnce_moments (world : ω) (calls : List (Call (Named ι κ))) :
    AttachedOnce ((empty : Registry (Named ι κ)).moments (Journal.opened world) calls) := by
  have held := pairwise_heldBy (empty : Registry (Named ι κ)) (Journal.opened world) calls
  exact
    { permanent := pairwise_isAttached _ _ _
      once := by
        apply held.imp
        intro earlier later heldBy attaches
        rcases attaches.exists_consumer with ⟨winner, called⟩
        exact (heldBy winner called attaches).not_attaches
      failing := by
        intro earlier moment later split none named called
        exact moment.attaches_or_failsByOwn
          (isAttached_eq_false_of_none_attaches rfl split none) called
      turnedAway := by
        apply held.imp
        intro earlier later heldBy attaches named called
        rcases attaches.exists_consumer with ⟨winner, attached⟩
        exact (heldBy winner attached attaches).refuses called
      handed := by
        apply held.imp
        intro earlier later heldBy winner attached attaches fragment called wellFormed
        exact (heldBy winner attached attaches).handsOnly called wellFormed
      queued := by
        intro moment _ fragment called
        have turned := moment.turned
        rw [called] at turned
        exact turned.isQueued_iff
      malformed := by
        intro moment _ fragment called faulty
        exact moment.exists_refuses_of_faulty called faulty }

/-- A submission to a registry that nothing is attached to need not be queued: it is refused when
the fragment is malformed. -/
theorem not_forall_isQueued_iff :
    ¬ ∀ calls : List (Call ShelfConsumer),
      ∀ moment ∈ (empty : Registry ShelfConsumer).moments Shelf.empty calls,
        ∀ fragment, moment.call = .submit fragment →
          (moment.turn.outcome.isQueued = true ↔ moment.registry.isAttached = false) := by
  intro always
  let blank : Fragment := ⟨none, [⟨"", []⟩]⟩
  have queued := (always [.submit blank] ⟨empty, Shelf.empty, .submit blank⟩
    List.mem_cons_self blank rfl).mpr rfl
  exact absurd queued (by decide)

end TraitIndex.Registry
