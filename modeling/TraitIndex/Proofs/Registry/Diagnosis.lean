import TraitIndex.Proofs.Registry.Lockstep
import TraitIndex.Proofs.Registry.Steady

/-!
# Diagnostics do not depend on descriptors

Whatever a registry tells about itself can be told from the outlines of the fragments that it was
given: their scopes, their symbols, and for each symbol which of its descriptors are blank.  Two
runs whose fragments have equal outlines, and whose consumers fail on equally numbered fragments, go
in lockstep.  Their outcomes and messages, the states between the calls and the log are equal,
whatever the descriptors say.
-/

namespace TraitIndex

/-- The symbol, and for each descriptor whether it shows anything. -/
def Entry.outline (entry : Entry) : String × List Bool :=
  (entry.symbol, entry.descriptors.map Descriptor.isWellFormed)

namespace Fragment

def outline (fragment : Fragment) : Option String × List (String × List Bool) :=
  (fragment.scope, fragment.entries.map Entry.outline)

theorem entryFault?_eq_of_outline {entry entry' : Entry} (same : entry.outline = entry'.outline)
    (earlier : List String) (position : Nat) :
    entryFault? earlier position entry = entryFault? earlier position entry' := by
  rw [Entry.outline, Entry.outline, Prod.mk.injEq] at same
  rcases same with ⟨symbol, shown⟩
  -- The search for a blank descriptor asks of each only what the outline says of it.
  have blank : ∀ descriptors : List Descriptor,
      (descriptors.findIdx? fun descriptor => !descriptor.isWellFormed) =
        (descriptors.map Descriptor.isWellFormed).findIdx? (!·) := by
    intro descriptors
    rw [List.findIdx?_map]
    rfl
  simp only [entryFault?, blank, symbol, shown]

theorem firstFault?_eq_of_outlines {entries entries' : List Entry}
    (same : entries.map Entry.outline = entries'.map Entry.outline) (earlier : List String)
    (position : Nat) :
    firstFault? earlier position entries = firstFault? earlier position entries' := by
  induction entries generalizing entries' earlier position with
  | nil => rw [List.map_eq_nil_iff.mp same.symm]
  | cons entry entries ih =>
      rcases List.map_eq_cons_iff.mp same.symm with ⟨entry', rest', rfl, first, rest⟩
      have symbol : entry'.symbol = entry.symbol := congrArg Prod.fst first
      rw [firstFault?, firstFault?, entryFault?_eq_of_outline first, symbol, ih rest.symm]

/-- The fault of a fragment names no descriptor's text. -/
theorem fault?_eq_of_outline {fragment fragment' : Fragment}
    (same : fragment.outline = fragment'.outline) : fragment.fault? = fragment'.fault? :=
  firstFault?_eq_of_outlines (congrArg Prod.snd same) [] 0

theorem size_eq_of_outline {fragment fragment' : Fragment}
    (same : fragment.outline = fragment'.outline) : fragment.size = fragment'.size := by
  have lengths := congrArg List.length (congrArg Prod.snd same)
  simpa [outline, size] using lengths

end Fragment

section Consumers

variable {κ ω : Type} [Consumer κ ω]

/-- A consumer after it was handed some fragments, each in a world of its own. -/
def Consumer.afterAll (consumer : κ) (earlier : List (Fragment × ω)) : κ :=
  earlier.foldl (fun consumer handed => (accept consumer handed.1 handed.2).consumer) consumer

theorem Consumer.afterAll_cons (consumer : κ) (handed : Fragment × ω)
    (earlier : List (Fragment × ω)) :
    afterAll consumer (handed :: earlier) =
      afterAll (accept consumer handed.1 handed.2).consumer earlier :=
  rfl

/-- Whether the consumer fails depends only on how many fragments it was handed before, neither on
the fragments nor on the worlds. -/
def Consumer.FailsBy (plan : Nat → Bool) (consumer : κ) : Prop :=
  ∀ earlier fragment world,
    (accept (afterAll consumer earlier) fragment world).failed = plan earlier.length

theorem Consumer.FailsBy.accept {plan : Nat → Bool} {consumer : κ}
    (fails : FailsBy plan consumer) (fragment : Fragment) (world : ω) :
    (accept consumer fragment world).failed = plan 0 ∧
      FailsBy (fun calls => plan (calls + 1)) (accept consumer fragment world).consumer := by
  refine ⟨fails [] fragment world, ?_⟩
  intro earlier later left
  exact fails ((fragment, world) :: earlier) later left

theorem Consumer.NeverFails.failsBy {consumer : κ} (steady : NeverFails consumer) :
    FailsBy (fun _ => false) consumer := by
  intro earlier fragment world
  induction earlier generalizing consumer with
  | nil =>
      rcases steady.accept fragment world with ⟨after, left, reaction, _⟩
      exact congrArg Reaction.failed reaction
  | cons handed earlier ih =>
      rcases steady.accept handed.1 handed.2 with ⟨after, left, reaction, steadyAfter⟩
      have step : (Consumer.accept consumer handed.1 handed.2).consumer = after :=
        congrArg Reaction.consumer reaction
      rw [afterAll_cons, step]
      exact ih steadyAfter

end Consumers

namespace ShelfConsumer

variable (list : String) (trigger : Trigger) (calls number : Nat)

theorem afterAll_recorder (earlier : List (Fragment × Shelf)) :
    Consumer.afterAll (recorder list trigger calls) earlier =
      recorder list trigger (calls + earlier.length) := by
  induction earlier generalizing calls with
  | nil => rfl
  | cons handed earlier ih =>
      rw [Consumer.afterAll_cons, consumer_accept_recorder, ih, List.length_cons]
      simp only [Nat.add_comm, Nat.add_left_comm]

theorem failsBy_recorder :
    Consumer.FailsBy (fun earlier => calls + earlier + 1 = number)
      (recorder list (.atCall number) calls) := by
  intro earlier fragment shelf
  rw [afterAll_recorder]
  by_cases fires : calls + earlier.length + 1 = number <;>
    simp [Consumer.accept, accept, Trigger.fires, fires]

end ShelfConsumer

namespace Registry

variable {κ ω : Type}

/-- What can be learnt from a call and from a look at the registry behind it, short of the waiting
fragments themselves. -/
structure Diagnosis where
  outcome : Outcome
  /-- The message of a refusal, with that of its cause. -/
  messages : Option (String × Option String)
  isAttached : Bool
  pending : Nat
  delivered : Nat
  description : String
  records : List Log.Record
  deriving DecidableEq, Repr

def Outcome.messages : Outcome → Option (String × Option String)
  | refused refusal => some (refusal.message, refusal.source?)
  | _ => none

def Turn.diagnosis (turn : Turn κ ω) : Diagnosis where
  outcome := turn.outcome
  messages := turn.outcome.messages
  isAttached := turn.registry.isAttached
  pending := turn.registry.pending.length
  delivered := turn.registry.delivered
  description := turn.registry.describe
  records := turn.notices.map Notice.record

variable [Consumer κ ω]

/-- Fragments with equal outlines, and consumers that fail on equally numbered fragments. -/
def outlined : Lockstep κ ω where
  fragments first second := first.outline = second.outline
  consumers first second :=
    ∃ plan, Consumer.FailsBy plan first ∧ Consumer.FailsBy plan second
  worlds _ _ := True
  fault_eq := Fragment.fault?_eq_of_outline
  size_eq := Fragment.size_eq_of_outline
  accept := by
    rintro consumer consumer' fragment fragment' world world' ⟨plan, first, second⟩ _ _
    rcases first.accept fragment world with ⟨failed, after⟩
    rcases second.accept fragment' world' with ⟨failed', after'⟩
    exact ⟨failed.trans failed'.symm, ⟨_, after, after'⟩, trivial⟩

/-- The notices of two such runs are equal, since equal outlines have equal scopes. -/
theorem Notice.eq_of_outlined {first second : Notice}
    (related : (outlined : Lockstep κ ω).Notices first second) : first = second := by
  cases related with
  | rejected same => exact congrArg (fragmentRejected · _) (congrArg Prod.fst same)
  | queued same => exact congrArg (fragmentQueued · _ _) (congrArg Prod.fst same)
  | forwarded same => exact congrArg (fragmentForwarded · _ _) (congrArg Prod.fst same)
  | duplicate => rfl
  | attached => rfl

theorem Turn.diagnosis_eq_of_outlined {first second : Turn κ ω}
    (related : outlined.Turns first second) : first.diagnosis = second.diagnosis := by
  have registries := related.registry
  have records : first.notices.map Notice.record = second.notices.map Notice.record :=
    map_eq_of_forall₂ related.notices fun _ _ same => congrArg _ (Notice.eq_of_outlined same)
  simp only [diagnosis, related.outcome, registries.isAttached_eq, registries.pending.length_eq,
    registries.delivered_eq, registries.describe_eq, records]

/-- Two runs on fresh registries give the same diagnoses if their fragments have equal outlines and
their consumers fail on equally numbered fragments. -/
theorem map_diagnosis_turns {calls calls' : List (Call κ)}
    (alike : List.Forall₂ outlined.Calls calls calls') (world world' : ω) :
    ((empty : Registry κ).turns world calls).map Turn.diagnosis =
      ((empty : Registry κ).turns world' calls').map Turn.diagnosis := by
  have fresh : (outlined : Lockstep κ ω).Registries empty empty := .unattached .nil
  have anywhere : (outlined : Lockstep κ ω).worlds world world' := trivial
  have turns := Lockstep.turns fresh anywhere alike
  exact map_eq_of_forall₂ turns fun _ _ => Turn.diagnosis_eq_of_outlined

/-- A malformed fragment, a recorder that fails on its second fragment and one that never fails; the
runs agree on no descriptor that shows anything. -/
theorem map_diagnosis_turns_recorders :
    let run (first second : String) : List (Call ShelfConsumer) :=
      [.submit ⟨none, [⟨"A", [⟨first⟩, ⟨" "⟩]⟩]⟩, .submit ⟨some "core", [⟨"A", [⟨first⟩]⟩]⟩,
        .submit ⟨none, [⟨"B", [⟨second⟩, ⟨first⟩]⟩]⟩, .submit ⟨none, [⟨"C", []⟩]⟩,
        .attach (.recorder "first" (.atCall 2) 0), .attach (.recorder "second" .never 0),
        .submit ⟨some "", [⟨"A", [⟨second⟩]⟩]⟩]
    List.Forall₂ outlined.Calls (run "impl X for A" "impl Y for B")
        (run "<b>&amp;</b>" "secret=1") ∧
      ((empty : Registry ShelfConsumer).turns Shelf.empty
          (run "impl X for A" "impl Y for B")).map Turn.diagnosis =
        ((empty : Registry ShelfConsumer).turns Shelf.empty
          (run "<b>&amp;</b>" "secret=1")).map Turn.diagnosis := by
  intro run
  have alike : List.Forall₂ (outlined : Lockstep ShelfConsumer Shelf).Calls
      (run "impl X for A" "impl Y for B") (run "<b>&amp;</b>" "secret=1") := by
    have submit : ∀ fragment fragment' : Fragment, fragment.outline = fragment'.outline →
        (outlined : Lockstep ShelfConsumer Shelf).Calls (.submit fragment) (.submit fragment') :=
      fun _ _ same => .submit same
    have failing := ShelfConsumer.failsBy_recorder "first" 0 2
    have steady := (ShelfConsumer.neverFails_recorder "second" 0).failsBy
    exact .cons (submit _ _ (by decide)) (.cons (submit _ _ (by decide))
      (.cons (submit _ _ (by decide)) (.cons (submit _ _ (by decide))
      (.cons (.attach ⟨_, failing, failing⟩) (.cons (.attach ⟨_, steady, steady⟩)
      (.cons (submit _ _ (by decide)) .nil))))))
  exact ⟨alike, map_diagnosis_turns alike Shelf.empty Shelf.empty⟩

end Registry

end TraitIndex
