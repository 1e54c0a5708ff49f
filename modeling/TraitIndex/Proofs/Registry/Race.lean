import TraitIndex.Proofs.Registry.Steady
import TraitIndex.Proofs.Schedule

/-!
# Producers racing for a consumer

Any number of producers submit well-formed fragments, each one after the other, and any number of
attachers attach one consumer each, in whatever order they take turns.  The schedule is cut at the
first attachment: what was submitted before it waits and is flushed into the winner, what comes
after it is forwarded to the winner, and every other attacher is turned away.
-/

namespace TraitIndex.Registry

inductive Thread (ι τ : Type) where
  | producer (name : ι)
  | attacher (name : τ)
  deriving DecidableEq

variable {ι τ κ ω : Type}

/-- A producer submits its fragments; an attacher attaches its consumer, under its own name. -/
def program (fragments : ι → List Fragment) (consumer : τ → κ) :
    Thread ι τ → List (Call (Named τ κ))
  | .producer name => (fragments name).map .submit
  | .attacher name => [.attach ⟨name, consumer name⟩]

/-- The outcomes of the turns of a schedule, each with the thread that gets it. -/
def outcomes (schedule : Schedule (Thread ι τ) (Call κ)) (turns : List (Turn κ ω)) :
    Schedule (Thread ι τ) Outcome :=
  (schedule.map Prod.fst).zip (turns.map Turn.outcome)

def production? : Thread ι τ × Call κ → Option (ι × Fragment)
  | (.producer name, .submit fragment) => some (name, fragment)
  | _ => none

def productions (schedule : Schedule (Thread ι τ) (Call κ)) : Schedule ι Fragment :=
  schedule.filterMap production?

section Programs

variable [DecidableEq ι] [DecidableEq τ] {fragments : ι → List Fragment} {consumer : τ → κ}
  {schedule : Schedule (Thread ι τ) (Call (Named τ κ))}

theorem mem_producer (interleaves : schedule.Interleaves (program fragments consumer)) {name : ι}
    {call : Call (Named τ κ)} (mem : (.producer name, call) ∈ schedule) :
    ∃ fragment ∈ fragments name, call = .submit fragment := by
  have made := Schedule.mem_of mem
  rw [interleaves, program, List.mem_map] at made
  rcases made with ⟨fragment, listed, same⟩
  exact ⟨fragment, listed, same.symm⟩

theorem mem_attacher (interleaves : schedule.Interleaves (program fragments consumer)) {name : τ}
    {call : Call (Named τ κ)} (mem : (.attacher name, call) ∈ schedule) :
    call = .attach ⟨name, consumer name⟩ := by
  have made := Schedule.mem_of mem
  rw [interleaves, program, List.mem_singleton] at made
  exact made

theorem of_productions (schedule : Schedule (Thread ι τ) (Call (Named τ κ))) (name : ι) :
    (productions schedule).of name = submissions (schedule.of (.producer name)) := by
  induction schedule with
  | nil => rfl
  | cons move schedule ih =>
      rcases move with ⟨thread, call⟩
      rw [productions] at ih ⊢
      cases thread with
      | producer other =>
          cases call with
          | submit fragment =>
              by_cases same : other = name <;>
                simp [production?, Schedule.of_cons, same, ih]
          | attach consumer =>
              by_cases same : other = name <;>
                simp [List.filterMap_cons, production?, Schedule.of_cons, same, ih]
      | attacher other => simp [List.filterMap_cons, production?, Schedule.of_cons, ih]

theorem productions_interleaves (interleaves : schedule.Interleaves (program fragments consumer)) :
    (productions schedule).Interleaves fragments := by
  intro name
  rw [of_productions, interleaves, program, submissions, List.filterMap_map]
  simp [Function.comp_def, Call.submitted?]

theorem map_snd_productions
    (interleaves : schedule.Interleaves (program fragments consumer))
    {part : Schedule (Thread ι τ) (Call (Named τ κ))} (contained : part ⊆ schedule) :
    (productions part).map Prod.snd = submissions (part.map Prod.snd) := by
  induction part with
  | nil => rfl
  | cons move part ih =>
      rcases move with ⟨thread, call⟩
      have mem : (thread, call) ∈ schedule := contained (by simp)
      have rest := ih fun later listed => contained (by simp [listed])
      rw [productions] at rest ⊢
      cases thread with
      | producer name =>
          rcases mem_producer interleaves mem with ⟨fragment, _, rfl⟩
          simp [production?, rest]
      | attacher name =>
          have isAttach := mem_attacher interleaves mem
          subst isAttach
          simp [List.filterMap_cons, production?, rest]

/-- Some attacher comes first; before it there are submissions only. -/
theorem exists_first_attacher [Nonempty τ]
    (interleaves : schedule.Interleaves (program fragments consumer)) :
    ∃ before winner after,
      schedule = before ++ (.attacher winner, .attach ⟨winner, consumer winner⟩) :: after ∧
        ∀ move ∈ before, ∃ name, move.1 = .producer name := by
  rcases ‹Nonempty τ› with ⟨someone⟩
  let attaches : Thread ι τ × Call (Named τ κ) → Bool := fun move =>
    match move.1 with
    | .producer _ => false
    | .attacher _ => true
  have mem : (.attacher someone, .attach ⟨someone, consumer someone⟩) ∈ schedule := by
    have made : Call.attach ⟨someone, consumer someone⟩ ∈ schedule.of (.attacher someone) := by
      rw [interleaves, program, List.mem_singleton]
    simp only [Schedule.of, List.mem_map, List.mem_filter, decide_eq_true_eq] at made
    rcases made with ⟨move, ⟨listed, thread⟩, call⟩
    rcases move with ⟨thread', call'⟩
    simp only at thread call
    rw [← thread, ← call]
    exact listed
  have found : (schedule.find? attaches).isSome := by
    rw [List.find?_isSome]
    exact ⟨_, mem, rfl⟩
  rcases Option.isSome_iff_exists.mp found with ⟨⟨thread, call⟩, first⟩
  rcases List.find?_eq_some_iff_append.mp first with ⟨isAttach, before, after, cut, notBefore⟩
  cases thread with
  | producer name => simp [attaches] at isAttach
  | attacher winner =>
      have listed : (.attacher winner, call) ∈ schedule := by simp [cut]
      have isCall := mem_attacher interleaves listed
      subst isCall
      refine ⟨before, winner, after, cut, ?_⟩
      intro move listed
      have quiet := notBefore move listed
      rcases move with ⟨thread, call⟩
      cases thread with
      | producer name => exact ⟨name, rfl⟩
      | attacher name => simp [attaches] at quiet

theorem map_snd_of_producers (interleaves : schedule.Interleaves (program fragments consumer))
    {part : Schedule (Thread ι τ) (Call (Named τ κ))} (contained : part ⊆ schedule)
    (producers : ∀ move ∈ part, ∃ name, move.1 = .producer name) :
    part.map Prod.snd = (submissions (part.map Prod.snd)).map .submit := by
  induction part with
  | nil => rfl
  | cons move part ih =>
      rcases move with ⟨thread, call⟩
      have mem : (thread, call) ∈ schedule := contained (by simp)
      have rest := ih (fun later listed => contained (by simp [listed]))
        (fun later listed => producers later (by simp [listed]))
      rcases producers (thread, call) (by simp) with ⟨name, rfl⟩
      rcases mem_producer interleaves mem with ⟨fragment, _, rfl⟩
      simpa using rest

theorem wellFormed_of_mem_submissions
    (interleaves : schedule.Interleaves (program fragments consumer))
    (wellFormed : ∀ name, ∀ fragment ∈ fragments name, fragment.WellFormed)
    {fragment : Fragment} (mem : fragment ∈ submissions (schedule.map Prod.snd)) :
    fragment.WellFormed := by
  rw [submissions, List.mem_filterMap] at mem
  rcases mem with ⟨call, listed, submitted⟩
  rcases List.mem_map.mp listed with ⟨⟨thread, call'⟩, moved, rfl⟩
  cases thread with
  | producer name =>
      rcases mem_producer interleaves moved with ⟨other, produced, rfl⟩
      simp only [Call.submitted?, Option.some.injEq] at submitted
      subst submitted
      exact wellFormed name other produced
  | attacher name =>
      have isAttach := mem_attacher interleaves moved
      subst isAttach
      simp [Call.submitted?] at submitted

end Programs

section Replies

theorem isQueued_reply (call : Call κ) : (reply call).isQueued = false := by
  cases call with
  | submit fragment =>
      cases faulty : fragment.fault? <;> simp [reply, faulty, Outcome.isQueued]
  | attach consumer => rfl

theorem countP_forwarded_reply (calls : List (Call κ)) :
    (calls.map reply).countP (fun outcome => outcome = .forwarded) = (accepted calls).length := by
  induction calls with
  | nil => rfl
  | cons call calls ih =>
      cases call with
      | submit fragment =>
          cases faulty : fragment.fault? with
          | some fault => simpa [reply, accepted, faulty, Fragment.WellFormed] using ih
          | none => simpa [reply, accepted, faulty, Fragment.WellFormed] using ih
      | attach consumer => simpa [reply, accepted] using ih

variable {queued : List Outcome} {flushed : Nat} {turns : List (Turn κ ω)} {later : List (Call κ)}

theorem countP_queued
    (replies : turns.map Turn.outcome = queued ++ .attached flushed :: later.map reply)
    (areQueued : ∀ outcome ∈ queued, outcome.isQueued = true) :
    turns.countP (fun turn => turn.outcome.isQueued) = queued.length := by
  have counted : turns.countP (fun turn => turn.outcome.isQueued) =
      (turns.map Turn.outcome).countP Outcome.isQueued := by
    rw [List.countP_map]
    rfl
  have noneLater : (later.map reply).countP Outcome.isQueued = 0 := by
    rw [List.countP_eq_zero]
    intro outcome mem
    rcases List.mem_map.mp mem with ⟨call, _, rfl⟩
    simp [isQueued_reply]
  rw [counted, replies, List.countP_append, List.countP_cons, noneLater,
    List.countP_eq_length.mpr areQueued]
  rfl

theorem countP_forwarded
    (replies : turns.map Turn.outcome = queued ++ .attached flushed :: later.map reply)
    (areQueued : ∀ outcome ∈ queued, outcome.isQueued = true) :
    turns.countP (fun turn => turn.outcome = .forwarded) = (accepted later).length := by
  have counted : turns.countP (fun turn => turn.outcome = .forwarded) =
      (turns.map Turn.outcome).countP (fun outcome => outcome = .forwarded) := by
    rw [List.countP_map]
    rfl
  have noneQueued : queued.countP (fun outcome => outcome = .forwarded) = 0 := by
    rw [List.countP_eq_zero]
    intro outcome mem isForwarded
    have isQueued := areQueued outcome mem
    simp only [decide_eq_true_eq] at isForwarded
    rw [isForwarded] at isQueued
    simp [Outcome.isQueued] at isQueued
  rw [counted, replies, List.countP_append, List.countP_cons, noneQueued,
    countP_forwarded_reply]
  simp

end Replies

section Cut

variable {fragments : ι → List Fragment} {consumer : τ → κ} {winner : τ}
  {before after : Schedule (Thread ι τ) (Call (Named τ κ))} {queued : List Outcome}
  {flushed : Nat} {turns : List (Turn (Named τ κ) ω)}

/-- A schedule cut at the attachment of the winner. -/
def cutAt (consumer : τ → κ) (before : Schedule (Thread ι τ) (Call (Named τ κ))) (winner : τ)
    (after : Schedule (Thread ι τ) (Call (Named τ κ))) :
    Schedule (Thread ι τ) (Call (Named τ κ)) :=
  before ++ (.attacher winner, .attach ⟨winner, consumer winner⟩) :: after

theorem outcomes_cutAt
    (replies : turns.map Turn.outcome =
      queued ++ .attached flushed :: (after.map Prod.snd).map reply)
    (sameLength : queued.length = before.length) :
    outcomes (cutAt consumer before winner after) turns =
      (before.map Prod.fst).zip queued ++
        (.attacher winner, .attached flushed) ::
          after.map fun move => (move.1, reply move.2) := by
  rw [outcomes, cutAt, replies, List.map_append, List.zip_append (by simp [sameLength]),
    List.map_cons, List.zip_cons_cons, List.map_map, List.zip_map']
  rfl

theorem submissions_cutAt :
    submissions ((cutAt consumer before winner after).map Prod.snd) =
      submissions (before.map Prod.snd) ++ submissions (after.map Prod.snd) := by
  simp [cutAt]

variable [DecidableEq ι] [DecidableEq τ]

theorem of_attacher_before (producers : ∀ move ∈ before, ∃ name, move.1 = .producer name)
    (name : τ) :
    Schedule.of ((before.map Prod.fst).zip queued) (.attacher name) = [] := by
  apply Schedule.of_eq_nil_of_ne
  rintro ⟨thread, outcome⟩ mem same
  rcases List.mem_map.mp (List.of_mem_zip mem).1 with ⟨move, listed, isThread⟩
  rcases producers move listed with ⟨producer, isProducer⟩
  rw [isProducer] at isThread
  simp only at same
  rw [← isThread] at same
  cases same

variable (interleaves : (cutAt consumer before winner after).Interleaves
    (program fragments consumer))
  (producers : ∀ move ∈ before, ∃ name, move.1 = .producer name)

include interleaves producers

theorem of_attacher_after (name : τ) :
    after.of (.attacher name) =
      if winner = name then [] else [.attach ⟨name, consumer name⟩] := by
  have made := interleaves (.attacher name)
  have none : Schedule.of before (.attacher name) = [] := by
    apply Schedule.of_eq_nil_of_ne
    intro move listed same
    rcases producers move listed with ⟨producer, isProducer⟩
    rw [isProducer] at same
    cases same
  rw [cutAt, Schedule.of_append, none, List.nil_append, Schedule.of_cons, program] at made
  by_cases same : winner = name
  · subst same
    simpa using made
  · simpa [same] using made

theorem outcomes_of_attacher
    (replies : turns.map Turn.outcome =
      queued ++ .attached flushed :: (after.map Prod.snd).map reply)
    (sameLength : queued.length = before.length) (name : τ) :
    (outcomes (cutAt consumer before winner after) turns).of (.attacher name) =
      if winner = name then [.attached flushed] else [.refused .duplicateAttachment] := by
  rw [outcomes_cutAt replies sameLength, Schedule.of_append, of_attacher_before producers,
    Schedule.of_cons, Schedule.of_map, of_attacher_after interleaves producers]
  by_cases same : winner = name <;> simp [same, reply]

theorem map_snd_before :
    before.map Prod.snd = (submissions (before.map Prod.snd)).map .submit := by
  apply map_snd_of_producers interleaves _ producers
  simp [cutAt]

omit producers

theorem map_snd_productions_cutAt :
    (productions (cutAt consumer before winner after)).map Prod.snd =
      submissions (before.map Prod.snd) ++ submissions (after.map Prod.snd) := by
  rw [← submissions_cutAt, map_snd_productions interleaves (List.Subset.refl _)]

theorem length_add_length_eq_sum [Fintype ι] :
    (submissions (before.map Prod.snd)).length + (submissions (after.map Prod.snd)).length =
      ∑ name, (fragments name).length := by
  have lengths := congrArg List.length (map_snd_productions_cutAt interleaves)
  rw [List.length_map, ← Schedule.sum_length_of, List.length_append] at lengths
  rw [← lengths]
  apply Finset.sum_congr rfl
  intro name _
  rw [productions_interleaves interleaves]

end Cut

/-- How a race ends: `winner` is the one attacher whose consumer is attached, and `merged` is the
order in which that consumer gets the fragments of the producers. -/
structure RaceEnds [DecidableEq ι] [DecidableEq τ] [Fintype ι] (fragments : ι → List Fragment)
    (schedule : Schedule (Thread ι τ) (Call (Named τ κ)))
    (run : List (Turn (Named τ κ) (Journal τ ω))) (journal : Journal τ ω) (winner : τ)
    (merged : Schedule ι Fragment) : Prop where
  attached : (outcomes schedule run).of (.attacher winner) =
    [.attached (run.countP fun turn => turn.outcome.isQueued)]
  refused : ∀ loser, loser ≠ winner →
    (outcomes schedule run).of (.attacher loser) = [.refused .duplicateAttachment]
  interleaves : merged.Interleaves fragments
  received : (worldAfter journal run).received winner = merged.map Prod.snd
  receivedNothing : ∀ loser, loser ≠ winner → (worldAfter journal run).received loser = []
  counted : (run.countP fun turn => turn.outcome.isQueued) +
    (run.countP fun turn => turn.outcome = .forwarded) = ∑ name, (fragments name).length
  delivered : (registryAfter empty run).delivered = ∑ name, (fragments name).length
  nothingPending : (registryAfter empty run).pending = []

/-- However the turns fall, one attacher wins and gets all fragments, those of each producer in
their order, and all others are refused and get nothing. -/
theorem exists_raceEnds [Consumer κ ω] [DecidableEq ι] [DecidableEq τ] [Fintype ι] [Nonempty τ]
    (fragments : ι → List Fragment)
    (wellFormed : ∀ name, ∀ fragment ∈ fragments name, fragment.WellFormed)
    (consumer : τ → κ) (steady : ∀ name, Consumer.NeverFails (consumer name))
    (schedule : Schedule (Thread ι τ) (Call (Named τ κ)))
    (interleaves : schedule.Interleaves (program fragments consumer)) (world : ω) :
    ∃ winner merged,
      RaceEnds fragments schedule
        ((empty : Registry (Named τ κ)).turns (Journal.opened world) (schedule.map Prod.snd))
        (Journal.opened world) winner merged := by
  rcases exists_first_attacher interleaves with ⟨before, winner, after, cut, producers⟩
  have isCut : schedule = cutAt consumer before winner after := cut
  subst isCut
  have allWellFormed : ∀ fragment ∈ submissions (before.map Prod.snd) ++
      submissions (after.map Prod.snd), fragment.WellFormed := by
    intro fragment mem
    apply wellFormed_of_mem_submissions interleaves wellFormed
    rwa [submissions_cutAt]
  have later : accepted (after.map Prod.snd) = submissions (after.map Prod.snd) := by
    rw [accepted, List.filter_eq_self]
    intro fragment mem
    simpa using allWellFormed fragment (by simp [mem])
  have waiting := map_snd_before interleaves producers
  have calls : (cutAt consumer before winner after).map Prod.snd =
      (submissions (before.map Prod.snd)).map .submit ++
        .attach ⟨winner, consumer winner⟩ :: after.map Prod.snd := by
    rw [cutAt, List.map_append, List.map_cons, ← waiting]
  have earlierWellFormed : ∀ fragment ∈ submissions (before.map Prod.snd),
      fragment.WellFormed := by
    intro fragment mem
    exact allWellFormed fragment (by simp [mem])
  rcases turns_of_first_attach earlierWellFormed ((steady winner).named winner)
    (Journal.opened world) (after.map Prod.snd) with
    ⟨⟨left, registryLeft⟩, entered, queued, replies, sameLength, areQueued⟩
  rw [later] at registryLeft entered
  have total := length_add_length_eq_sum interleaves
  have countQueued := (countP_queued replies areQueued).trans sameLength
  have countForwarded := countP_forwarded replies areQueued
  rw [later] at countForwarded
  have lengthBefore : queued.length = before.length := by
    rw [sameLength, ← List.length_map (f := Call.submit (κ := Named τ κ)), ← waiting,
      List.length_map]
  have results := outcomes_of_attacher interleaves producers replies lengthBefore
  rw [calls]
  refine ⟨winner, productions (cutAt consumer before winner after), ?_⟩
  exact
    { attached := by rw [results, if_pos rfl, countQueued]
      refused := by
        intro loser other
        rw [results, if_neg fun same => other same.symm]
      interleaves := productions_interleaves interleaves
      received := by
        rw [Journal.received, entered, Journal.opened, List.nil_append, Schedule.of_map_mk,
          if_pos rfl, map_snd_productions_cutAt interleaves]
      receivedNothing := by
        intro loser other
        rw [Journal.received, entered, Journal.opened, List.nil_append, Schedule.of_map_mk,
          if_neg fun same => other same.symm]
      counted := by rw [countQueued, countForwarded, total]
      delivered := by rw [registryLeft, Registry.delivered, total]
      nothingPending := by rw [registryLeft, pending] }

def shortFragments : Bool → List Fragment
  | false => [⟨some "a", [⟨"A", [⟨"impl X for A"⟩]⟩]⟩, ⟨none, []⟩]
  | true => [⟨some "b", [⟨"B", []⟩]⟩]

def shortConsumer (name : Bool) : ShelfConsumer :=
  .recorder (if name then "left" else "right") .never 0

/-- The first attachment falls between the two submissions of one producer. -/
def shortSchedule : Schedule (Thread Bool Bool) (Call (Named Bool ShelfConsumer)) :=
  [(.producer false, .submit ⟨some "a", [⟨"A", [⟨"impl X for A"⟩]⟩]⟩),
    (.attacher true, .attach ⟨true, shortConsumer true⟩),
    (.producer true, .submit ⟨some "b", [⟨"B", []⟩]⟩),
    (.attacher false, .attach ⟨false, shortConsumer false⟩),
    (.producer false, .submit ⟨none, []⟩)]

theorem exists_raceEnds_shortSchedule :
    (∀ name, ∀ fragment ∈ shortFragments name, fragment.WellFormed) ∧
      (∀ name, Consumer.NeverFails (shortConsumer name)) ∧
      shortSchedule.Interleaves (program shortFragments shortConsumer) ∧
      ∃ winner merged,
        RaceEnds shortFragments shortSchedule
          ((empty : Registry (Named Bool ShelfConsumer)).turns (Journal.opened Shelf.empty)
            (shortSchedule.map Prod.snd))
          (Journal.opened Shelf.empty) winner merged := by
  have wellFormed : ∀ name, ∀ fragment ∈ shortFragments name, fragment.WellFormed := by
    decide
  have steady : ∀ name, Consumer.NeverFails (shortConsumer name) := by
    intro name
    exact ShelfConsumer.neverFails_recorder _ 0
  have interleaves : shortSchedule.Interleaves (program shortFragments shortConsumer) := by
    rintro (name | name) <;> cases name <;> rfl
  exact ⟨wellFormed, steady, interleaves,
    exists_raceEnds shortFragments wellFormed shortConsumer steady shortSchedule interleaves
      Shelf.empty⟩

end TraitIndex.Registry
