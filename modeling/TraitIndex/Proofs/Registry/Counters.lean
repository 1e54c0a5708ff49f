import TraitIndex.Proofs.Registry.Retries

/-!
# The counters of a registry and its history

What can be read off a registry agrees with the history of the calls made on it.  While it waits,
its fragments balance: each was queued by a call and has not been handed over by an attachment that
failed.  Once it serves a consumer, it counts what was flushed when the consumer was attached and
what was forwarded since, and that is what the consumer took without failing.
-/

namespace TraitIndex.Registry

variable {ι κ ω : Type}

def Outcome.flushed? : Outcome → Option Nat
  | attached flushed => some flushed
  | queued _ => none
  | forwarded => none
  | refused _ => none
  | failed => none

/-- The attachments of a run that succeed, each with the number of fragments that it flushed. -/
def attachments (calls : List (Call κ)) (turns : List (Turn κ ω)) : List (κ × Nat) :=
  (attempts calls turns).filterMap fun attempt =>
    attempt.2.outcome.flushed?.map (Prod.mk attempt.1)

/-- What the attachments that fail hand over. -/
def failedHandovers (calls : List (Call κ)) (turns : List (Turn κ ω)) : List (Handover κ) :=
  ((attempts calls turns).filter fun attempt => attempt.2.outcome = .failed).flatMap fun attempt =>
    attempt.2.handovers

def queuedCount (turns : List (Turn κ ω)) : Nat :=
  turns.countP fun turn => turn.outcome.isQueued

def forwardedCount (turns : List (Turn κ ω)) : Nat :=
  turns.countP fun turn => turn.outcome = .forwarded

/-- The number of times that the consumer of the given name takes a fragment without failing. -/
def takenCount [DecidableEq ι] (name : ι) (turns : List (Turn (Named ι κ) ω)) : Nat :=
  (handovers turns).countP fun handover => handover.consumer.name = name ∧ handover.failed = false

/-- What shows on a registry without a consumer after the given calls. -/
structure Awaiting (calls : List (Call κ)) (turns : List (Turn κ ω)) (registry : Registry κ) :
    Prop where
  attachments : attachments calls turns = []
  delivered : registry.delivered = 0
  pendingCount : registry.pendingCount = registry.pending.length
  balance : registry.pendingCount + (failedHandovers calls turns).length = queuedCount turns
  description : registry.describe =
    "ImplementorRegistry \x7b attached: false, pending: " ++ Nat.repr registry.pendingCount ++
      " \x7d"

/-- What shows on a registry with the consumer `winner` after the given calls. -/
structure Attending [DecidableEq ι] (calls : List (Call (Named ι κ)))
    (turns : List (Turn (Named ι κ) ω)) (registry : Registry (Named ι κ)) (winner : Named ι κ)
    (flushed : Nat) : Prop where
  attachments : attachments calls turns = [(winner, flushed)]
  pending : registry.pending = []
  pendingCount : registry.pendingCount = 0
  delivered : registry.delivered = flushed + forwardedCount turns
  taken : registry.delivered = takenCount winner.name turns
  description : registry.describe =
    "ImplementorRegistry \x7b attached: true, delivered: " ++ Nat.repr registry.delivered ++ " \x7d"

section Counts

theorem attachments_append {earlier : List (Call κ)} {before : List (Turn κ ω)}
    (sameLength : earlier.length = before.length) (later : List (Call κ))
    (after : List (Turn κ ω)) :
    attachments (earlier ++ later) (before ++ after) =
      attachments earlier before ++ attachments later after := by
  simp [attachments, attempts_append sameLength]

theorem attachments_cons_attach_of_attached {consumer : κ} {calls : List (Call κ)}
    {turn : Turn κ ω} {flushed : Nat} (outcome : turn.outcome = .attached flushed)
    (turns : List (Turn κ ω)) :
    attachments (.attach consumer :: calls) (turn :: turns) =
      (consumer, flushed) :: attachments calls turns := by
  rw [attachments, attempts_cons_attach, List.filterMap_cons_some]
  · rfl
  · simp [outcome, Outcome.flushed?]

variable [DecidableEq ι]

@[simp]
theorem takenCount_cons (name : ι) (turn : Turn (Named ι κ) ω)
    (turns : List (Turn (Named ι κ) ω)) :
    takenCount name (turn :: turns) =
      (turn.handovers.countP fun handover =>
        handover.consumer.name = name ∧ handover.failed = false) + takenCount name turns := by
  simp [takenCount]

@[simp]
theorem takenCount_append (name : ι) (earlier later : List (Turn (Named ι κ) ω)) :
    takenCount name (earlier ++ later) = takenCount name earlier + takenCount name later := by
  simp [takenCount]

theorem takenCount_eq_zero {name : ι} {turns : List (Turn (Named ι κ) ω)}
    (other : ∀ handover ∈ handovers turns, handover.consumer.name ≠ name) :
    takenCount name turns = 0 := by
  apply List.countP_eq_zero.mpr
  intro handover mem
  simp [other handover mem]

end Counts

variable [Consumer κ ω]

section Waiting

variable {rest waiting : List Fragment} {left world : ω} {calls : List (Call κ)}
  {turns : List (Turn κ ω)}

/-- While a registry waits, every queued fragment is handed over or waits. -/
theorem Waits.balance (waits : Waits rest left waiting world calls turns) :
    rest.length + (handovers turns).length = waiting.length + queuedCount turns := by
  induction waits with
  | done => rfl
  | rejected _ _ ih => exact ih
  | queued _ _ ih =>
      simp [queuedCount, Outcome.isQueued] at ih ⊢
      omega
  | @failed waiting behind world consumer _ _ stopped _ ih =>
      have conserved := congrArg List.length (flush_handovers_append consumer world waiting)
      simp [stopped] at conserved
      simp [queuedCount, Outcome.isQueued] at ih ⊢
      omega

theorem Waits.forwardedCount_eq (waits : Waits rest left waiting world calls turns) :
    forwardedCount turns = 0 := by
  induction waits with
  | done => rfl
  | rejected _ _ ih => exact ih
  | queued _ _ ih => exact ih
  | failed _ _ ih => exact ih

theorem Waits.attachments_eq (waits : Waits rest left waiting world calls turns) :
    attachments calls turns = [] := by
  apply List.filterMap_eq_nil_iff.mpr
  intro attempt mem
  simp [waits.failed_of_mem_attempts mem, Outcome.flushed?]

/-- While a registry waits, all that is handed over is handed over by attachments that fail. -/
theorem Waits.failedHandovers_eq (waits : Waits rest left waiting world calls turns) :
    failedHandovers calls turns = handovers turns := by
  rw [failedHandovers, List.filter_eq_self.mpr, waits.handovers_attempts]
  intro attempt mem
  simp [waits.failed_of_mem_attempts mem]

theorem Waits.awaiting (waits : Waits rest left [] world calls turns) :
    Awaiting calls turns (registryAfter empty turns) := by
  have registry : registryAfter empty turns = unattached rest := waits.registryAfter_eq
  have balance := waits.balance
  rw [registry]
  exact
    { attachments := waits.attachments_eq
      delivered := rfl
      pendingCount := rfl
      balance := by
        rw [waits.failedHandovers_eq]
        simpa [pendingCount] using balance
      description := rfl }

end Waiting

section Serving

variable {count : Nat}

theorem Serves.attachments_eq {consumer : κ} {world : ω} {calls : List (Call κ)}
    {turns : List (Turn κ ω)} (serves : Serves consumer count world calls turns) :
    attachments calls turns = [] := by
  induction serves with
  | done => rfl
  | rejected _ _ ih => exact ih
  | forwarded _ _ _ ih => exact ih
  | failed _ _ _ ih => exact ih
  | duplicate _ ih => exact ih

variable [DecidableEq ι]

/-- What is forwarded is what the attached consumer takes. -/
theorem Serves.takenCount_eq {named : Named ι κ} {journal : Journal ι ω}
    {calls : List (Call (Named ι κ))} {turns : List (Turn (Named ι κ) (Journal ι ω))}
    (serves : Serves named count journal calls turns) :
    takenCount named.name turns = forwardedCount turns := by
  induction serves with
  | done => rfl
  | rejected _ _ ih => simpa [forwardedCount] using ih
  | forwarded _ accepted _ ih =>
      have kept := name_of_accept accepted
      rw [kept] at ih
      simp [forwardedCount] at ih ⊢
      omega
  | failed _ accepted _ ih =>
      have kept := name_of_accept accepted
      rw [kept] at ih
      simpa [forwardedCount] using ih
  | duplicate _ ih => simpa [forwardedCount] using ih

/-- A consumer that is attached takes all that has been waiting. -/
theorem takenCount_attachedTurn {named : Named ι κ} {journal : Journal ι ω}
    {waiting : List Fragment}
    (finished : (flush named journal waiting).remaining = none) :
    takenCount named.name [attachedTurn named journal waiting] = waiting.length := by
  have handed := congrArg List.length (handed_of_finished finished)
  rw [List.length_map] at handed
  simp only [takenCount, handovers, List.flatMap_singleton, attachedTurn]
  rw [← handed]
  apply List.countP_eq_length.mpr
  intro handover mem
  simp [name_of_mem_handovers_flush mem, failed_eq_false_of_finished finished mem]

end Serving

section Named

variable {rest waiting : List Fragment} {journal left : Journal ι ω}
  {calls : List (Call (Named ι κ))} {turns : List (Turn (Named ι κ) (Journal ι ω))}

/-- The names of the consumers that some calls try to attach. -/
def attacherNames (calls : List (Call (Named ι κ))) : List ι :=
  (calls.filterMap Call.consumer?).map Named.name

omit [Consumer κ ω] in
theorem name_mem_attacherNames {attempt : Named ι κ × Turn (Named ι κ) (Journal ι ω)}
    (mem : attempt ∈ attempts calls turns) : attempt.1.name ∈ attacherNames calls := by
  rcases List.mem_filterMap.mp mem with ⟨⟨call, turn⟩, made, attached⟩
  rcases Option.map_eq_some_iff.mp attached with ⟨consumer, called, rfl⟩
  apply List.mem_map_of_mem
  exact List.mem_filterMap.mpr ⟨call, (List.of_mem_zip made).1, called⟩

/-- While a registry waits, only consumers that are being attached are handed fragments. -/
theorem Waits.name_mem_attacherNames (waits : Waits rest left waiting journal calls turns)
    {handover : Handover (Named ι κ)} (mem : handover ∈ handovers turns) :
    handover.consumer.name ∈ attacherNames calls := by
  rw [waits.handovers_attempts] at mem
  rcases List.mem_flatMap.mp mem with ⟨attempt, tried, made⟩
  rw [waits.name_of_mem_attempts tried made]
  exact Registry.name_mem_attacherNames tried

end Named

namespace Cut

variable {rest : List Fragment} {journal left : Journal ι ω}
  {earlier later : List (Call (Named ι κ))} {before after : List (Turn (Named ι κ) (Journal ι ω))}
  {winner : Named ι κ} (cut : Cut [] journal winner rest left earlier later before after)

include cut

/-- The registry counts what waited for its consumer and what was forwarded since. -/
theorem exists_registryAfter :
    ∃ holder, registryAfter empty (before ++ attachedTurn winner left rest :: after) =
      attached holder (rest.length + forwardedCount after) := by
  rcases cut.serves.exists_registryAfter with ⟨holder, holds⟩
  refine ⟨holder, ?_⟩
  rw [registryAfter_append]
  exact holds

theorem attachments_eq :
    attachments (earlier ++ .attach winner :: later)
      (before ++ attachedTurn winner left rest :: after) = [(winner, rest.length)] := by
  have succeeds : (attachedTurn winner left rest).outcome = .attached rest.length := rfl
  rw [attachments_append cut.waits.length_eq, attachments_cons_attach_of_attached succeeds,
    cut.waits.attachments_eq, cut.serves.attachments_eq]
  rfl

variable [DecidableEq ι]

/-- What the attached consumer takes is what waited for it and what is forwarded to it. -/
theorem takenCount_eq (new : winner.name ∉ attacherNames earlier) :
    takenCount winner.name (before ++ attachedTurn winner left rest :: after) =
      rest.length + forwardedCount after := by
  have nothingBefore : takenCount winner.name before = 0 := by
    apply takenCount_eq_zero
    intro handover mem same
    rw [← same] at new
    exact new (cut.waits.name_mem_attacherNames mem)
  have flushedAll := takenCount_attachedTurn cut.finished
  have forwarded := cut.serves.takenCount_eq
  rw [name_flush] at forwarded
  rw [List.append_cons, takenCount_append, takenCount_append]
  omega

theorem attending (distinct : (attacherNames (earlier ++ .attach winner :: later)).Nodup) :
    Attending (earlier ++ .attach winner :: later)
      (before ++ attachedTurn winner left rest :: after)
      (registryAfter empty (before ++ attachedTurn winner left rest :: after)) winner
      rest.length := by
  have new : winner.name ∉ attacherNames earlier := by
    intro mem
    simp only [attacherNames, List.filterMap_append, List.map_append] at distinct mem
    exact (List.nodup_append.mp distinct).2.2 _ mem _ (by simp [Call.consumer?]) rfl
  have noneForwarded := cut.waits.forwardedCount_eq
  rcases cut.exists_registryAfter with ⟨holder, holds⟩
  rw [holds]
  exact
    { attachments := cut.attachments_eq
      pending := rfl
      pendingCount := rfl
      delivered := by
        simp only [forwardedCount, List.countP_append] at noneForwarded ⊢
        simp [noneForwarded, delivered, attachedTurn]
      taken := (cut.takenCount_eq new).symm
      description := rfl }

end Cut

/-- A call that queues a fragment tells how many wait once it is queued. -/
theorem Turned.pendingCount_of_queued {registry : Registry κ} {world : ω} {call : Call κ}
    {turn : Turn κ ω} (turned : Turned registry world call turn) {count : Nat}
    (outcome : turn.outcome = .queued count) : turn.registry.pendingCount = count := by
  cases turned with
  | rejected => cases outcome
  | queued =>
      cases outcome
      simp [pendingCount]
  | forwarded => cases outcome
  | forwardFailed => cases outcome
  | duplicate => cases outcome
  | attached => cases outcome
  | flushFailed => cases outcome

/-- After every run, in which every attachment brings a consumer of its own, what shows on the
registry is what the history says. -/
theorem counters_registryAfter [DecidableEq ι] (world : ω) (calls : List (Call (Named ι κ)))
    (distinct : (attacherNames calls).Nodup) :
    let run := (empty : Registry (Named ι κ)).turns (Journal.opened world) calls
    let registry := registryAfter empty run
    (∀ turn ∈ run, ∀ count, turn.outcome = .queued count → turn.registry.pendingCount = count) ∧
      (registry.isAttached = false → Awaiting calls run registry) ∧
      (registry.isAttached = true →
        ∃ winner flushed, Attending calls run registry winner flushed) := by
  intro run registry
  refine ⟨?_, ?_⟩
  · intro turn mem count outcome
    rcases exists_turned_of_mem_turns mem with ⟨_, _, _, _, turned⟩
    exact turned.pendingCount_of_queued outcome
  · have phases : Phases [] (Journal.opened world) calls run := phases_turns ..
    simp only [registry]
    generalize run = turns at phases
    cases phases with
    | waiting waits =>
        refine ⟨fun _ => waits.awaiting, ?_⟩
        intro attached
        rw [empty, waits.registryAfter_eq] at attached
        cases attached
    | @attached rest _ winner _ _ _ _ cut =>
        refine ⟨?_, fun _ => ⟨winner, rest.length, cut.attending distinct⟩⟩
        intro free
        rcases cut.exists_registryAfter with ⟨holder, holds⟩
        rw [holds] at free
        cases free

/-- The first consumer fails on "A", which it is handed at its attachment, and the second on "E",
which is forwarded to it. -/
def countedCalls : List (Call (Named Nat ShelfConsumer)) :=
  [.submit (plainFragment "A"), .submit (plainFragment " "), .submit (plainFragment "B"),
    .attach ⟨1, .recorder "first" (.atCall 1) 0⟩, .submit (plainFragment "C"),
    .attach ⟨2, .recorder "second" (.onSymbol "E") 0⟩, .submit (plainFragment "D"),
    .submit (plainFragment "E"), .attach ⟨3, .recorder "third" .never 0⟩,
    .submit (plainFragment "F")]

theorem counters_registryAfter_countedCalls :
    let run := (empty : Registry (Named Nat ShelfConsumer)).turns (.opened Shelf.empty) countedCalls
    (attacherNames countedCalls).Nodup ∧
      (registryAfter empty run).delivered = 4 ∧
      ∃ winner flushed, Attending countedCalls run (registryAfter empty run) winner flushed := by
  intro run
  have distinct : (attacherNames countedCalls).Nodup := by decide
  exact ⟨distinct, by decide, (counters_registryAfter Shelf.empty countedCalls distinct).2.2 rfl⟩

end TraitIndex.Registry
