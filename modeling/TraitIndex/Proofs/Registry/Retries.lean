import TraitIndex.Proofs.Registry.Flush
import TraitIndex.Proofs.Registry.Phases

/-!
# Attachments that fail and are tried again

A flush hands over the waiting fragments until the consumer fails, and what it did not hand over
waits for the next attachment.  So the attachments of a run, up to the first one that succeeds, hand
over consecutive segments of the accepted fragments, each to its own consumer; and the successful
one, which leaves nothing waiting, counts its own segment as delivered.
-/

namespace TraitIndex

variable {ι κ ω : Type} [Consumer κ ω]

namespace Registry

/-- What an attachment comes to on a registry without a consumer.  When the consumer fails, nothing
keeps it. -/
structure Flushes (named : Named ι κ) (journal : Journal ι ω) (waiting : List Fragment)
    (turn : Turn (Named ι κ) (Journal ι ω)) : Prop where
  fails : ∀ earlier fragment behind, waiting = earlier ++ fragment :: behind →
    Consumer.FailsBehind named journal earlier fragment →
      turn.outcome = .failed ∧
        turn.world.entries = journal.entries ++ (earlier ++ [fragment]).map (Prod.mk named.name) ∧
        turn.registry = .unattached behind
  succeeds : Consumer.Takes named journal waiting →
    turn.outcome = .attached waiting.length ∧
      turn.world.entries = journal.entries ++ waiting.map (Prod.mk named.name) ∧
      ∃ after, turn.registry = .attached after waiting.length ∧ after.name = named.name
  either : Consumer.Takes named journal waiting ∨
    ∃ earlier fragment behind, waiting = earlier ++ fragment :: behind ∧
      Consumer.FailsBehind named journal earlier fragment

theorem flushes_attach (named : Named ι κ) (journal : Journal ι ω) (waiting : List Fragment) :
    Flushes named journal waiting ((unattached waiting).attach journal named) where
  fails := by
    rintro earlier fragment behind rfl fails
    have stopped := remaining_of_failsBehind fails behind
    have entered := entries_flush_of_handed (handed_of_failsBehind fails behind)
    simp only [attach, stopped, entered, and_self]
  succeeds := by
    intro takes
    have finished := remaining_of_takes takes
    have entered := entries_flush_of_handed (handed_of_finished finished)
    simp only [attach, finished, entered]
    exact ⟨trivial, trivial, _, rfl, name_flush named journal waiting⟩
  either := Consumer.takes_or_failsBehind named journal waiting

section Segments

/-- For each attachment of a run, the name of its consumer and the fragments that it handed over. -/
def segments (calls : List (Call (Named ι κ))) (turns : List (Turn (Named ι κ) (Journal ι ω))) :
    List (ι × List Fragment) :=
  (attempts calls turns).map fun attempt =>
    (attempt.1.name, attempt.2.handovers.map Handover.fragment)

variable {rest waiting : List Fragment} {left world : ω} {calls : List (Call κ)}
  {turns : List (Turn κ ω)}

/-- While a registry waits, its attachments fail. -/
theorem Waits.failed_of_mem_attempts (waits : Waits rest left waiting world calls turns)
    {attempt : κ × Turn κ ω} (mem : attempt ∈ attempts calls turns) :
    attempt.2.outcome = .failed := by
  induction waits with
  | done => cases mem
  | rejected _ _ ih => exact ih mem
  | queued _ _ ih => exact ih mem
  | failed _ _ ih =>
      rcases List.mem_cons.mp mem with rfl | mem
      · rfl
      · exact ih mem

/-- While a registry waits, only attachments hand over. -/
theorem Waits.handovers_attempts (waits : Waits rest left waiting world calls turns) :
    handovers turns = (attempts calls turns).flatMap fun attempt => attempt.2.handovers := by
  induction waits with
  | done => rfl
  | rejected _ _ ih => exact ih
  | queued _ _ ih => exact ih
  | failed _ _ ih => rw [handovers_cons, ih, attempts_cons_attach, List.flatMap_cons]

/-- What is handed over while a registry waits goes to the consumer that is being attached. -/
theorem Waits.name_of_mem_attempts {journal after : Journal ι ω}
    {calls : List (Call (Named ι κ))} {turns : List (Turn (Named ι κ) (Journal ι ω))}
    (waits : Waits rest after waiting journal calls turns)
    {attempt : Named ι κ × Turn (Named ι κ) (Journal ι ω)} (mem : attempt ∈ attempts calls turns)
    {handover : Handover (Named ι κ)} (made : handover ∈ attempt.2.handovers) :
    handover.consumer.name = attempt.1.name := by
  induction waits with
  | done => cases mem
  | rejected _ _ ih => exact ih mem
  | queued _ _ ih => exact ih mem
  | failed _ _ ih =>
      rcases List.mem_cons.mp mem with rfl | mem
      · exact name_of_mem_handovers_flush made
      · exact ih mem

variable {journal after : Journal ι ω} {calls : List (Call (Named ι κ))}
  {turns : List (Turn (Named ι κ) (Journal ι ω))}

theorem Waits.segments_attach (waits : Waits rest after waiting journal calls turns)
    (consumer : Named ι κ) (turn : Turn (Named ι κ) (Journal ι ω)) :
    segments (calls ++ [.attach consumer]) (turns ++ [turn]) =
      segments calls turns ++ [(consumer.name, turn.handovers.map Handover.fragment)] := by
  rw [segments, attempts_append waits.length_eq, List.map_append]
  rfl

/-- While a registry waits, the segments together are what is handed over. -/
theorem Waits.flatten_segments (waits : Waits rest after waiting journal calls turns) :
    ((segments calls turns).map Prod.snd).flatten = handed turns := by
  rw [handed, waits.handovers_attempts, List.map_flatMap, segments, List.map_map]
  rfl

theorem Waits.flatMap_segments (waits : Waits rest after waiting journal calls turns) :
    ((segments calls turns).flatMap fun segment => segment.2.map (Prod.mk segment.1)) =
      (handovers turns).map Handover.entry := by
  rw [waits.handovers_attempts, segments, List.flatMap_map, List.map_flatMap]
  apply List.flatMap_congr
  intro attempt mem
  rw [List.map_map]
  apply List.map_congr_left
  intro handover made
  exact congrArg (·, handover.fragment) (waits.name_of_mem_attempts mem made).symm

end Segments

/-- What the attachments of a run have handed over when the first of them succeeds.  The run is over
with that attachment, whose turn is `last`. -/
structure Segmented (calls : List (Call (Named ι κ)))
    (turns : List (Turn (Named ι κ) (Journal ι ω))) (winner : Named ι κ)
    (last : Turn (Named ι κ) (Journal ι ω)) (flushed : Nat) : Prop where
  failed : ∀ attempt ∈ attempts calls turns, attempt.2.outcome = .failed
  entries : last.world.entries =
    (segments (calls ++ [.attach winner]) (turns ++ [last])).flatMap fun segment =>
      segment.2.map (Prod.mk segment.1)
  accepted : ((segments (calls ++ [.attach winner]) (turns ++ [last])).map Prod.snd).flatten =
    accepted calls
  delivered : last.registry.delivered = flushed ∧ last.registry.pending = [] ∧
    ∃ segment, (segments (calls ++ [.attach winner]) (turns ++ [last])).getLast? =
      some (winner.name, segment) ∧ segment.length = flushed

/-- An attachment that succeeds finds a registry without a consumer and hands over everything. -/
theorem exists_attachedTurn_of_attached {registry : Registry κ} {world : ω} {consumer : κ}
    {count : Nat}
    (succeeds : (registry.attach world consumer).outcome = .attached count) :
    ∃ waiting, registry = unattached waiting ∧ waiting.length = count ∧
      registry.attach world consumer = attachedTurn consumer world waiting ∧
      (flush consumer world waiting).remaining = none := by
  have turned := turned_attach registry world consumer
  generalize registry.attach world consumer = turn at turned succeeds ⊢
  cases turned with
  | duplicate => cases succeeds
  | attached finished =>
      cases succeeds
      exact ⟨_, rfl, rfl, rfl, finished⟩
  | flushFailed => cases succeeds

theorem segmented_of_attached (world : ω) (calls : List (Call (Named ι κ))) (winner : Named ι κ)
    {flushed : Nat} :
    let journal : Journal ι ω := .opened world
    let run := (empty : Registry (Named ι κ)).turns journal calls
    let last := (registryAfter empty run).attach (worldAfter journal run) winner
    last.outcome = .attached flushed → Segmented calls run winner last flushed := by
  intro journal run last succeeds
  rcases exists_attachedTurn_of_attached succeeds with ⟨rest, free, length, isLast, finished⟩
  have waits : ∃ rest left, Waits rest left [] journal calls run :=
    exists_waits (congrArg isAttached free)
  rcases waits with ⟨_, _, waits⟩
  have handedLast : last.handovers.map Handover.fragment = rest := by
    simp only [last, isLast]
    exact handed_of_finished finished
  have handedBefore : handed run ++ rest = accepted calls := by
    have conserved := handed_append_pending (empty : Registry (Named ι κ)) journal calls
    rwa [free] at conserved
  have enteredBefore : (worldAfter journal run).entries = (handovers run).map Handover.entry :=
    entries_turns empty journal calls
  have cut := waits.segments_attach winner last
  rw [handedLast] at cut
  exact
    { failed := fun attempt => waits.failed_of_mem_attempts
      entries := by
        rw [cut, List.flatMap_append, waits.flatMap_segments, ← enteredBefore]
        simp only [last, isLast, List.flatMap_singleton]
        exact entries_flush_of_handed (handed_of_finished finished)
      accepted := by
        rw [cut, List.map_append, List.flatten_append, waits.flatten_segments]
        simpa using handedBefore
      delivered := by
        rw [cut]
        simp only [last, isLast]
        exact ⟨length, rfl, rest, List.getLast?_concat, length⟩ }

/-- Whatever waits and whatever the consumer, an attachment hands over what the consumer takes and
the fragment that it fails on, if any, and no more; so the attachments of a run, up to the first
that succeeds, hand over the accepted fragments in consecutive segments. -/
theorem flushes_and_segmented :
    (∀ (named : Named ι κ) (journal : Journal ι ω) (waiting : List Fragment),
      Flushes named journal waiting ((unattached waiting).attach journal named)) ∧
    ∀ (world : ω) (calls : List (Call (Named ι κ))) (winner : Named ι κ) (flushed : Nat),
      let journal : Journal ι ω := .opened world
      let run := (empty : Registry (Named ι κ)).turns journal calls
      let last := (registryAfter empty run).attach (worldAfter journal run) winner
      last.outcome = .attached flushed → Segmented calls run winner last flushed :=
  ⟨flushes_attach, fun world calls winner _ => segmented_of_attached world calls winner⟩

def plainFragment (symbol : String) : Fragment :=
  ⟨none, [⟨symbol, []⟩]⟩

/-- A recorder that fails on its second fragment, then one that fails on the first of the two that
it finds. -/
def retriedCalls : List (Call (Named Nat ShelfConsumer)) :=
  [.submit (plainFragment "A"), .submit (plainFragment "B"), .submit (plainFragment "C"),
    .attach ⟨1, .recorder "first" (.atCall 2) 0⟩, .submit (plainFragment "D"),
    .attach ⟨2, .recorder "second" (.onSymbol "C") 0⟩, .submit (plainFragment " "),
    .submit (plainFragment "E")]

theorem flushes_and_segmented_retriedCalls :
    let winner : Named Nat ShelfConsumer := ⟨3, .recorder "third" .never 0⟩
    let journal : Journal Nat Shelf := .opened Shelf.empty
    let run := (empty : Registry (Named Nat ShelfConsumer)).turns journal retriedCalls
    let last := (registryAfter empty run).attach (worldAfter journal run) winner
    last.outcome = .attached 2 ∧ Segmented retriedCalls run winner last 2 ∧
      segments (retriedCalls ++ [.attach winner]) (run ++ [last]) =
        [(1, [plainFragment "A", plainFragment "B"]), (2, [plainFragment "C"]),
          (3, [plainFragment "D", plainFragment "E"])] := by
  intro winner journal run last
  have succeeds : last.outcome = .attached 2 := by decide
  exact ⟨succeeds, flushes_and_segmented.2 Shelf.empty retriedCalls winner 2 succeeds, by decide⟩

end Registry

end TraitIndex
