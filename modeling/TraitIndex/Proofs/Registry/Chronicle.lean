import TraitIndex.Proofs.Registry.Phases

/-!
# The log of a registry

Every call that returns writes one record, which matches its outcome, and a call that fails writes
none.  The records of a run follow its two phases: before the attachment that succeeds, if there is
one, fragments are rejected or queued, and after it they are rejected or forwarded and attachments
are turned away.  The numbers that the later records show count on from what the attachment flushed.
-/

namespace TraitIndex

/-- The value that a record shows for a field. -/
def Log.Record.field? (record : Log.Record) (name : String) : Option String :=
  record.fields.lookup name

namespace Registry

variable {κ ω : Type}

/-- The event that is logged when a call comes to an outcome. -/
def Outcome.event? : Outcome → Option String
  | queued _ => some "fragment_queued"
  | forwarded => some "fragment_forwarded"
  | attached _ => some "consumer_attached"
  | refused (.malformed _) => some "fragment_rejected"
  | refused .duplicateAttachment => some "duplicate_attachment"
  | failed => none

def Turn.records (turn : Turn κ ω) : List Log.Record :=
  turn.notices.map Notice.record

/-- The records that some turns write, in order. -/
def log (turns : List (Turn κ ω)) : List Log.Record :=
  turns.flatMap Turn.records

/-- The number of fragments that some records say were forwarded. -/
def forwardings (records : List Log.Record) : Nat :=
  records.countP fun record => record.event = "fragment_forwarded"

/-- What the log shows of one call: the event of its outcome, and the numbers that are true after
it. -/
structure Logged (turn : Turn κ ω) : Prop where
  events : turn.records.map Log.Record.event = turn.outcome.event?.toList
  pending : ∀ record ∈ turn.records, record.field? "pending" =
    if record.event = "fragment_queued" then some (Nat.repr turn.registry.pendingCount) else none
  delivered : ∀ record ∈ turn.records, record.field? "delivered" =
    if record.event ∈ ["fragment_forwarded", "duplicate_attachment"] then
      some (Nat.repr turn.registry.delivered)
    else none
  flushed : ∀ record ∈ turn.records, ∀ count, turn.outcome = .attached count →
    record.field? "flushed" = some (Nat.repr count)

/-- Records that are written after `flushed` fragments were flushed. -/
structure CountsOn (flushed : Nat) (records : List Log.Record) : Prop where
  events : ∀ record ∈ records,
    record.event ∈ ["fragment_rejected", "fragment_forwarded", "duplicate_attachment"]
  forwarded : (records.filter fun record => record.event = "fragment_forwarded").map
      (Log.Record.field? · "delivered") =
    (List.range' (flushed + 1) (forwardings records)).map fun number => some (Nat.repr number)
  duplicate : ∀ before record after, records = before ++ record :: after →
    record.event = "duplicate_attachment" →
      record.field? "delivered" = some (Nat.repr (flushed + forwardings before))

/-- Logs in which nothing is attached, or a consumer once. -/
inductive Chronicle : List Log.Record → Prop where
  | waiting {records : List Log.Record}
      (events : ∀ record ∈ records, record.event ∈ ["fragment_rejected", "fragment_queued"]) :
      Chronicle records
  | attached {earlier later : List Log.Record} {attachment : Log.Record} {flushed : Nat}
      (events : ∀ record ∈ earlier, record.event ∈ ["fragment_rejected", "fragment_queued"])
      (attaches : attachment.event = "consumer_attached")
      (shows : attachment.field? "flushed" = some (Nat.repr flushed))
      (countsOn : CountsOn flushed later) : Chronicle (earlier ++ attachment :: later)

@[simp]
theorem log_cons (turn : Turn κ ω) (turns : List (Turn κ ω)) :
    log (turn :: turns) = turn.records ++ log turns :=
  List.flatMap_cons

@[simp]
theorem log_append (earlier later : List (Turn κ ω)) :
    log (earlier ++ later) = log earlier ++ log later :=
  List.flatMap_append

@[simp]
theorem forwardings_cons (record : Log.Record) (records : List Log.Record) :
    forwardings (record :: records) =
      forwardings records + if record.event = "fragment_forwarded" then 1 else 0 := by
  simp [forwardings, List.countP_cons]

namespace CountsOn

variable {flushed : Nat} {records : List Log.Record}

theorem nil : CountsOn flushed [] where
  events := by simp
  forwarded := rfl
  duplicate := by simp

/-- A record of something else than a forwarded fragment leaves the count as it is. -/
theorem cons {record : Log.Record}
    (event : record.event ∈ ["fragment_rejected", "duplicate_attachment"])
    (shows : record.event = "duplicate_attachment" →
      record.field? "delivered" = some (Nat.repr flushed))
    (further : CountsOn flushed records) : CountsOn flushed (record :: records) := by
  have other : record.event ≠ "fragment_forwarded" := by
    intro same
    simp [same] at event
  refine ⟨?_, ?_, ?_⟩
  · intro another mem
    rcases List.mem_cons.mp mem with rfl | mem
    · simp only [List.mem_cons, List.not_mem_nil, or_false] at event
      rcases event with event | event
      · simp [event]
      · simp [event]
    · exact further.events another mem
  · simpa [other] using further.forwarded
  · intro before another after split isDuplicate
    rcases List.cons_eq_append_iff.mp split with ⟨rfl, same⟩ | ⟨before, rfl, rest⟩
    · cases same
      exact shows isDuplicate
    · simpa [other] using further.duplicate before another after rest isDuplicate

theorem cons_forwarded {record : Log.Record} (event : record.event = "fragment_forwarded")
    (shows : record.field? "delivered" = some (Nat.repr (flushed + 1)))
    (further : CountsOn (flushed + 1) records) : CountsOn flushed (record :: records) := by
  refine ⟨?_, ?_, ?_⟩
  · intro another mem
    rcases List.mem_cons.mp mem with rfl | mem
    · simp [event]
    · exact further.events another mem
  · have forwarded := further.forwarded
    simpa [event, shows, List.range'_succ] using forwarded
  · intro before another after split isDuplicate
    rcases List.cons_eq_append_iff.mp split with ⟨rfl, same⟩ | ⟨before, rfl, rest⟩
    · cases same
      simp [event] at isDuplicate
    · have counted := further.duplicate before another after rest isDuplicate
      rw [counted, forwardings_cons, if_pos event]
      congr 2
      omega

end CountsOn

variable [Consumer κ ω]

theorem Turned.logged {registry : Registry κ} {world : ω} {call : Call κ} {turn : Turn κ ω}
    (turned : Turned registry world call turn) : Logged turn := by
  cases turned with
  | rejected =>
      refine ⟨rfl, ?_, ?_, ?_⟩
      all_goals simp [Turn.records, Notice.record, Log.Record.field?, List.lookup_cons]
  | queued =>
      refine ⟨rfl, ?_, ?_, ?_⟩
      all_goals
        simp [Turn.records, Notice.record, Log.Record.field?, List.lookup_cons, pendingCount]
  | forwarded =>
      refine ⟨rfl, ?_, ?_, ?_⟩
      all_goals
        simp [Turn.records, Notice.record, Log.Record.field?, List.lookup_cons, delivered]
  | forwardFailed =>
      refine ⟨rfl, ?_, ?_, ?_⟩
      all_goals simp [Turn.records]
  | duplicate =>
      refine ⟨rfl, ?_, ?_, ?_⟩
      all_goals
        simp [Turn.records, Notice.record, Log.Record.field?, List.lookup_cons, delivered]
  | attached =>
      refine ⟨rfl, ?_, ?_, ?_⟩
      all_goals simp [Turn.records, Notice.record, Log.Record.field?, List.lookup_cons]
  | flushFailed =>
      refine ⟨rfl, ?_, ?_, ?_⟩
      all_goals simp [Turn.records]

theorem Waits.events_log {rest waiting : List Fragment} {left world : ω} {calls : List (Call κ)}
    {turns : List (Turn κ ω)} (waits : Waits rest left waiting world calls turns)
    {record : Log.Record} (mem : record ∈ log turns) :
    record.event ∈ ["fragment_rejected", "fragment_queued"] := by
  induction waits with
  | done => cases mem
  | rejected _ _ ih =>
      rcases List.mem_cons.mp mem with rfl | mem
      · simp [Notice.record]
      · exact ih mem
  | queued _ _ ih =>
      rcases List.mem_cons.mp mem with rfl | mem
      · simp [Notice.record]
      · exact ih mem
  | failed _ _ ih => exact ih mem

theorem Serves.countsOn_log {consumer : κ} {count : Nat} {world : ω} {calls : List (Call κ)}
    {turns : List (Turn κ ω)} (serves : Serves consumer count world calls turns) :
    CountsOn count (log turns) := by
  induction serves with
  | done => exact .nil
  | rejected _ _ ih =>
      apply CountsOn.cons _ _ ih
      · simp [Notice.record]
      · simp [Notice.record]
  | forwarded _ _ _ ih =>
      apply CountsOn.cons_forwarded _ _ ih
      · rfl
      · rfl
  | failed _ _ _ ih => exact ih
  | duplicate _ ih =>
      apply CountsOn.cons _ _ ih
      · simp [Notice.record]
      · intro _
        rfl

/-- Every call of every run, with whatever consumers, logs what it came to, and the log of the run
is in order and counts on without a gap. -/
theorem logged_and_chronicle (world : ω) (calls : List (Call κ)) :
    let run := (empty : Registry κ).turns world calls
    (∀ turn ∈ run, Logged turn) ∧ Chronicle (log run) := by
  intro run
  constructor
  · intro turn mem
    rcases exists_turned_of_mem_turns mem with ⟨_, _, _, _, turned⟩
    exact turned.logged
  · have phases : Phases [] world calls run := phases_turns ..
    generalize run = turns at phases
    cases phases with
    | waiting waits => exact .waiting fun _ => waits.events_log
    | attached cut =>
        rw [log_append, log_cons]
        exact .attached (fun _ => cut.waits.events_log) rfl rfl cut.serves.countsOn_log

end Registry

end TraitIndex
