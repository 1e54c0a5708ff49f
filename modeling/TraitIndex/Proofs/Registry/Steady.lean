import TraitIndex.Consumer.Shelf
import TraitIndex.Proofs.Registry.Conservation
import TraitIndex.Proofs.Shelf

/-!
# Before and after the attachment

Until something attaches, a registry queues whatever is well formed and hands over nothing.  Once a
consumer is attached it stays, and everything that is handed over is handed to it.  If the consumer
never fails, the reply to each call is known beforehand and the count of deliveries is the number of
well-formed submissions.
-/

namespace TraitIndex

variable {ι κ ω : Type} [Consumer κ ω]

/-- Holds of a consumer that fails on nothing, whatever it accepted before and whatever became of
the world.  The predicate that it keeps may say more than this. -/
def Consumer.NeverFails (consumer : κ) : Prop :=
  ∃ safe : κ → Prop, safe consumer ∧
    ∀ ready fragment world, safe ready →
      (Consumer.accept ready fragment world).failed = false ∧
        safe (Consumer.accept ready fragment world).consumer

theorem Consumer.NeverFails.accept {consumer : κ} (steady : Consumer.NeverFails consumer)
    (fragment : Fragment) (world : ω) :
    ∃ after left, Consumer.accept consumer fragment world = ⟨false, after, left⟩ ∧
      Consumer.NeverFails after := by
  rcases steady with ⟨safe, ready, kept⟩
  rcases reaction : Consumer.accept consumer fragment world with ⟨failed, after, left⟩
  have safely := kept consumer fragment world ready
  rw [reaction] at safely
  rcases safely with ⟨rfl, safeAfter⟩
  exact ⟨after, left, rfl, safe, safeAfter, kept⟩

theorem Consumer.NeverFails.named {consumer : κ} (steady : Consumer.NeverFails consumer)
    (name : ι) : Consumer.NeverFails (⟨name, consumer⟩ : Named ι κ) := by
  rcases steady with ⟨safe, ready, kept⟩
  refine ⟨fun named => safe named.consumer, ready, ?_⟩
  intro named fragment journal safely
  exact kept named.consumer fragment journal.world safely

theorem ShelfConsumer.neverFails_recorder (list : String) (calls : Nat) :
    Consumer.NeverFails (ShelfConsumer.recorder list .never calls) := by
  refine ⟨fun consumer => ∃ calls, consumer = .recorder list .never calls, ⟨calls, rfl⟩, ?_⟩
  rintro _ fragment shelf ⟨earlier, rfl⟩
  exact ⟨rfl, earlier + 1, rfl⟩

theorem ShelfConsumer.neverFails_index (name : String) :
    Consumer.NeverFails (ShelfConsumer.index name) := by
  refine ⟨fun consumer => consumer = .index name, rfl, ?_⟩
  rintro _ fragment shelf rfl
  exact ⟨rfl, rfl⟩

namespace Registry

def Outcome.isQueued : Outcome → Bool
  | queued _ => true
  | _ => false

/-- The consumer and the world after some fragments were accepted one after the other. -/
def deliver (consumer : κ) (world : ω) : List Fragment → κ × ω
  | [] => (consumer, world)
  | fragment :: fragments =>
      let reaction := Consumer.accept consumer fragment world
      deliver reaction.consumer reaction.world fragments

theorem deliver_append (consumer : κ) (world : ω) (earlier later : List Fragment) :
    deliver consumer world (earlier ++ later) =
      deliver (deliver consumer world earlier).1 (deliver consumer world earlier).2 later := by
  induction earlier generalizing consumer world with
  | nil => rfl
  | cons fragment earlier ih => exact ih _ _

/-- A named consumer enters all that it is delivered, under its own name. -/
theorem entries_deliver (named : Named ι κ) (journal : Journal ι ω) (fragments : List Fragment) :
    (deliver named journal fragments).2.entries =
      journal.entries ++ fragments.map (Prod.mk named.name) := by
  induction fragments generalizing named journal with
  | nil => simp [deliver]
  | cons fragment fragments ih =>
      rcases reaction : Consumer.accept named fragment journal with ⟨failed, after, left⟩
      simp only [deliver, reaction]
      rw [ih, name_of_accept reaction, entries_of_accept reaction, List.append_assoc]
      rfl

/-- A shared index folds what it is delivered. -/
theorem index?_deliver {name : String} {shelf : Shelf} {index : Index}
    (found : shelf.index? name = some index) (fragments : List Fragment) :
    (deliver (ShelfConsumer.index name) shelf fragments).2.index? name =
      some (index.applyAll fragments) := by
  induction fragments generalizing shelf index with
  | nil => exact found
  | cons fragment fragments ih => exact ih (Shelf.index?_apply shelf name found fragment)

theorem flush_of_neverFails {consumer : κ} (steady : Consumer.NeverFails consumer) (world : ω)
    (waiting : List Fragment) :
    (flush consumer world waiting).remaining = none ∧
      Consumer.NeverFails (flush consumer world waiting).consumer := by
  induction waiting generalizing consumer world with
  | nil => exact ⟨rfl, steady⟩
  | cons fragment waiting ih =>
      rcases steady.accept fragment world with ⟨after, left, reaction, steadyAfter⟩
      rw [flush_cons_of_accepted reaction]
      exact ih steadyAfter left

/-- A flush into a consumer that never fails is a delivery. -/
theorem deliver_eq_flush {consumer : κ} (steady : Consumer.NeverFails consumer) (world : ω)
    (waiting : List Fragment) :
    deliver consumer world waiting =
      ((flush consumer world waiting).consumer, (flush consumer world waiting).world) := by
  induction waiting generalizing consumer world with
  | nil => rfl
  | cons fragment waiting ih =>
      rcases steady.accept fragment world with ⟨after, left, reaction, steadyAfter⟩
      rw [flush_cons_of_accepted reaction, deliver, reaction]
      exact ih steadyAfter left

/-- Before the attachment what is well formed waits, and nothing else changes. -/
theorem turns_submit_unattached (waiting fragments : List Fragment) (world : ω) :
    let turns := (unattached waiting : Registry κ).turns world (fragments.map .submit)
    registryAfter (unattached waiting) turns =
        unattached (waiting ++ fragments.filter fun fragment => fragment.WellFormed) ∧
      worldAfter world turns = world ∧ handovers turns = [] := by
  induction fragments generalizing waiting with
  | nil => simp [turns, registryAfter, worldAfter, handovers]
  | cons fragment fragments ih =>
      cases faulty : fragment.fault? with
      | some fault =>
          have rest := ih waiting
          simpa [turns, turn, submit, faulty, registryAfter, worldAfter, handovers,
            Fragment.WellFormed] using rest
      | none =>
          have rest := ih (waiting ++ [fragment])
          simpa [turns, turn, submit, faulty, registryAfter, worldAfter, handovers,
            Fragment.WellFormed] using rest

theorem isQueued_of_mem_turns {fragments : List Fragment}
    (wellFormed : ∀ fragment ∈ fragments, fragment.WellFormed) (waiting : List Fragment) (world : ω)
    {turn : Turn κ ω}
    (mem : turn ∈ (unattached waiting : Registry κ).turns world (fragments.map .submit)) :
    turn.outcome.isQueued = true := by
  induction fragments generalizing waiting with
  | nil => cases mem
  | cons fragment fragments ih =>
      have first : fragment.fault? = none := wellFormed fragment (by simp)
      have others : ∀ other ∈ fragments, other.WellFormed := by
        intro other listed
        exact wellFormed other (by simp [listed])
      simp only [List.map_cons, turns, Registry.turn, submit, first, List.mem_cons] at mem
      rcases mem with rfl | mem
      · rfl
      · exact ih others _ mem

/-- What an attached registry replies to a call, unless its consumer fails. -/
def reply : Call κ → Outcome
  | .submit fragment =>
      match fragment.fault? with
      | some fault => .refused (.malformed fault)
      | none => .forwarded
  | .attach _ => .refused .duplicateAttachment

theorem turns_attached_of_neverFails {consumer : κ} (steady : Consumer.NeverFails consumer)
    (count : Nat) (world : ω) (calls : List (Call κ)) :
    let turns := (attached consumer count).turns world calls
    let delivered := deliver consumer world (accepted calls)
    registryAfter (attached consumer count) turns =
        attached delivered.1 (count + (accepted calls).length) ∧
      worldAfter world turns = delivered.2 ∧ turns.map Turn.outcome = calls.map reply := by
  induction calls generalizing consumer count world with
  | nil => exact ⟨rfl, rfl, rfl⟩
  | cons call calls ih =>
      have turned := turned_turn (attached consumer count) world call
      simp only [turns, registryAfter, worldAfter, List.map_cons]
      generalize (attached consumer count).turn world call = turn at turned ⊢
      cases turned with
      | rejected faulty =>
          have rest := ih steady count world
          simpa [accepted, reply, faulty, Fragment.WellFormed] using rest
      | @forwarded _ after _ _ left fragment wellFormed reaction =>
          rcases steady.accept fragment world with ⟨after', left', reaction', steadyAfter⟩
          rw [reaction] at reaction'
          cases reaction'
          have rest := ih steadyAfter (count + 1) left
          have fine : fragment.fault? = none := wellFormed
          simpa [accepted, reply, fine, Fragment.WellFormed, deliver, reaction, Nat.add_assoc,
            Nat.add_comm, Nat.add_left_comm] using rest
      | @forwardFailed _ after _ _ left fragment wellFormed reaction =>
          rcases steady.accept fragment world with ⟨after', left', reaction', steadyAfter⟩
          rw [reaction] at reaction'
          cases reaction'
      | duplicate =>
          have rest := ih steady count world
          simpa [accepted, reply] using rest

theorem attach_of_neverFails {consumer : κ} (steady : Consumer.NeverFails consumer) (world : ω)
    (waiting : List Fragment) :
    (unattached waiting).attach world consumer =
      ⟨.attached waiting.length,
        .attached (flush consumer world waiting).consumer waiting.length,
        (flush consumer world waiting).world, (flush consumer world waiting).handovers,
        [.consumerAttached waiting.length]⟩ := by
  simp only [attach, (flush_of_neverFails steady world waiting).1]

/-- A run is cut at the first attachment: what was well formed until then is flushed there. -/
theorem turns_cut (earlier : List Fragment) (consumer : κ) (world : ω) (later : List (Call κ)) :
    let waiting := earlier.filter fun fragment => fragment.WellFormed
    let attachment := (unattached waiting).attach world consumer
    (empty : Registry κ).turns world (earlier.map .submit ++ .attach consumer :: later) =
      (empty : Registry κ).turns world (earlier.map .submit) ++
        attachment :: attachment.registry.turns attachment.world later := by
  intro waiting attachment
  rcases turns_submit_unattached (κ := κ) [] earlier world with ⟨queue, unchanged, _⟩
  rw [turns_append, empty, queue, unchanged]
  rfl

/-- A consumer that never fails is delivered what is well formed, before and after it attaches. -/
theorem turns_around_attach {consumer : κ} (steady : Consumer.NeverFails consumer)
    (earlier : List Fragment) (world : ω) (later : List (Call κ)) :
    let run := (empty : Registry κ).turns world (earlier.map .submit ++ .attach consumer :: later)
    let fragments := (earlier.filter fun fragment => fragment.WellFormed) ++ accepted later
    registryAfter empty run =
        attached (deliver consumer world fragments).1 fragments.length ∧
      worldAfter world run = (deliver consumer world fragments).2 := by
  intro run fragments
  simp only [run, fragments, turns_cut, attach_of_neverFails steady, registryAfter_append,
    worldAfter_append, registryAfter, worldAfter, List.length_append]
  rw [deliver_append, deliver_eq_flush steady]
  generalize (earlier.filter fun fragment => fragment.WellFormed) = waiting
  have steadyAfter := (flush_of_neverFails steady world waiting).2
  rcases turns_attached_of_neverFails steadyAfter waiting.length
    (flush consumer world waiting).world later with ⟨registry, left, _⟩
  exact ⟨registry, left⟩

/-- What a run comes to in which the first to attach is a consumer that never fails. -/
theorem turns_of_first_attach {fragments : List Fragment}
    (wellFormed : ∀ fragment ∈ fragments, fragment.WellFormed) {named : Named ι κ}
    (steady : Consumer.NeverFails named) (journal : Journal ι ω)
    (later : List (Call (Named ι κ))) :
    let run := (empty : Registry (Named ι κ)).turns journal
      (fragments.map .submit ++ .attach named :: later)
    (∃ after, registryAfter empty run =
        attached after (fragments.length + (accepted later).length)) ∧
      (worldAfter journal run).entries =
        journal.entries ++ (fragments ++ accepted later).map (Prod.mk named.name) ∧
      ∃ queued, run.map Turn.outcome = queued ++ .attached fragments.length :: later.map reply ∧
        queued.length = fragments.length ∧ ∀ outcome ∈ queued, outcome.isQueued = true := by
  intro run
  have allKept : (fragments.filter fun fragment => fragment.WellFormed) = fragments :=
    List.filter_eq_self.mpr (by simpa using wellFormed)
  rcases turns_around_attach steady fragments journal later with ⟨registry, left⟩
  rw [allKept] at registry left
  rw [List.length_append] at registry
  refine ⟨⟨_, registry⟩, ?_, ((empty : Registry (Named ι κ)).turns journal
    (fragments.map .submit)).map Turn.outcome, ?_, ?_, ?_⟩
  · rw [left, entries_deliver]
  · have steadyAfter := (flush_of_neverFails steady journal fragments).2
    have replies := (turns_attached_of_neverFails steadyAfter fragments.length
      (flush named journal fragments).world later).2.2
    simp only [run, turns_cut, allKept, attach_of_neverFails steady, List.map_append,
      List.map_cons, replies]
  · simp
  · intro outcome mem
    rcases List.mem_map.mp mem with ⟨turn, listed, rfl⟩
    exact isQueued_of_mem_turns wellFormed [] journal listed

end Registry

end TraitIndex
