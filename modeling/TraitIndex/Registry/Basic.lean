import TraitIndex.Consumer.Basic
import TraitIndex.Log.Record

/-!
# The registry

A registry takes fragments from producers and brings them to the one consumer that attaches to it.
Until then they wait in order; when a consumer attaches they are handed over in that order, and from
then on each is handed over as it is submitted.  A consumer that fails while the waiting fragments
are handed over does not become attached, and the fragments behind the failing one keep waiting.  An
attached consumer stays attached, also after a failure.

Every call yields what happened: its outcome, the registry and the world after it, the fragments
handed over and the notices for the log.
-/

namespace TraitIndex

inductive Registry (κ : Type) where
  | unattached (pending : List Fragment)
  | attached (consumer : κ) (delivered : Nat)

namespace Registry

inductive Refusal where
  | malformed (fault : Fragment.Fault)
  | duplicateAttachment
  deriving DecidableEq, Repr

namespace Refusal

def message : Refusal → String
  | malformed fault => "malformed fragment: " ++ fault.message
  | duplicateAttachment => "a fragment consumer is already attached to this registry"

/-- The message of what caused the refusal, if anything did. -/
def source? : Refusal → Option String
  | malformed fault => some fault.message
  | duplicateAttachment => none

end Refusal

inductive Outcome where
  /-- The fragment waits; `pending` fragments do. -/
  | queued (pending : Nat)
  | forwarded
  /-- The consumer is attached, and was handed the `flushed` fragments that had been waiting. -/
  | attached (flushed : Nat)
  | refused (refusal : Refusal)
  | failed
  deriving DecidableEq, Repr

inductive Notice where
  | created
  | fragmentRejected (scope : Option String) (fault : Fragment.Fault)
  | fragmentQueued (scope : Option String) (symbols pending : Nat)
  | fragmentForwarded (scope : Option String) (symbols delivered : Nat)
  | duplicateAttachment (delivered : Nat)
  | consumerAttached (flushed : Nat)
  deriving DecidableEq, Repr

/-- Shows a scope; a dash stands for none. -/
def scopeLabel (scope : Option String) : String :=
  scope.getD "-"

def Notice.record : Notice → Log.Record
  | created => ⟨.debug, "registry_init", "registry", .ok, []⟩
  | fragmentRejected scope fault =>
      ⟨.warn, "fragment_rejected", "registry", .error,
        [("scope", scopeLabel scope), ("reason", fault.message)]⟩
  | fragmentQueued scope symbols pending =>
      ⟨.debug, "fragment_queued", "registry", .ok,
        [("scope", scopeLabel scope), ("symbols", Nat.repr symbols),
          ("pending", Nat.repr pending)]⟩
  | fragmentForwarded scope symbols delivered =>
      ⟨.debug, "fragment_forwarded", "registry", .ok,
        [("scope", scopeLabel scope), ("symbols", Nat.repr symbols),
          ("delivered", Nat.repr delivered)]⟩
  | duplicateAttachment delivered =>
      ⟨.error, "duplicate_attachment", "registry", .error, [("delivered", Nat.repr delivered)]⟩
  | consumerAttached flushed =>
      ⟨.info, "consumer_attached", "registry", .ok, [("flushed", Nat.repr flushed)]⟩

structure Turn (κ ω : Type) where
  outcome : Outcome
  registry : Registry κ
  world : ω
  handovers : List (Handover κ)
  notices : List Notice

variable {κ ω : Type}

def empty : Registry κ :=
  unattached []

def isAttached : Registry κ → Bool
  | unattached _ => false
  | attached _ _ => true

/-- The fragments that wait for a consumer, in the order of their submission. -/
def pending : Registry κ → List Fragment
  | unattached fragments => fragments
  | attached _ _ => []

/-- The number of fragments that wait for a consumer. -/
def pendingCount : Registry κ → Nat
  | unattached fragments => fragments.length
  | attached _ _ => 0

/-- The number of fragments that the attached consumer took without failing. -/
def delivered : Registry κ → Nat
  | unattached _ => 0
  | attached _ count => count

def describe : Registry κ → String
  | unattached fragments =>
      "ImplementorRegistry \x7b attached: false, pending: " ++ Nat.repr fragments.length ++ " \x7d"
  | attached _ count =>
      "ImplementorRegistry \x7b attached: true, delivered: " ++ Nat.repr count ++ " \x7d"

/-- What handing fragments to a consumer one after the other came to. -/
structure Flush (κ ω : Type) where
  consumer : κ
  world : ω
  handovers : List (Handover κ)
  /-- The fragments behind the one that the consumer failed on, if it failed. -/
  remaining : Option (List Fragment)

/-- Hands fragments to a consumer until it fails. -/
def flush [Consumer κ ω] (consumer : κ) (world : ω) : List Fragment → Flush κ ω
  | [] => ⟨consumer, world, [], none⟩
  | fragment :: fragments =>
      let reaction := Consumer.accept consumer fragment world
      let handover : Handover κ := ⟨consumer, fragment, reaction.failed⟩
      if reaction.failed then ⟨reaction.consumer, reaction.world, [handover], some fragments⟩
      else
        let rest := flush reaction.consumer reaction.world fragments
        { rest with handovers := handover :: rest.handovers }

def submit [Consumer κ ω] (registry : Registry κ) (world : ω) (fragment : Fragment) :
    Turn κ ω :=
  match fragment.fault? with
  | some fault =>
      ⟨.refused (.malformed fault), registry, world, [], [.fragmentRejected fragment.scope fault]⟩
  | none =>
      match registry with
      | unattached fragments =>
          let count := fragments.length + 1
          ⟨.queued count, unattached (fragments ++ [fragment]), world, [],
            [.fragmentQueued fragment.scope fragment.size count]⟩
      | attached consumer count =>
          let reaction := Consumer.accept consumer fragment world
          let handover : Handover κ := ⟨consumer, fragment, reaction.failed⟩
          if reaction.failed then
            ⟨.failed, attached reaction.consumer count, reaction.world, [handover], []⟩
          else
            ⟨.forwarded, attached reaction.consumer (count + 1), reaction.world, [handover],
              [.fragmentForwarded fragment.scope fragment.size (count + 1)]⟩

def attach [Consumer κ ω] (registry : Registry κ) (world : ω) (consumer : κ) : Turn κ ω :=
  match registry with
  | attached _ count =>
      ⟨.refused .duplicateAttachment, registry, world, [], [.duplicateAttachment count]⟩
  | unattached fragments =>
      let flushed := flush consumer world fragments
      match flushed.remaining with
      | some waiting => ⟨.failed, unattached waiting, flushed.world, flushed.handovers, []⟩
      | none =>
          ⟨.attached fragments.length, attached flushed.consumer fragments.length, flushed.world,
            flushed.handovers, [.consumerAttached fragments.length]⟩

end Registry

end TraitIndex
