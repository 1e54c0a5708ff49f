import TraitIndex.Registry.Run

/-!
# The registry of a process

A process has one registry, which it creates when it first needs it, be it for a call or for a look
at the state.  Apart from the notice of its creation, which comes before any other, it behaves like
any registry.
-/

namespace TraitIndex.Registry

variable {κ ω : Type}

inductive Access (κ : Type) where
  | call (call : Call κ)
  /-- Looks at the state and changes nothing. -/
  | look

/-- What an access did; a look has no outcome. -/
structure Visit (κ ω : Type) where
  outcome : Option Outcome
  registry : Registry κ
  world : ω
  handovers : List (Handover κ)
  notices : List Notice

def Turn.visit (turn : Turn κ ω) : Visit κ ω :=
  ⟨some turn.outcome, turn.registry, turn.world, turn.handovers, turn.notices⟩

def visit [Consumer κ ω] (registry : Registry κ) (world : ω) : Access κ → Visit κ ω
  | .call call => (registry.turn world call).visit
  | .look => ⟨none, registry, world, [], []⟩

def visits [Consumer κ ω] (registry : Registry κ) (world : ω) :
    List (Access κ) → List (Visit κ ω)
  | [] => []
  | access :: accesses =>
      let first := registry.visit world access
      first :: first.registry.visits first.world accesses

/-- The registry of a process, absent until its first use. -/
abbrev Shared (κ : Type) :=
  Option (Registry κ)

namespace Shared

/-- The registry of the process, created if need be, with the notices of its creation. -/
def use (shared : Shared κ) : Registry κ × List Notice :=
  match shared with
  | some registry => (registry, [])
  | none => (Registry.empty, [.created])

def visit [Consumer κ ω] (shared : Shared κ) (world : ω) (access : Access κ) : Visit κ ω :=
  let first := shared.use
  let visit := first.1.visit world access
  { visit with notices := first.2 ++ visit.notices }

def visits [Consumer κ ω] (shared : Shared κ) (world : ω) : List (Access κ) → List (Visit κ ω)
  | [] => []
  | access :: accesses =>
      let first := shared.visit world access
      first :: visits (some first.registry) first.world accesses

end Shared

end TraitIndex.Registry
