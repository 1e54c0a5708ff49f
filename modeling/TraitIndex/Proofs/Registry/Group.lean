import Mathlib.Logic.Function.Basic
import TraitIndex.Registry.Run

/-!
# Several registries in one world

Registries that are used side by side have nothing in common but the world.  A call to one of them
leaves the others as they are.
-/

namespace TraitIndex

structure Group (ρ κ ω : Type) where
  registries : ρ → Registry κ
  world : ω

namespace Group

variable {ρ κ ω : Type}

def fresh (world : ω) : Group ρ κ ω :=
  ⟨fun _ => .empty, world⟩

variable [Consumer κ ω]

/-- What a call to one of the registries does. -/
def turn (group : Group ρ κ ω) (call : ρ × Registry.Call κ) : Registry.Turn κ ω :=
  (group.registries call.1).turn group.world call.2

variable [DecidableEq ρ]

def next (group : Group ρ κ ω) (call : ρ × Registry.Call κ) : Group ρ κ ω where
  registries := Function.update group.registries call.1 (group.turn call).registry
  world := (group.turn call).world

@[simp]
theorem registries_next_self (group : Group ρ κ ω) (call : ρ × Registry.Call κ) :
    (group.next call).registries call.1 = (group.turn call).registry :=
  Function.update_self _ _ _

theorem registries_next_of_ne {which : ρ} (group : Group ρ κ ω) {call : ρ × Registry.Call κ}
    (other : which ≠ call.1) : (group.next call).registries which = group.registries which :=
  Function.update_of_ne other _ _

end Group

end TraitIndex
