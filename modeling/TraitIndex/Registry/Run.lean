import TraitIndex.Registry.Basic

/-!
# Runs of a registry

A run is a list of calls, each made on the registry and in the world that the one before it left.
-/

namespace TraitIndex.Registry

variable {κ ω : Type}

inductive Call (κ : Type) where
  | submit (fragment : Fragment)
  | attach (consumer : κ)

def turn [Consumer κ ω] (registry : Registry κ) (world : ω) : Call κ → Turn κ ω
  | .submit fragment => registry.submit world fragment
  | .attach consumer => registry.attach world consumer

def turns [Consumer κ ω] (registry : Registry κ) (world : ω) : List (Call κ) → List (Turn κ ω)
  | [] => []
  | call :: calls =>
      let first := registry.turn world call
      first :: first.registry.turns first.world calls

end TraitIndex.Registry
