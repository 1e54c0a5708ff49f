import TraitIndex.Fragment

/-!
# Consumers

A consumer accepts fragments one at a time.  It has a state of its own and may change the world
around it, which other consumers may share.  It may also fail on a fragment; what it changed before
it failed stays changed.
-/

namespace TraitIndex

/-- What became of a consumer and of the world when a fragment was handed over. -/
structure Reaction (κ ω : Type) where
  failed : Bool
  consumer : κ
  world : ω

/-- Consumers with states in `κ`, in a world of type `ω`. -/
class Consumer (κ : Type) (ω : outParam Type) where
  accept : κ → Fragment → ω → Reaction κ ω

/-- One fragment handed to a consumer, whose state was the given one. -/
structure Handover (κ : Type) where
  consumer : κ
  fragment : Fragment
  failed : Bool

end TraitIndex
