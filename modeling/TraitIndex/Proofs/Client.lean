import TraitIndex.Proofs.Registry.Steady

/-!
# Consumers of any kind around one shelf

Recorders and shared indexes leave what they accept on a shelf.  Besides them there are guests, of
which nothing is known but that they leave nothing on the shelf: they may look at it, they may fail
on whatever they like, and they have a world of their own.
-/

namespace TraitIndex

class Guest (γ : Type) (ω : outParam Type) where
  accept : γ → Fragment → Shelf → ω → Reaction γ ω

inductive Client (γ : Type) where
  | house (consumer : ShelfConsumer)
  | guest (state : γ)

namespace Client

variable {γ ω : Type}

def accept [Guest γ ω] (client : Client γ) (fragment : Fragment) (world : Shelf × ω) :
    Reaction (Client γ) (Shelf × ω) :=
  match client with
  | house consumer =>
      let reaction := Consumer.accept consumer fragment world.1
      ⟨reaction.failed, house reaction.consumer, (reaction.world, world.2)⟩
  | guest state =>
      let reaction := Guest.accept state fragment world.1 world.2
      ⟨reaction.failed, guest reaction.consumer, (world.1, reaction.world)⟩

instance [Guest γ ω] : Consumer (Client γ) (Shelf × ω) :=
  ⟨accept⟩

/-- Holds of the clones of the shared index with the given name. -/
def isClone (name : String) : Client γ → Bool
  | house (.index other) => other = name
  | _ => false

theorem eq_of_isClone {name : String} {client : Client γ} (clone : client.isClone name = true) :
    client = house (.index name) := by
  rcases client with (⟨⟩ | other) | state
  · cases clone
  · rw [isClone, decide_eq_true_eq] at clone
    rw [clone]
  · cases clone

variable [Guest γ ω]

theorem isClone_accept (name : String) (client : Client γ) (fragment : Fragment)
    (world : Shelf × ω) :
    (Consumer.accept client fragment world).consumer.isClone name = client.isClone name := by
  rcases client with (⟨list, trigger, calls⟩ | other) | state
  · have counted :=
      ShelfConsumer.consumer_accept_recorder list trigger calls fragment world.1
    simp only [Consumer.accept, accept] at counted ⊢
    rw [counted]
    rfl
  · rfl
  · rfl

theorem neverFails_of_isClone {name : String} {client : Client γ}
    (clone : client.isClone name = true) : Consumer.NeverFails client := by
  refine ⟨fun client => client.isClone name = true, clone, ?_⟩
  intro ready fragment world safe
  refine ⟨?_, (isClone_accept name ready fragment world).trans safe⟩
  rw [eq_of_isClone safe]
  rfl

/-- An index takes what its clones are handed and nothing else. -/
theorem index?_accept {name : String} {index : Index} {world : Shelf × ω}
    (found : world.1.index? name = some index) (client : Client γ) (fragment : Fragment) :
    (Consumer.accept client fragment world).world.1.index? name =
      some (if client.isClone name then index.apply fragment else index) := by
  rcases client with (⟨list, trigger, calls⟩ | other) | state
  · have kept := ShelfConsumer.indexes_accept_recorder list trigger calls fragment world.1
    exact (congrArg (List.lookup name) kept).trans found
  · have applied : (Consumer.accept (house (.index other) : Client γ) fragment world).world.1 =
        world.1.apply other fragment := rfl
    rw [applied]
    by_cases same : other = name
    · subst same
      simpa [isClone] using Shelf.index?_apply world.1 other found fragment
    · simpa [isClone, same] using (Shelf.index?_apply_of_ne world.1 same fragment).trans found
  · exact found

end Client

/-- A guest that keeps what it is handed for itself, and fails when it has no room left. -/
structure Keeper where
  room : Nat
  deriving DecidableEq, Repr

instance : Guest Keeper (List Fragment) where
  accept keeper fragment _ kept :=
    match keeper.room with
    | 0 => ⟨true, keeper, kept⟩
    | room + 1 => ⟨false, ⟨room⟩, kept ++ [fragment]⟩

end TraitIndex
