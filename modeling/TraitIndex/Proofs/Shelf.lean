import TraitIndex.Consumer.Shelf
import TraitIndex.Proofs.Lookup

/-!
# Looking things up on a shelf

Items are kept in lists of pairs, where the first pair with a name counts.  Changing the item of a
name changes what is found under that name and nothing else, on a shelf and in the table of an index
alike.
-/

namespace TraitIndex

section Lookup

variable {α : Type}

theorem lookup_cons (item : String × α) (items : List (String × α)) (name : String) :
    (item :: items).lookup name = if item.1 = name then some item.2 else items.lookup name := by
  rcases item with ⟨first, value⟩
  by_cases same : first = name
  · subst same
    simp
  · have passed : (name == first) = false := by simpa using fun equal => same equal.symm
    simp [List.lookup_cons, same, passed]

/-- A change touches its own name only. -/
theorem lookup_update (changed : String) (fresh : α) (change : α → α)
    (items : List (String × α)) (name : String) :
    (Shelf.update changed fresh change items).lookup name =
      if changed = name then some (change ((items.lookup name).getD fresh))
      else items.lookup name := by
  induction items with
  | nil => rw [Shelf.update, lookup_cons]; rfl
  | cons item items ih =>
      rcases item with ⟨first, value⟩
      by_cases own : first = changed
      · subst own
        rw [Shelf.update, if_pos rfl, lookup_cons, lookup_cons]
        by_cases same : first = name <;> simp [same]
      · rw [Shelf.update, if_neg own, lookup_cons, lookup_cons, ih]
        by_cases found : first = name
        · have other : ¬ changed = name := fun equal => own (found.trans equal.symm)
          rw [if_pos found, if_pos found, if_neg other]
        · rw [if_neg found, if_neg found]

end Lookup

namespace Shelf

variable (shelf : Shelf) (name : String)

theorem index?_openIndex_empty (policy : MergePolicy) :
    (empty.openIndex name policy).index? name = some (Index.empty policy) := by
  rw [index?, openIndex, lookup_update, if_pos rfl]
  rfl

theorem index?_apply {index : Index} (found : shelf.index? name = some index)
    (fragment : Fragment) :
    (shelf.apply name fragment).index? name = some (index.apply fragment) := by
  rw [index?] at found
  rw [index?, apply, lookup_update, if_pos rfl, found]
  rfl

theorem index?_apply_of_ne {name other : String} (different : name ≠ other)
    (fragment : Fragment) : (shelf.apply name fragment).index? other = shelf.index? other := by
  rw [index?, apply, lookup_update, if_neg different]
  rfl

end Shelf

/-- A recorder counts what it is handed. -/
theorem ShelfConsumer.consumer_accept_recorder (list : String) (trigger : Trigger) (calls : Nat)
    (fragment : Fragment) (shelf : Shelf) :
    (Consumer.accept (recorder list trigger calls) fragment shelf).consumer =
      recorder list trigger (calls + 1) := by
  simp only [Consumer.accept, accept]
  split <;> rfl

/-- What a recorder accepts changes no index. -/
theorem ShelfConsumer.indexes_accept_recorder (list : String) (trigger : Trigger) (calls : Nat)
    (fragment : Fragment) (shelf : Shelf) :
    (Consumer.accept (recorder list trigger calls) fragment shelf).world.indexes =
      shelf.indexes := by
  simp only [Consumer.accept, accept]
  split <;> rfl

/-- A table takes in an entry as a shelf changes an item. -/
theorem Index.mergeEntry_eq_update (policy : MergePolicy) (entry : Entry)
    (table : List (String × List Descriptor)) :
    mergeEntry policy entry table =
      Shelf.update entry.symbol [] (fun known => policy.combine known entry.descriptors)
        table := by
  induction table with
  | nil => rfl
  | cons row rest ih =>
      rcases row with ⟨symbol, known⟩
      by_cases same : symbol = entry.symbol
      · rw [mergeEntry, Shelf.update, if_pos same, if_pos same, same]
      · rw [mergeEntry, Shelf.update, if_neg same, if_neg same, ih]

end TraitIndex
