import Mathlib.Data.List.Nodup

/-!
# Looking up in lists of pairs

In a list of pairs the first pair with a name counts.  Where no name stands twice, every pair does.
-/

namespace TraitIndex

variable {ν α : Type} [BEq ν] [LawfulBEq ν] {items : List (ν × α)} {name : ν}

theorem lookup_eq_none_iff : items.lookup name = none ↔ name ∉ items.map Prod.fst := by
  simp only [List.lookup_eq_none_iff, bne_iff_ne, ne_eq, List.mem_map, not_exists, not_and,
    eq_comm (a := name)]

theorem mem_of_lookup {value : α} (found : items.lookup name = some value) :
    (name, value) ∈ items := by
  rcases List.lookup_eq_some_iff.mp found with ⟨before, after, rfl, _⟩
  simp

theorem lookup_of_mem (nodup : (items.map Prod.fst).Nodup) {item : ν × α}
    (mem : item ∈ items) : items.lookup item.1 = some item.2 := by
  rcases List.append_of_mem mem with ⟨before, after, rfl⟩
  refine List.lookup_eq_some_iff.mpr ⟨before, after, rfl, ?_⟩
  intro other listed
  rw [List.map_append, List.nodup_append] at nodup
  have distinct := nodup.2.2 other.1 (List.mem_map_of_mem listed) item.1 (by simp)
  simpa using distinct.symm

/-- Lists with the same names in the same order are the same if the same is found in them. -/
theorem eq_of_lookup {items others : List (ν × α)} (nodup : (items.map Prod.fst).Nodup)
    (names : items.map Prod.fst = others.map Prod.fst)
    (found : ∀ name, items.lookup name = others.lookup name) : items = others := by
  have nodupOthers : (others.map Prod.fst).Nodup := names ▸ nodup
  have sameLength : items.length = others.length := by
    simpa using congrArg List.length names
  apply List.ext_getElem sameLength
  intro position isItem isOther
  have sameName : items[position].1 = others[position].1 := by
    have here := List.getElem_of_eq names (by simpa using isItem)
    simpa only [List.getElem_map] using here
  have sameValue := found items[position].1
  rw [lookup_of_mem nodup (List.getElem_mem isItem), sameName,
    lookup_of_mem nodupOthers (List.getElem_mem isOther)] at sameValue
  exact Prod.ext sameName (Option.some.inj sameValue)

end TraitIndex
