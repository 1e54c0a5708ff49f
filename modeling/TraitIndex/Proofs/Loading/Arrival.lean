import TraitIndex.Proofs.Index.Rearranged
import TraitIndex.Proofs.Loading.Accounts

/-!
# Indexes that are loaded in parallel

In which order fragments arrive at an index depends on the number of workers and on how these take
turns.  All workers finishing, the fragments are the same, so two loadings of the same scripts make
indexes that differ only as far as the order of arrival decides.
-/

namespace TraitIndex.Loading

/-- How scripts are brought to an index: by how many workers at most, how these take turns, and
whether the index is attached before they start or when they are through. -/
structure Delivery where
  limit : Nat
  scheduler : Scheduler
  early : Bool

/-- The index that is left when scripts are brought to a fresh one. -/
def Delivery.index? (delivery : Delivery) (policy : MergePolicy) (loader : Loader)
    (scripts : List Path) : Option Index :=
  let consumer := ShelfConsumer.index "merged"
  let shelf := Shelf.empty.openIndex "merged" policy
  if delivery.early then
    let attachment := (Registry.empty : Registry ShelfConsumer).attach shelf consumer
    let result := loadBy delivery.scheduler loader delivery.limit scripts attachment.registry
      attachment.world
    result.world.index? "merged"
  else
    let result := loadBy delivery.scheduler loader delivery.limit scripts
      (Registry.empty : Registry ShelfConsumer) shelf
    (result.registry.attach result.world consumer).world.index? "merged"

/-- What is loaded is folded into the index in the order in which the scripts are taken. -/
theorem Delivery.index?_eq (delivery : Delivery) (policy : MergePolicy) {loader : Loader}
    (sound : loader.Sound) (scripts : List Path) :
    delivery.index? policy loader scripts =
      some ((Index.empty policy).applyAll
        (loader.loaded (order delivery.scheduler delivery.limit scripts))) := by
  rcases delivery with ⟨limit, scheduler, early⟩
  have steady := ShelfConsumer.neverFails_index "merged"
  have index := Registry.index?_deliver (Shelf.index?_openIndex_empty "merged" policy)
    (loader.loaded (order scheduler limit scripts))
  cases early with
  | true =>
      rcases loadBy_attached steady scheduler sound limit scripts
        (Shelf.empty.openIndex "merged" policy) with ⟨world, _⟩
      exact (congrArg (Shelf.index? · "merged") world).trans index
  | false =>
      rcases attach_loadBy steady scheduler sound limit scripts
        (Shelf.empty.openIndex "merged" policy) with ⟨_, world⟩
      exact (congrArg (Shelf.index? · "merged") world).trans index

/-- The order of arrival decides about an index no more than `Index.UpToOrder` says, and neither do
the number of workers and how they take turns. -/
theorem upToOrder_arrivals (policy : MergePolicy) :
    (∀ fragments others : List Fragment, (∀ fragment ∈ fragments, fragment.WellFormed) →
      fragments.Perm others →
        Index.UpToOrder policy fragments ((Index.empty policy).applyAll fragments)
          ((Index.empty policy).applyAll others)) ∧
      ∀ (files : FileSystem) (root : Path) (scripts : List Path) (first second : Delivery),
        first.scheduler.Complete → second.scheduler.Complete →
          ∃ one other, first.index? policy (Script.load files root) scripts = some one ∧
            second.index? policy (Script.load files root) scripts = some other ∧
              Index.UpToOrder policy (Loader.loaded (Script.load files root) scripts) one
                other := by
  constructor
  · intro fragments others wellFormed perm
    exact Index.upToOrder_of_perm policy wellFormed (.refl fragments) perm
  · intro files root scripts first second complete completeOther
    have sound := sound_load files root
    have arrival : ∀ {delivery : Delivery}, delivery.scheduler.Complete →
        (Loader.loaded (Script.load files root) scripts).Perm (Loader.loaded
          (Script.load files root) (order delivery.scheduler delivery.limit scripts)) := by
      intro delivery complete
      exact ((order_perm complete delivery.limit scripts).filterMap _).symm
    refine ⟨_, _, first.index?_eq policy sound scripts, second.index?_eq policy sound scripts, ?_⟩
    exact Index.upToOrder_of_perm policy sound.wellFormed_of_mem_loaded (arrival complete)
      (arrival completeOther)

/-- Two fragments that declare the same symbol. -/
def rivals : List Fragment :=
  [⟨some "a", [⟨"s", [⟨"x"⟩]⟩, ⟨"t", [⟨"z"⟩]⟩]⟩, ⟨none, [⟨"s", [⟨"y"⟩, ⟨"x"⟩]⟩]⟩]

theorem upToOrder_arrivals_rivals :
    (∀ fragment ∈ rivals, fragment.WellFormed) ∧ rivals.Perm rivals.reverse ∧
      Index.UpToOrder .replace rivals ((Index.empty .replace).applyAll rivals)
        ((Index.empty .replace).applyAll rivals.reverse) ∧
      oneByOne.Complete ∧
      ∃ one other,
        Delivery.index? ⟨1, oneByOne, true⟩ .union (Script.load twoScripts ⟨[]⟩) fourPaths =
            some one ∧
          Delivery.index? ⟨2, oneByOne, false⟩ .union (Script.load twoScripts ⟨[]⟩) fourPaths =
            some other ∧
          Index.UpToOrder .union (Loader.loaded (Script.load twoScripts ⟨[]⟩) fourPaths) one
            other := by
  have wellFormed : ∀ fragment ∈ rivals, fragment.WellFormed := by decide +kernel
  have perm : rivals.Perm rivals.reverse := (List.reverse_perm rivals).symm
  refine ⟨wellFormed, perm, ?_, complete_oneByOne, ?_⟩
  · exact (upToOrder_arrivals .replace).1 rivals rivals.reverse wellFormed perm
  · exact (upToOrder_arrivals .union).2 twoScripts ⟨[]⟩ fourPaths ⟨1, oneByOne, true⟩
      ⟨2, oneByOne, false⟩ complete_oneByOne complete_oneByOne

end TraitIndex.Loading
