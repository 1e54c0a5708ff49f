import TraitIndex.Loading.Pass
import TraitIndex.Proofs.Schedule
import TraitIndex.Proofs.Script.Outcome

/-!
# What can be loaded

A script can be loaded or it brings nothing.  What is loaded of some scripts keeps their order, has
nothing missing exactly when all of them can be loaded, and is well formed, as no other fragments
are made of scripts.
-/

namespace TraitIndex.Loading

/-- Holds of a loader that yields well-formed fragments only. -/
def Loader.Sound (loader : Loader) : Prop :=
  ∀ path fragment, loader path = .ok fragment → fragment.WellFormed

/-- Holds of a script that can be loaded. -/
def Loader.Loads (loader : Loader) (path : Path) : Prop :=
  ∃ fragment, loader path = .ok fragment

/-- The fragments of those scripts that can be loaded, in the order of the scripts. -/
def Loader.loaded (loader : Loader) (paths : List Path) : List Fragment :=
  paths.filterMap fun path => (loader path).toOption

/-- What is loaded of some scripts, each fragment with the worker that takes its script. -/
def Loader.loadedBy (loader : Loader) (taken : Schedule Nat Path) : Schedule Nat Fragment :=
  taken.filterMap fun move => (loader move.2).toOption.map (Prod.mk move.1)

theorem sound_load (files : FileSystem) (root : Path) :
    Loader.Sound (Script.load files root) := by
  intro path fragment loaded
  unfold Script.load at loaded
  split at loaded
  · cases loaded
  · exact Script.wellFormed_of_parse loaded

namespace Loader

variable (loader : Loader)

theorem toOption_eq_some_iff (path : Path) (fragment : Fragment) :
    (loader path).toOption = some fragment ↔ loader path = .ok fragment := by
  cases found : loader path <;> simp [Except.toOption]

theorem isSome_iff_loads (path : Path) :
    (loader path).toOption.isSome = true ↔ loader.Loads path := by
  simp only [Option.isSome_iff_exists, toOption_eq_some_iff, Loads]

theorem mem_loaded {paths : List Path} {fragment : Fragment} :
    fragment ∈ loader.loaded paths ↔ ∃ path ∈ paths, loader path = .ok fragment := by
  simp only [loaded, List.mem_filterMap, toOption_eq_some_iff]

theorem loaded_append (paths more : List Path) :
    loader.loaded (paths ++ more) = loader.loaded paths ++ loader.loaded more :=
  List.filterMap_append

theorem map_snd_loadedBy (taken : Schedule Nat Path) :
    (loader.loadedBy taken).map Prod.snd = loader.loaded (taken.map Prod.snd) := by
  simp only [loadedBy, loaded, List.map_filterMap, List.filterMap_map, Function.comp_def,
    Option.map_map, Option.map_id']

/-- Each worker loads what it takes, in order. -/
theorem of_loadedBy (taken : Schedule Nat Path) (position : Nat) :
    (loader.loadedBy taken).of position = loader.loaded (taken.of position) :=
  Schedule.of_filterMap (fun path => (loader path).toOption) taken position

theorem length_loaded_eq_iff (paths : List Path) :
    (loader.loaded paths).length = paths.length ↔ ∀ path ∈ paths, loader.Loads path := by
  simp only [loaded, List.filterMap_length_eq_length, isSome_iff_loads]

/-- A script that cannot be loaded can be left out. -/
theorem loaded_filter_ne {broken : Path} (fails : ¬ loader.Loads broken) (paths : List Path) :
    loader.loaded (paths.filter fun path => path ≠ broken) = loader.loaded paths := by
  have nothing : (loader broken).toOption = none := by
    rw [Option.eq_none_iff_forall_ne_some]
    intro fragment loads
    exact fails ⟨fragment, (loader.toOption_eq_some_iff broken fragment).mp loads⟩
  rw [loaded, List.filterMap_filter]
  apply List.filterMap_congr
  intro path _
  by_cases same : path = broken
  · simp [same, nothing]
  · simp [same]

variable {loader}

theorem Sound.wellFormed_of_mem_loaded (sound : loader.Sound) {paths : List Path} :
    ∀ fragment ∈ loader.loaded paths, fragment.WellFormed := by
  intro fragment mem
  rcases loader.mem_loaded.mp mem with ⟨path, _, loads⟩
  exact sound path fragment loads

theorem Sound.filter_loaded (sound : loader.Sound) (paths : List Path) :
    ((loader.loaded paths).filter fun fragment => fragment.WellFormed) = loader.loaded paths := by
  apply List.filter_eq_self.mpr
  intro fragment mem
  exact decide_eq_true (sound.wellFormed_of_mem_loaded fragment mem)

end Loader

end TraitIndex.Loading
