import TraitIndex.Proofs.Path.Spelling
import TraitIndex.Proofs.Script.FileName
import TraitIndex.Proofs.Text.Decoding
import TraitIndex.Script.Discovery

/-!
# Which scope a path gives

The scope of a script is read off the components of its path: those of the root come first, then the
modules, then the name of the script, and all but the root's must be texts.  Nothing else about the
spelling of the two paths counts, and a path whose components do not begin with those of the root
has no scope, however much its text resembles the root's.
-/

namespace TraitIndex.Script

/-- Holds if a path leads from a root through the modules of a scope to the script of its trait. -/
def LeadsTo (root path : Path) (scope : String) : Prop :=
  ∃ (parents : List Path.Component) (modules : List String) (trait : String),
    path.components = root.components ++ parents ++
        [.name (Text.Utf8.encode ("trait." ++ trait ++ ".js").toList)] ∧
      trait ≠ "" ∧
      parents.map Path.Component.bytes =
        modules.map (fun text => Text.Utf8.encode text.toList) ∧
      scope = "::".intercalate (modules ++ [trait])

theorem below?_eq_some_iff {root path : Path} {components : List Path.Component} :
    root.below? path = some components ↔ path.components = root.components ++ components := by
  unfold Path.below?
  constructor
  · intro below
    split at below
    · rename_i isPrefix
      rcases List.isPrefixOf_iff_prefix.mp isPrefix with ⟨further, whole⟩
      simp only [← whole, List.drop_left, Option.some.injEq] at below
      rw [← whole, below]
    · cases below
  · intro whole
    simp [whole]

theorem below?_eq_none_iff {root path : Path} :
    root.below? path = none ↔ ¬ root.components <+: path.components := by
  simp [Path.below?]

theorem text?_eq_some_iff {component : Path.Component} {text : String} :
    component.text? = some text ↔ component.bytes = Text.Utf8.encode text.toList := by
  rw [Path.Component.text?, Option.map_eq_some_iff]
  constructor
  · rintro ⟨characters, decoded, rfl⟩
    simpa using Text.Utf8.decode?_eq_some_iff.mp decoded
  · intro encoded
    exact ⟨text.toList, Text.Utf8.decode?_eq_some_iff.mpr encoded, by simp⟩

theorem mapM_text?_eq_some_iff {components : List Path.Component} {texts : List String} :
    components.mapM Path.Component.text? = some texts ↔
      components.map Path.Component.bytes =
        texts.map (fun text => Text.Utf8.encode text.toList) := by
  rw [mapM_eq_some_iff, ← List.forall₂_eq_eq_eq, List.forall₂_map_left_iff,
    List.forall₂_map_right_iff]
  simp only [text?_eq_some_iff]

/-- The names of scripts, with their traits. -/
theorem traitName?_eq_some_iff_encode {name : Name} {trait : String} :
    traitName? name = some trait ↔
      trait ≠ "" ∧ name = Text.Utf8.encode ("trait." ++ trait ++ ".js").toList := by
  have spelt : ("trait." ++ trait ++ ".js").toList =
      fileNameStart ++ (trait.toList ++ fileNameEnd) := by
    simp [fileNameStart, fileNameEnd]
  rw [traitName?_eq_some_iff, Text.Utf8.decode?_eq_some_iff, spelt, ne_eq, ne_eq,
    String.toList_eq_nil_iff]

theorem scope?_eq_some_iff {root path : Path} {scope : String} :
    scope? root path = some scope ↔ LeadsTo root path scope := by
  simp only [scope?, Option.bind_eq_bind, Option.bind_eq_some_iff, below?_eq_some_iff]
  constructor
  · rintro ⟨components, below, found⟩
    rcases List.eq_nil_or_concat components with rfl | ⟨parents, last, rfl⟩
    · cases found
    · rw [List.concat_eq_append, List.getLast?_concat, List.dropLast_concat] at found
      cases last with
      | root => cases found
      | current => cases found
      | parent => cases found
      | name name =>
          simp only [Option.bind_eq_some_iff, traitName?_eq_some_iff_encode,
            mapM_text?_eq_some_iff, Option.pure_def, Option.some.injEq] at found
          rcases found with ⟨trait, ⟨isNamed, rfl⟩, modules, texts, rfl⟩
          exact ⟨parents, modules, trait, by simp [below], isNamed, texts, rfl⟩
  · rintro ⟨parents, modules, trait, components, isNamed, texts, rfl⟩
    refine ⟨_, by rw [components, List.append_assoc], ?_⟩
    rw [List.getLast?_concat, List.dropLast_concat]
    simp only [Option.bind_eq_some_iff, traitName?_eq_some_iff_encode, mapM_text?_eq_some_iff,
      Option.pure_def, Option.some.injEq]
    exact ⟨trait, ⟨isNamed, rfl⟩, modules, texts, rfl⟩

theorem scope?_congr {root otherRoot path otherPath : Path} (sameRoot : root.Same otherRoot)
    (samePath : path.Same otherPath) : scope? root path = scope? otherRoot otherPath := by
  rw [Path.Same] at sameRoot samePath
  simp only [scope?, Path.below?, sameRoot, samePath]

theorem scope?_eq_none_of_not_below {root path : Path}
    (outside : ¬ root.components <+: path.components) : scope? root path = none := by
  rw [scope?, below?_eq_none_iff.mpr outside]
  rfl

/-- A path has a scope if and only if it leads from the root through modules to the script of a
trait.  The scope does not depend on how the root and the path are spelt, and there is none outside
of the root, to which paths do not belong for beginning with its text. -/
theorem scope?_exact (root path : Path) :
    (∀ scope, scope? root path = some scope ↔ LeadsTo root path scope) ∧
      (∀ otherRoot otherPath, root.Respelt otherRoot → path.Respelt otherPath →
        scope? otherRoot otherPath = scope? root path) ∧
      (¬ root.components <+: path.components → scope? root path = none) ∧
      (root.Prolonged path → scope? root path = none) := by
  refine ⟨fun scope => scope?_eq_some_iff, ?_, scope?_eq_none_of_not_below, ?_⟩
  · intro otherRoot otherPath respeltRoot respeltPath
    exact scope?_congr respeltRoot.components_eq.symm respeltPath.components_eq.symm
  · intro prolonged
    exact scope?_eq_none_of_not_below prolonged.not_prefix

/-- A path and its root, both spelt in two ways, and a path beside the root that begins with its
text. -/
theorem scope?_exact_respelt :
    let root : Path := .ofString "/docs/impl"
    let otherRoot : Path := .ofString "/docs//impl/"
    let path : Path := .ofString "/docs/impl/core/trait.Default.js"
    let otherPath : Path := .ofString "/docs/impl/./core/trait.Default.js"
    let beside : Path := .ofString "/docs/impl-x/trait.A.js"
    LeadsTo root path "core::Default" ∧
      root.Respelt otherRoot ∧ path.Respelt otherPath ∧
      scope? otherRoot otherPath = some "core::Default" ∧
      root.Prolonged beside ∧ scope? root beside = none := by
  intro root otherRoot path otherPath beside
  rcases scope?_exact root path with ⟨found_iff, sameScope, _, _⟩
  have leads : LeadsTo root path "core::Default" := (found_iff _).mp (by decide +kernel)
  have respeltRoot : root.Respelt otherRoot := by
    have slash := Path.Respelt.slash (Text.Utf8.encode "/docs".toList)
      (Text.Utf8.encode "impl".toList)
    exact slash.trans (.trailing (by decide +kernel))
  have respeltPath : path.Respelt otherPath :=
    .dot (Text.Utf8.encode "/docs/impl".toList) (Text.Utf8.encode "core/trait.Default.js".toList)
  have isName : Path.IsEntryName (Text.Utf8.encode "impl".toList) := by decide +kernel
  have prolonged : root.Prolonged beside :=
    .goOn (.ofString "/docs") isName ⟨_, _, rfl, by decide +kernel⟩
  refine ⟨leads, respeltRoot, respeltPath, ?_, prolonged,
    (scope?_exact root beside).2.2.2 prolonged⟩
  rw [sameScope otherRoot otherPath respeltRoot respeltPath]
  exact (found_iff _).mpr leads

end TraitIndex.Script
