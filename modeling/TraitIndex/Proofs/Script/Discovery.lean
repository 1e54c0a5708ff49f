import TraitIndex.Proofs.FileSystem.Walk
import TraitIndex.Proofs.Script.FileName
import TraitIndex.Proofs.Script.Scope
import TraitIndex.Script.Discovery
import TraitIndex.Script.Load

/-!
# Which scripts have a scope

Below a root whose names can be read as texts, the files that are found as scripts are those that
have a scope, and besides them the files of the two names without a trait.  These are found, as
their names begin and end like those of scripts, but have no scope, as nothing is left for a trait
between the beginning and the end.
-/

namespace TraitIndex.Script

/-- Holds of the names of entries that can be read as texts. -/
def IsTextName (name : Name) : Prop :=
  Path.IsEntryName name ∧ (Text.Utf8.decode? name).isSome = true

instance (name : Name) : Decidable (IsTextName name) :=
  inferInstanceAs (Decidable (_ ∧ _))

section Scope

variable {place : List Name}

theorem exists_mapM_text? (readable : ∀ name ∈ place, (Text.Utf8.decode? name).isSome = true) :
    ∃ texts, (place.map Path.Component.name).mapM Path.Component.text? = some texts := by
  induction place with
  | nil => exact ⟨[], rfl⟩
  | cons name place ih =>
      rcases Option.isSome_iff_exists.mp (readable name (by simp)) with ⟨text, decoded⟩
      rcases ih fun other listed => readable other (by simp [listed]) with ⟨texts, rest⟩
      exact ⟨String.ofList text :: texts, by
        simp [Path.Component.text?, Path.Component.bytes, decoded, rest]⟩

theorem scope?_descend (textual : ∀ name ∈ place, IsTextName name) (root : Path) :
    (scope? root (root.descend place)).isSome = true ↔
      ∃ name, place.getLast? = some name ∧ (traitName? name).isSome = true := by
  have valid : ∀ name ∈ place, Path.IsEntryName name := fun name listed => (textual name listed).1
  rcases List.eq_nil_or_concat place with rfl | ⟨front, last, rfl⟩
  · simp [scope?, Path.below?_descend]
  · have readable : ∀ name ∈ front, (Text.Utf8.decode? name).isSome = true :=
      fun name listed => (textual name (by simp [listed])).2
    rcases exists_mapM_text? readable with ⟨modules, decoded⟩
    have below := Path.below?_descend valid root
    simp only [List.concat_eq_append, List.map_append, List.map_cons, List.map_nil] at below ⊢
    cases named : traitName? last <;> simp [scope?, below, decoded, named]

end Scope

/-- Holds of the path of a file whose name is one of the two without a trait. -/
def LacksTrait (path : Path) : Prop :=
  ∃ name, path.fileName? = some name ∧ IsTraitless name

/-- How the scripts that are found at a root relate to the scopes of the files in the tree there. -/
structure Discovered (files : FileSystem) (root : Path) (tree : Node) (scripts : List Path) :
    Prop where
  areFiles : ∀ script ∈ scripts, ∃ place contents,
    tree.at? place = some (.file contents) ∧ script = root.descend place
  listed : ∀ place contents, tree.at? place = some (.file contents) →
    (root.descend place ∈ scripts ↔
      (scope? root (root.descend place)).isSome = true ∨ LacksTrait (root.descend place))
  unscoped : ∀ place contents, tree.at? place = some (.file contents) →
    LacksTrait (root.descend place) → scope? root (root.descend place) = none
  loaded : ∀ script ∈ scripts, ∀ fragment, load files root script = .ok fragment →
    (fragment.scope = none ↔ LacksTrait script)

section Discovery

variable {files : FileSystem} {root : Path}

theorem scope_of_load {path : Path} {fragment : Fragment}
    (loaded : load files root path = .ok fragment) : fragment.scope = scope? root path := by
  unfold load at loaded
  split at loaded
  · cases loaded
  · exact scope_of_parse loaded

/-- The paths in a list whose last component is the name of a script. -/
def scriptsAmong (paths : List Path) : List Path :=
  paths.filter fun path => (path.fileName?.map isScriptName).getD false

theorem mem_scriptsAmong {paths : List Path} {path : Path} :
    path ∈ scriptsAmong paths ↔
      path ∈ paths ∧ ∃ name, path.fileName? = some name ∧ isScriptName name = true := by
  rw [scriptsAmong, List.mem_filter]
  cases path.fileName? <;> simp

/-- A search goes through the whole tree, or fails at a directory that cannot be looked up. -/
theorem discover_of_located {tree : Node} (located : files.node root = .ok tree) :
    (discover files root = .ok (scriptsAmong (tree.walk root)) ∧
      ∀ directory ∈ tree.directories root, FileSystem.pathFault? directory = none) ∨
    ((∃ error, discover files root = .error error) ∧
      ∃ directory ∈ tree.directories root, FileSystem.pathFault? directory ≠ none) := by
  simp only [discover, FileSystem.walk, located]
  cases refused : (tree.directories root).findSome? fun directory =>
      (FileSystem.pathFault? directory).map fun fault => (directory, fault) with
  | none =>
      refine .inl ⟨rfl, ?_⟩
      intro directory listed
      simpa using List.findSome?_eq_none_iff.mp refused directory listed
  | some failure =>
      rcases failure with ⟨path, fault⟩
      refine .inr ⟨⟨_, rfl⟩, ?_⟩
      rcases List.exists_of_findSome?_eq_some refused with ⟨directory, listed, fails⟩
      refine ⟨directory, listed, ?_⟩
      intro fine
      simp [fine] at fails

section Files

variable (root : Path) {entries : List (Name × Node)} {place : List Name} {contents : List UInt8}
  (named : (Node.directory entries).NamedBy IsTextName)
  (there : (Node.directory entries).at? place = some (.file contents))

include there

theorem exists_last_of_file : ∃ last, place.getLast? = some last := by
  cases place with
  | nil => cases there
  | cons name place => exact ⟨_, List.getLast?_eq_some_getLast (by simp)⟩

include named

theorem lacksTrait_descend_iff {last : Name} (isLast : place.getLast? = some last) :
    LacksTrait (root.descend place) ↔ IsTraitless last := by
  have valid : ∀ name ∈ place, Path.IsEntryName name :=
    fun name listed => (named.allowed_of_at? there name listed).1
  rw [LacksTrait, Path.fileName?_descend valid root isLast]
  simp

/-- A file is listed for its own name, wherever it stands. -/
theorem descend_mem_scriptsAmong_iff {last : Name} (isLast : place.getLast? = some last) :
    root.descend place ∈ scriptsAmong ((Node.directory entries).walk root) ↔
      isScriptName last = true := by
  have valid : ∀ name ∈ place, Path.IsEntryName name :=
    fun name listed => (named.allowed_of_at? there name listed).1
  have walked := (named.mem_walk_iff root (root.descend place)).mpr ⟨place, contents, there, rfl⟩
  rw [mem_scriptsAmong, Path.fileName?_descend valid root isLast]
  simp [walked]

theorem scope?_descend_eq_none_iff {last : Name} (isLast : place.getLast? = some last) :
    scope? root (root.descend place) = none ↔ traitName? last = none := by
  have isScoped := scope?_descend (named.allowed_of_at? there) root
  rw [isLast] at isScoped
  rw [← Option.not_isSome_iff_eq_none, isScoped]
  simp

end Files

variable {entries : List (Name × Node)}

theorem discovered_scriptsAmong_walk (named : (Node.directory entries).NamedBy IsTextName) :
    Discovered files root (.directory entries)
      (scriptsAmong ((Node.directory entries).walk root)) := by
  have areFiles : ∀ script ∈ scriptsAmong ((Node.directory entries).walk root),
      ∃ place contents, (Node.directory entries).at? place = some (.file contents) ∧
        script = root.descend place := by
    intro script listed
    exact (named.mem_walk_iff root script).mp (mem_scriptsAmong.mp listed).1
  refine ⟨areFiles, ?_, ?_, ?_⟩
  · intro place contents there
    rcases exists_last_of_file there with ⟨last, isLast⟩
    rw [descend_mem_scriptsAmong_iff root named there isLast, isScriptName_iff,
      lacksTrait_descend_iff root named there isLast, Option.isSome_iff_ne_none,
      Option.isSome_iff_ne_none, ne_eq, ne_eq, scope?_descend_eq_none_iff root named there isLast]
  · intro place contents there lacks
    rcases exists_last_of_file there with ⟨last, isLast⟩
    rw [lacksTrait_descend_iff root named there isLast] at lacks
    rw [scope?_descend_eq_none_iff root named there isLast]
    exact traitName?_of_isTraitless lacks
  · intro script listed fragment loaded
    rcases areFiles script listed with ⟨place, contents, there, rfl⟩
    rcases exists_last_of_file there with ⟨last, isLast⟩
    rw [descend_mem_scriptsAmong_iff root named there isLast, isScriptName_iff] at listed
    rw [scope_of_load loaded, scope?_descend_eq_none_iff root named there isLast,
      lacksTrait_descend_iff root named there isLast]
    constructor
    · intro nameless
      simpa [nameless] using listed
    · exact traitName?_of_isTraitless

/-- In a tree of readable names the files that a search lists are those with a scope and those that
lack a trait; the latter are the only ones that are loaded without a scope. -/
theorem discovered_of_named (located : files.node root = .ok (.directory entries))
    (named : (Node.directory entries).NamedBy IsTextName) :
    (∀ scripts, discover files root = .ok scripts →
      Discovered files root (.directory entries) scripts) ∧
    ((∃ scripts, discover files root = .ok scripts) ↔
      ∀ directory ∈ (Node.directory entries).directories root,
        FileSystem.pathFault? directory = none) := by
  rcases discover_of_located located with ⟨found, entered⟩ | ⟨⟨error, failed⟩, stopped⟩
  · rw [found]
    refine ⟨?_, fun _ => entered, fun _ => ⟨_, rfl⟩⟩
    intro scripts same
    cases same
    exact discovered_scriptsAmong_walk named
  · rw [failed]
    refine ⟨fun scripts found => (nomatch found), ?_, ?_⟩
    · rintro ⟨scripts, found⟩
      cases found
    · intro entered
      rcases stopped with ⟨directory, listed, fault⟩
      exact absurd (entered directory listed) fault

end Discovery

/-- A file of the given name that assigns an empty table. -/
def emptyScript (name : String) : Name × Node :=
  (Text.Utf8.encode name.toList,
    .file (Text.Utf8.encode "var implementors = \x7b\x7d".toList))

/-- A directory with a file of either name that lacks a trait, and with a script in a directory that
is itself named like a script. -/
def traitlessEntries : List (Name × Node) :=
  [emptyScript "trait..js",
    (Text.Utf8.encode "trait.a.js".toList, .directory [emptyScript "trait.B.js"]),
    emptyScript "trait.js"]

def traitlessRoot : Path :=
  .ofString "docs"

def traitlessFiles : FileSystem :=
  ⟨.directory [(traitlessRoot.bytes, .directory traitlessEntries)], []⟩

theorem node_traitlessFiles :
    traitlessFiles.node traitlessRoot = .ok (.directory traitlessEntries) := by
  with_unfolding_all rfl

theorem namedBy_traitlessEntries : (Node.directory traitlessEntries).NamedBy IsTextName := by
  refine .directory (by decide +kernel) (by decide +kernel) ?_
  intro entry listed
  simp only [traitlessEntries, List.mem_cons, List.not_mem_nil, or_false] at listed
  rcases listed with rfl | rfl | rfl
  · exact .file _
  · refine .directory (by decide +kernel) (by decide +kernel) ?_
    intro entry listed
    rw [List.mem_singleton.mp listed]
    exact .file _
  · exact .file _

theorem directories_traitlessEntries :
    (Node.directory traitlessEntries).directories traitlessRoot =
      [traitlessRoot, .ofString "docs/trait.a.js"] := by
  have sorted : Node.sortEntries traitlessEntries = traitlessEntries := by
    apply List.mergeSort_of_pairwise
    decide +kernel
  rw [Node.directories_directory, sorted]
  simp only [traitlessEntries, emptyScript, List.flatMap_cons, List.flatMap_nil,
    Node.directories_file, Node.directories_directory, Node.sortEntries,
    List.mergeSort_singleton]
  decide +kernel

theorem discovered_of_named_traitlessEntries :
    traitlessFiles.node traitlessRoot = .ok (.directory traitlessEntries) ∧
      (Node.directory traitlessEntries).NamedBy IsTextName ∧
      ∃ scripts, discover traitlessFiles traitlessRoot = .ok scripts ∧
        Discovered traitlessFiles traitlessRoot (.directory traitlessEntries) scripts := by
  rcases discovered_of_named node_traitlessFiles namedBy_traitlessEntries with ⟨related, entered⟩
  refine ⟨node_traitlessFiles, namedBy_traitlessEntries, ?_⟩
  rcases entered.mpr (by rw [directories_traitlessEntries]; decide +kernel) with ⟨scripts, found⟩
  exact ⟨scripts, found, related scripts found⟩

/-- A file can be found as a script and have no scope: its name begins and ends like that of a
script, but the beginning and the end share the dot. -/
theorem not_forall_mem_discover_iff_scoped :
    ¬ ∀ files root entries, FileSystem.node files root = .ok (.directory entries) →
      (Node.directory entries).NamedBy IsTextName →
      ∀ scripts, discover files root = .ok scripts →
        ∀ place contents, (Node.directory entries).at? place = some (.file contents) →
          (root.descend place ∈ scripts ↔ (scope? root (root.descend place)).isSome = true) := by
  intro always
  have there : (Node.directory traitlessEntries).at? [(emptyScript "trait.js").1] =
      some (emptyScript "trait.js").2 := by
    with_unfolding_all rfl
  rcases discover_of_located node_traitlessFiles with ⟨found, _⟩ | ⟨_, directory, listed, fault⟩
  · have agrees := always _ _ _ node_traitlessFiles namedBy_traitlessEntries _ found _ _ there
    have listed := (descend_mem_scriptsAmong_iff traitlessRoot namedBy_traitlessEntries there
      rfl).mpr (by decide +kernel)
    have unscoped := (scope?_descend_eq_none_iff traitlessRoot namedBy_traitlessEntries there
      rfl).mpr (by decide +kernel)
    rw [unscoped] at agrees
    exact absurd (agrees.mp listed) (by simp)
  · rw [directories_traitlessEntries] at listed
    revert directory
    decide +kernel

end TraitIndex.Script
