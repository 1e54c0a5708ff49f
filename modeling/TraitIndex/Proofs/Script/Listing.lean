import TraitIndex.Proofs.FileSystem.Place
import TraitIndex.Proofs.FileSystem.Relisted
import TraitIndex.Proofs.Script.Discovery
import TraitIndex.Proofs.Text.Decoding

/-!
# What is found at a root

A search finds the files with names of scripts at and below its root, wherever they stand, and no
directories.  It lists their paths in order, each once, and the same whichever way the file system
lists its directories.
-/

namespace TraitIndex.Script

/-- Holds of the places at which a file with the name of a script stands: one that is a text and
begins and ends as such names do. -/
def HoldsScript (files : FileSystem) (place : List Name) : Prop :=
  ∃ contents text, files.top.at? place = some (.file contents) ∧
    place.getLast? = some (Text.Utf8.encode text) ∧
    "trait.".toList <+: text ∧ ".js".toList <:+ text

/-- How the scripts that are found at a root relate to the tree at the place that it leads to. -/
structure Listing (files : FileSystem) (root : Path) (home : List Name) (scripts : List Path) :
    Prop where
  mem_iff : ∀ path, path ∈ scripts ↔
    ∃ place, HoldsScript files (home ++ place) ∧ path = root.descend place
  /-- Different files have different paths. -/
  distinct : ∀ place other, HoldsScript files (home ++ place) → HoldsScript files (home ++ other) →
    root.descend place = root.descend other → place = other
  nodup : scripts.Nodup
  sorted : scripts.Pairwise Path.Before
  noDirectory : ∀ place entries, files.top.at? (home ++ place) = some (.directory entries) →
    root.descend place ∉ scripts

section Listing

variable {files : FileSystem} {root : Path} {home place : List Name} {tree : Node}
  {contents : List UInt8}

/-- A file has the name under which it stands, also if it stands at the root itself. -/
theorem fileName?_descend_of_file (named : files.top.NamedBy Path.IsEntryName)
    (located : files.locate root = .ok home)
    (isFile : files.top.at? (home ++ place) = some (.file contents)) :
    (root.descend place).fileName? = (home ++ place).getLast? := by
  have valid := named.allowed_of_at? isFile
  cases place with
  | nil =>
      rw [List.append_nil] at isFile valid ⊢
      rcases FileSystem.getLast?_segments_of_file located isFile with ⟨name, last, isLast⟩
      rw [isLast]
      exact Path.fileName?_of_getLast?_segments (valid name (List.mem_of_getLast? isLast)) last
  | cons name place =>
      have validPlace : ∀ other ∈ name :: place, Path.IsEntryName other := fun other mem =>
        valid other (List.mem_append_right home mem)
      have last := List.getLast?_eq_some_getLast (List.cons_ne_nil name place)
      rw [List.getLast?_append, last]
      exact Path.fileName?_descend validPlace root last

theorem isScriptName_iff_encode {name : Name} :
    isScriptName name = true ↔
      ∃ text, name = Text.Utf8.encode text ∧ "trait.".toList <+: text ∧ ".js".toList <:+ text := by
  simp only [isScriptName_eq_true_iff, Text.Utf8.decode?_eq_some_iff, fileNameStart, fileNameEnd]

theorem mem_scriptsAmong_walk_iff (named : files.top.NamedBy Path.IsEntryName)
    (located : files.locate root = .ok home) (there : files.top.at? home = some tree)
    (path : Path) :
    path ∈ scriptsAmong (tree.walk root) ↔
      ∃ place, HoldsScript files (home ++ place) ∧ path = root.descend place := by
  have below : ∀ place, files.top.at? (home ++ place) = tree.at? place := by
    intro place
    rw [Node.at?_append, there, Option.bind_some]
  rw [mem_scriptsAmong, (named.of_at? there).mem_walk_iff]
  constructor
  · rintro ⟨⟨place, contents, isFile, rfl⟩, name, own, isScript⟩
    rw [← below] at isFile
    rw [fileName?_descend_of_file named located isFile] at own
    rcases isScriptName_iff_encode.mp isScript with ⟨text, rfl, begins, ends⟩
    exact ⟨place, ⟨contents, text, isFile, own, begins, ends⟩, rfl⟩
  · rintro ⟨place, ⟨contents, text, isFile, own, begins, ends⟩, rfl⟩
    refine ⟨⟨place, contents, by rw [← below, isFile], rfl⟩, _, ?_,
      isScriptName_iff_encode.mpr ⟨text, rfl, begins, ends⟩⟩
    rw [fileName?_descend_of_file named located isFile, own]

/-- Places below a root are told apart by their paths. -/
theorem eq_of_descend_eq {other : List Name} {found foundOther : Node}
    (named : files.top.NamedBy Path.IsEntryName)
    (there : files.top.at? (home ++ place) = some found)
    (thereOther : files.top.at? (home ++ other) = some foundOther)
    (same : root.descend place = root.descend other) : place = other := by
  apply Path.descend_injective ?_ ?_ same
  · intro name mem
    exact named.allowed_of_at? there name (List.mem_append_right home mem)
  · intro name mem
    exact named.allowed_of_at? thereOther name (List.mem_append_right home mem)

theorem listing_scriptsAmong_walk (named : files.top.NamedBy Path.IsEntryName)
    (located : files.locate root = .ok home) (there : files.top.at? home = some tree) :
    Listing files root home (scriptsAmong (tree.walk root)) := by
  have sorted : (scriptsAmong (tree.walk root)).Pairwise Path.Before :=
    ((named.of_at? there).pairwise_walk root).filter _
  refine ⟨mem_scriptsAmong_walk_iff named located there, ?_, ?_, sorted, ?_⟩
  · rintro place other ⟨_, _, isFile, _⟩ ⟨_, _, isFileOther, _⟩ same
    exact eq_of_descend_eq named isFile isFileOther same
  · apply sorted.imp
    rintro path other before rfl
    exact before.irrefl path
  · intro place entries isDirectory listed
    rcases (mem_scriptsAmong_walk_iff named located there _).mp listed with
      ⟨other, ⟨_, _, isFile, _⟩, same⟩
    cases eq_of_descend_eq named isDirectory isFile same
    rw [isDirectory] at isFile
    cases isFile

/-- At a root below which every directory can be entered, exactly the files with names of scripts
are found, in the order of their paths and each once; and however the file system lists its
directories, the same is found. -/
theorem listing_discover (named : files.top.NamedBy Path.IsEntryName)
    (located : files.locate root = .ok home) (there : files.top.at? home = some tree)
    (entered : ∀ directory ∈ tree.directories root, FileSystem.pathFault? directory = none) :
    ∃ scripts, discover files root = .ok scripts ∧ Listing files root home scripts ∧
      ∀ other, files.Relisted other → discover other root = .ok scripts := by
  have stands : files.node root = .ok tree := by
    simp only [FileSystem.node, located, there]
  have found : discover files root = .ok (scriptsAmong (tree.walk root)) := by
    rcases discover_of_located stands with ⟨found, _⟩ | ⟨_, directory, listed, fault⟩
    · exact found
    · exact absurd (entered directory listed) fault
  refine ⟨_, found, listing_scriptsAmong_walk named located there, ?_⟩
  intro other relisted
  rw [← found, discover, discover, relisted.walk_eq named]

end Listing

/-- Directories whose names extend one another, listed in the wrong order, one of them named like a
script, and a file whose name is no text. -/
def layeredEntries : List (Name × Node) :=
  [(Text.Utf8.encode "a-b".toList, .directory [emptyScript "trait.Z.js"]),
    (Text.Utf8.encode "trait.M.js".toList, .directory [emptyScript "struct.S.js"]),
    (Text.Utf8.encode "a".toList, .directory [emptyScript "trait.N.js", ([0xFF], .file [])])]

def layeredFiles (entries : List (Name × Node)) : FileSystem :=
  ⟨.directory [(Text.Utf8.encode "docs".toList, .directory entries)], []⟩

theorem namedBy_layeredEntries : (Node.directory layeredEntries).NamedBy Path.IsEntryName := by
  refine .directory (by decide +kernel) (by decide +kernel) ?_
  intro entry listed
  simp only [layeredEntries, List.mem_cons, List.not_mem_nil, or_false] at listed
  rcases listed with rfl | rfl | rfl
  all_goals exact .ofFiles (by decide +kernel) (by decide +kernel) (by simp [emptyScript])

theorem namedBy_layeredFiles : (layeredFiles layeredEntries).top.NamedBy Path.IsEntryName := by
  refine .directory (by decide +kernel) (by decide +kernel) ?_
  intro entry listed
  rw [List.mem_singleton.mp listed]
  exact namedBy_layeredEntries

theorem relisted_layeredFiles :
    (layeredFiles layeredEntries).Relisted (layeredFiles layeredEntries.reverse) := by
  refine ⟨.directory (.refl _) ?_, rfl⟩
  intro name child other listed listedOther
  cases List.mem_singleton.mp listed
  cases List.mem_singleton.mp listedOther
  exact namedBy_layeredEntries.relisted_of_perm layeredEntries.reverse_perm.symm

theorem listing_discover_layered :
    let files := layeredFiles layeredEntries
    let root : Path := .ofString "docs/."
    let home : List Name := [Text.Utf8.encode "docs".toList]
    files.top.NamedBy Path.IsEntryName ∧ files.locate root = .ok home ∧
      files.top.at? home = some (.directory layeredEntries) ∧
      (∀ directory ∈ (Node.directory layeredEntries).directories root,
        FileSystem.pathFault? directory = none) ∧
      ∃ scripts, discover files root = .ok scripts ∧ Listing files root home scripts ∧
        discover (layeredFiles layeredEntries.reverse) root = .ok scripts := by
  intro files root home
  have located : files.locate root = .ok home := by
    with_unfolding_all rfl
  have there : files.top.at? home = some (.directory layeredEntries) := by
    with_unfolding_all rfl
  have entered : ∀ directory ∈ (Node.directory layeredEntries).directories root,
      FileSystem.pathFault? directory = none := by
    intro directory listed
    simp only [layeredEntries, emptyScript, Node.directories_directory, Node.directories_file,
      Node.sortEntries, List.mem_cons, List.mem_flatMap, List.mem_mergeSort, List.not_mem_nil,
      or_false, exists_eq_or_imp, exists_eq_left] at listed
    rcases listed with rfl | rfl | rfl | rfl
    all_goals decide +kernel
  rcases listing_discover namedBy_layeredFiles located there entered with
    ⟨scripts, found, listing, relisted⟩
  exact ⟨namedBy_layeredFiles, located, there, entered, scripts, found, listing,
    relisted _ relisted_layeredFiles⟩

end TraitIndex.Script
