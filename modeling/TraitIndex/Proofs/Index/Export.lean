import TraitIndex.Index.Render
import TraitIndex.Proofs.Index.Rebuilt
import TraitIndex.Proofs.Json.Layout
import TraitIndex.Proofs.Script.RoundTrip

/-!
# Exported indexes are read back

The symbols of an index, written as a JSON object in either way of writing, are a table that a
script can assign.  Such a script is read as the fragment of all that the index holds, and an index
of the same policy that this fragment is applied to has the same table.
-/

namespace TraitIndex.Index

open Json Script

/-- The texts that are written for the symbols of an index: the compact one, and the indented one at
any level. -/
inductive Exported (index : Index) : List Char → Prop where
  | compact : Exported index (writeCompact index.symbolsJson)
  | pretty (level : Nat) : Exported index (writePretty level index.symbolsJson)

/-- What is printed of an index in front of its symbols. -/
def printedBefore (index : Index) : List Char :=
  let policy := newline 1 ++ writeString "policy" ++ ':' :: ' ' :: writeString index.policy.name
  let count := newline 1 ++ writeString "fragment_count" ++
    ':' :: ' ' :: (Number.natural index.fragmentCount).text.toList
  '\x7b' :: (policy ++ ',' :: (count ++ ',' :: (newline 1 ++ writeString "symbols" ++ [':', ' '])))

/-- A printed index holds the exported symbols, at the first level and behind everything else. -/
theorem toList_pretty_toJson (index : Index) :
    index.toJson.pretty.toList =
      index.printedBefore ++ (writePretty 1 index.symbolsJson ++ ['\n', '\x7d']) := by
  simp [toJson, Value.pretty, writePretty, prettyMembers, newline, printedBefore]

def entryJson (entry : Entry) : String × Value :=
  (entry.symbol, .array (entry.descriptors.map Descriptor.toJson))

theorem exists_items_of_laidOut {write : Value → List Char} {descriptors : List Descriptor}
    {text : List Char} (string : ∀ text, write (.string text) = writeString text)
    (laidOut : LaidOut '[' ']' write (descriptors.map Descriptor.toJson) text) :
    ∃ items, text = '[' :: items ∧ WritesItems ']' WritesDescriptor descriptors items := by
  apply laidOut.of_map.exists_writesItems
  intro descriptor _
  rw [Descriptor.toJson, string]
  exact .bare descriptor

/-- The entries of an index, laid out as members, are a table when their lists are laid out as
lists. -/
theorem writesTable_of_laidOut (write : Value → List Char) (gap : List Char)
    {writeMember : String × Value → List Char} {index : Index} {text : List Char}
    (blank : gap.all isBlank = true)
    (apart : ∀ member, writeMember member = writeString member.1 ++ ':' :: (gap ++ write member.2))
    (lists : ∀ descriptors : List Descriptor, ∃ items,
      write (.array (descriptors.map Descriptor.toJson)) = '[' :: items ∧
        WritesItems ']' WritesDescriptor descriptors items)
    (laidOut : LaidOut '\x7b' '\x7d' writeMember (index.entries.map entryJson) text) :
    WritesTable index.entries text := by
  have written : ∃ inner, text = '\x7b' :: inner ∧
      WritesItems '\x7d' WritesEntry index.entries inner := by
    apply laidOut.of_map.exists_writesItems
    intro entry _
    rcases lists entry.descriptors with ⟨items, opens, written⟩
    have nothing : ([] : List Char).all isBlank = true := rfl
    rw [apart, entryJson, opens]
    exact .list nothing blank written
  rcases written with ⟨inner, rfl, written⟩
  exact .object written

theorem symbolsJson_eq (index : Index) :
    index.symbolsJson = .object (index.entries.map entryJson) := by
  simp [symbolsJson, entries, entryJson, Function.comp_def]

theorem Exported.writesTable {index : Index} {text : List Char} (exported : index.Exported text) :
    WritesTable index.entries text := by
  cases exported with
  | compact =>
      rw [symbolsJson_eq]
      refine writesTable_of_laidOut writeCompact [] rfl ?_ ?_ (laidOut_writeCompact_object _)
      · intro member
        rfl
      · intro descriptors
        refine exists_items_of_laidOut ?_ (laidOut_writeCompact_array _)
        intro text
        simp [writeCompact]
  | pretty level =>
      rw [symbolsJson_eq]
      refine writesTable_of_laidOut (writePretty (level + 1)) [' '] rfl ?_ ?_
        (laidOut_writePretty_object level _)
      · intro member
        rfl
      · intro descriptors
        refine exists_items_of_laidOut ?_ (laidOut_writePretty_array _ _)
        intro text
        simp [writePretty]

/-- The declaration that makes a script of an exported index. -/
def exportDeclaration : List Char :=
  "var implementors = ".toList

theorem declares_exportDeclaration : Declares exportDeclaration :=
  @Declares.intro ['v', 'a', 'r'] [' '] [' '] [' '] (by decide) (by decide) (by decide) (by decide)
    (by decide)

theorem literal?_exported {index : Index} {exported : List Char}
    (written : Exported index exported) (after : List Char) :
    literal? (exportDeclaration ++ (exported ++ after)) = some (exported ++ after) := by
  have unblank : Unblank (exported ++ after) := by
    cases written.writesTable with
    | object =>
        intro first head
        cases head
        decide
  have atHead : assignedAtHead? (exportDeclaration ++ (exported ++ after)) =
      some (exported ++ after) :=
    assignedAtHead?_eq_some_iff.mpr ⟨_, declares_exportDeclaration, rfl, unblank⟩
  -- nothing stands in front of the declaration, so no earlier one can
  refine @literal?_of_first [] _ _ atHead ?_
  intro late some isSuffix
  exact absurd (List.suffix_nil.mp isSuffix) some

/-- The symbols of an index into which only well-formed fragments were merged are read back from
what is exported of it, whatever follows.  They make up an index with the same table. -/
theorem parse_exported {policy : MergePolicy} {fragments : List Fragment}
    (wellFormed : ∀ fragment ∈ fragments, fragment.WellFormed) {exported : List Char}
    (written : Exported ((empty policy).applyAll fragments) exported) (scope : Option String)
    (after : List Char) :
    let index := (empty policy).applyAll fragments
    let fragment : Fragment := ⟨scope, index.entries⟩
    parse scope (String.ofList (exportDeclaration ++ (exported ++ after))) = .ok fragment ∧
      (empty policy).apply fragment = { index with fragmentCount := 1 } := by
  intro index fragment
  have merged : Merged policy (fragments.flatMap Fragment.entries) index.table :=
    merged_applyAll_empty policy fragments
  have visible : ∀ entry ∈ fragments.flatMap Fragment.entries, entry.Visible := by
    intro entry mem
    rcases List.mem_flatMap.mp mem with ⟨source, listed, declared⟩
    exact (Fragment.wellFormed_iff.mp (wellFormed source listed)).1 entry declared
  have assigned : literal? (String.ofList (exportDeclaration ++ (exported ++ after))).toList =
      some (exported ++ after) := by
    rw [String.toList_ofList]
    exact literal?_exported written after
  constructor
  · exact parse_of_assigned assigned written.writesTable (merged.wellFormed visible scope)
  · exact merged.apply_entries (policy_applyAll _ _) scope

/-- Two fragments that share a symbol and a descriptor, with characters that are escaped. -/
def exportedFragments : List Fragment :=
  [⟨some "a", [⟨"x\"", [⟨"tab\t"⟩, ⟨"é\x01\\"⟩]⟩, ⟨"y", []⟩]⟩,
    ⟨none, [⟨"x\"", [⟨"é\x01\\"⟩, ⟨"var implementors = \x7b\x7d"⟩]⟩]⟩]

theorem parse_exportedFragments :
    let index := (empty .union).applyAll exportedFragments
    let exported := writePretty 1 index.symbolsJson
    let fragment : Fragment := ⟨none, [⟨"x\"", [⟨"tab\t"⟩, ⟨"é\x01\\"⟩,
      ⟨"var implementors = \x7b\x7d"⟩]⟩, ⟨"y", []⟩]⟩
    (∀ fragment ∈ exportedFragments, fragment.WellFormed) ∧ Exported index exported ∧
      parse none (String.ofList (exportDeclaration ++ (exported ++ ['\x7d', ';']))) = .ok fragment ∧
      (empty .union).apply fragment = { index with fragmentCount := 1 } := by
  have wellFormed : ∀ fragment ∈ exportedFragments, fragment.WellFormed := by decide +kernel
  exact ⟨wellFormed, .pretty 1, parse_exported wellFormed (.pretty 1) none ['\x7d', ';']⟩

end TraitIndex.Index
