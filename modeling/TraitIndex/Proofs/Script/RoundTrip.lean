import Mathlib.Data.List.Infix
import TraitIndex.Proofs.Json.WrittenValue
import TraitIndex.Proofs.Script.Declaration
import TraitIndex.Proofs.Script.Outcome

/-!
# Written scripts are read back

A table can be written in many ways: there may be blanks between any two tokens, and each descriptor
may be a string or the first element of a list whose other elements are of no account.  All of them
are read back as the entries that were written, because each part is legible to the reader of that
part whatever follows it.
-/

namespace TraitIndex.Script

open Json

/-- The other elements of a listed descriptor are only asked to be values at their depth. -/
def ReadsAs (element : Value) (text : List Char) : Prop :=
  (value (maxDepth - 3)).run text = .ok (element, [])

inductive WritesDescriptor : Descriptor → List Char → Prop where
  | bare (descriptor : Descriptor) : WritesDescriptor descriptor (writeString descriptor.text)
  | listed {descriptor : Descriptor} {elements : List Value} {gap more : List Char}
      (blank : gap.all isBlank = true) (further : WritesMore ']' ReadsAs elements more) :
      WritesDescriptor descriptor ('[' :: (gap ++ (writeString descriptor.text ++ more)))

inductive WritesEntry : Entry → List Char → Prop where
  | list {symbol : String} {descriptors : List Descriptor} {gap gapAfter items : List Char}
      (blank : gap.all isBlank = true) (blankAfter : gapAfter.all isBlank = true)
      (written : WritesItems ']' WritesDescriptor descriptors items) :
      WritesEntry ⟨symbol, descriptors⟩
        (writeString symbol ++ (gap ++ ':' :: (gapAfter ++ '[' :: items)))

inductive WritesTable : List Entry → List Char → Prop where
  | object {entries : List Entry} {members : List Char}
      (written : WritesItems '\x7d' WritesEntry entries members) :
      WritesTable entries ('\x7b' :: members)

theorem legible_of_readsAs {element : Value} {text : List Char} (reads : ReadsAs element text) :
    Legible listBracket (value (maxDepth - 3)) element text := by
  apply legible_value
  intro suffix ends
  exact delimited_value _ reads suffix fun _ => ends

theorem exists_legible_descriptor {descriptor : Descriptor} {text : List Char}
    (written : WritesDescriptor descriptor text) :
    ∃ item, Marks item descriptor.text ∧
      Legible listBracket (value (maxDepth - 2)) item text := by
  cases written with
  | bare => exact ⟨_, .text _, legible_string _ _⟩
  | @listed elements gap more blank further =>
      refine ⟨.array (.string descriptor.text :: elements), .first _ _, ?_⟩
      apply legible_value
      intro suffix _
      have others := further.mono fun _ _ reads => legible_of_readsAs reads
      have inside := WritesItems.item blank (legible_string _ descriptor.text) others
      exact runValue_list (readItems_of_legible separates_listBracket inside suffix)

theorem exists_legible_entry {entry : Entry} {text : List Char}
    (written : WritesEntry entry text) :
    ∃ found, Shapes found entry ∧
      Legible objectBracket (member (value (maxDepth - 1))) found text := by
  cases written with
  | @list symbol descriptors gap gapAfter items blank blankAfter written =>
      have legible : ∀ descriptor text, WritesDescriptor descriptor text →
          ∃ item, Marks item descriptor.text ∧
            Legible listBracket (value (maxDepth - 2)) item text :=
        fun _ _ => exists_legible_descriptor
      rcases readItems_of_writes separates_listBracket legible written with ⟨values, marks, read⟩
      refine ⟨(symbol, .array values), .list marks, ?_⟩
      apply legible_member blank
      intro suffix _
      change runValue (some (value (maxDepth - 2))) _ = _
      rw [List.append_assoc, runValue_gap blankAfter]
      exact runValue_list (read suffix)

theorem exists_readObject_of_writes {entries : List Entry} {table : List Char}
    (written : WritesTable entries table) (suffix : List Char) :
    ∃ members, List.Forall₂ Shapes members entries ∧
      readObject expectedTable (table ++ suffix) = .ok (members, suffix) := by
  cases written with
  | @object inner written =>
      have legible : ∀ entry text, WritesEntry entry text →
          ∃ found, Shapes found entry ∧
            Legible objectBracket (member (value (maxDepth - 1))) found text :=
        fun _ _ => exists_legible_entry
      rcases readItems_of_writes separates_objectBracket legible written with
        ⟨members, shapes, read⟩
      refine ⟨members, shapes, ?_⟩
      rw [List.cons_append, readObject, skipBlanks_cons (by decide)]
      exact read suffix

/-- A script that assigns a written table is read as its entries, whatever follows the table. -/
theorem parse_of_assigned {scope : Option String} {script : String} {entries : List Entry}
    {table after : List Char} (assigned : literal? script.toList = some (table ++ after))
    (written : WritesTable entries table) (wellFormed : (Fragment.mk scope entries).WellFormed) :
    parse scope script = .ok ⟨scope, entries⟩ := by
  have left : skipBlanks (table ++ after) ≠ [] := by
    cases written with
    | object =>
        rw [List.cons_append, skipBlanks_cons (by decide)]
        exact List.cons_ne_nil _ _
  rcases exists_readObject_of_writes written after with ⟨members, shapes, read⟩
  rw [parse_of_literal assigned left, read]
  exact fragmentOf_eq_iff.mpr (.fragment shapes wellFormed)

/-- However the entries of a well-formed fragment are written, and whatever stands around the
declaration that assigns them, they are what the script is read as. -/
theorem parse_of_writes {scope : Option String} {entries : List Entry}
    {before declaration table after : List Char}
    (wellFormed : (Fragment.mk scope entries).WellFormed) (declares : Declares declaration)
    (written : WritesTable entries table)
    (first : ∀ late, late ≠ [] → late <:+ before →
      ¬ DeclaresAtHead (late ++ (declaration ++ (table ++ after)))) :
    parse scope (String.ofList (before ++ (declaration ++ (table ++ after)))) =
      .ok ⟨scope, entries⟩ := by
  have opens : ∃ inner, table ++ after = '\x7b' :: inner := by
    cases written with
    | object => exact ⟨_, List.cons_append⟩
  rcases opens with ⟨inner, opens⟩
  have unblank : Unblank (table ++ after) := by
    rw [opens]
    intro character head
    cases head
    decide
  have assigned : literal? (String.ofList (before ++ (declaration ++ (table ++ after)))).toList =
      some (table ++ after) := by
    rw [String.toList_ofList]
    apply literal?_of_first _ first
    exact assignedAtHead?_eq_some_iff.mpr ⟨declaration, declares, rfl, unblank⟩
  have left : skipBlanks (table ++ after) ≠ [] := by
    rw [opens, skipBlanks_cons (by decide)]
    simp
  rcases exists_readObject_of_writes written after with ⟨members, shapes, read⟩
  rw [parse_of_literal assigned left, read]
  exact fragmentOf_eq_iff.mpr (.fragment shapes wellFormed)

/-- One descriptor looks like a declaration and the other one needs escapes. -/
def quotingEntries : List Entry :=
  [⟨"a", [⟨"var implementors = []"⟩, ⟨"\t\"é\x01\\"⟩]⟩, ⟨"b", []⟩]

def quotingTable : List Char :=
  ("\x7b \"a\": [\n\"var implementors = []\"," ++
    "[\"\\t\\\"é\\u0001\\\\\", [12,\x7b\x7d]] ],\"b\":[]\x7d").toList

def quotingDeclaration : List Char :=
  "const\t implementors= ".toList

def quotingBefore : List Char :=
  "implementors=1; let implementor = 2; var ".toList

def quotingAfter : List Char :=
  "; var implementors = 3".toList

theorem writesTable_quotingTable : WritesTable quotingEntries quotingTable := by
  have nothing : ([] : List Char).all isBlank = true := by decide
  have space : [' '].all isBlank = true := by decide
  have line : ['\n'].all isBlank = true := by decide
  have reads : ReadsAs (.array [.number (.natural 12), .object []])
      ['[', '1', '2', ',', '\x7b', '\x7d', ']'] := by
    with_unfolding_all rfl
  have further : WritesMore ']' ReadsAs [.array [.number (.natural 12), .object []]] _ :=
    .comma nothing space reads (.close nothing)
  have listed : WritesDescriptor ⟨"\t\"é\x01\\"⟩ _ := .listed nothing further
  have items : WritesItems ']' WritesDescriptor _ _ :=
    .item line (.bare ⟨"var implementors = []"⟩) (.comma nothing nothing listed (.close space))
  have second : WritesEntry ⟨"b", []⟩ _ := .list nothing nothing (.close nothing)
  have members : WritesItems '\x7d' WritesEntry quotingEntries _ :=
    .item space (.list nothing space items) (.comma nothing nothing second (.close nothing))
  refine Eq.mp (congrArg (WritesTable quotingEntries) ?_) (.object members)
  decide +kernel

theorem parse_quotingTable :
    (Fragment.mk (some "a::b") quotingEntries).WellFormed ∧ Declares quotingDeclaration ∧
    WritesTable quotingEntries quotingTable ∧
    (∀ late, late ≠ [] → late <:+ quotingBefore →
      ¬ DeclaresAtHead (late ++ (quotingDeclaration ++ (quotingTable ++ quotingAfter)))) ∧
    parse (some "a::b") (String.ofList
      (quotingBefore ++ (quotingDeclaration ++ (quotingTable ++ quotingAfter)))) =
        .ok ⟨some "a::b", quotingEntries⟩ := by
  have wellFormed : (Fragment.mk (some "a::b") quotingEntries).WellFormed := by decide +kernel
  have declares : Declares quotingDeclaration :=
    @Declares.intro ['c', 'o', 'n', 's', 't'] ['\t', ' '] [] [' '] (by decide) (by decide)
      (by decide) (by decide) (by decide)
  have first : ∀ late, late ≠ [] → late <:+ quotingBefore →
      ¬ DeclaresAtHead (late ++ (quotingDeclaration ++ (quotingTable ++ quotingAfter))) := by
    intro late some isSuffix
    rw [← assignedAtHead?_eq_none_iff]
    have all : ∀ late ∈ quotingBefore.tails, late ≠ [] → (assignedAtHead?
        (late ++ (quotingDeclaration ++ (quotingTable ++ quotingAfter)))) = none := by
      decide +kernel
    exact all late ((List.mem_tails _ _).mpr isSuffix) some
  exact ⟨wellFormed, declares, writesTable_quotingTable, first,
    parse_of_writes wellFormed declares writesTable_quotingTable first⟩

end TraitIndex.Script
