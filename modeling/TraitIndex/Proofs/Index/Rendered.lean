import TraitIndex.Index.Render
import TraitIndex.Proofs.Lookup

/-!
# Printed indexes can be read back

The printed text of an index is read back line by line: a line that is not indented names a symbol,
and the indented ones behind it are its descriptors, whatever they look like.  This gives the table
of the index, if no text in it has a line feed and no symbol is itself indented.  So two such
indexes that are printed alike have the same table.
-/

namespace TraitIndex.Index

section Reading

def isIndented (line : List Char) : Bool :=
  [' ', ' '].isPrefixOf line

/-- Reads lines as the rows of a table; each line that is not indented begins a row. -/
def readRows : List (List Char) → List (String × List Descriptor)
  | [] => []
  | line :: lines =>
      (String.ofList line,
          (lines.takeWhile isIndented).map fun indented => ⟨String.ofList (indented.drop 2)⟩) ::
        readRows (lines.dropWhile isIndented)
termination_by lines => lines.length
decreasing_by
  exact Nat.lt_succ_of_le (List.dropWhile_sublist isIndented).length_le

/-- The table that a text is read as.  Every line ends with a line feed, so nothing stands behind
the last one. -/
def readTable (text : String) : List (String × List Descriptor) :=
  readRows (text.toList.splitOn '\n').dropLast

def descriptorLine (descriptor : Descriptor) : List Char :=
  ' ' :: ' ' :: descriptor.text.toList

/-- The lines of a table: for each row that of its symbol and those of its descriptors. -/
def tableLines (table : List (String × List Descriptor)) : List (List Char) :=
  table.flatMap fun row => row.1.toList :: row.2.map descriptorLine

variable {table : List (String × List Descriptor)}

theorem tableLines_cons (symbol : String) (descriptors : List Descriptor) :
    tableLines ((symbol, descriptors) :: table) =
      symbol.toList :: (descriptors.map descriptorLine ++ tableLines table) := rfl

/-- The indented lines behind a line belong to it, up to the next line that is not indented. -/
theorem readRows_cons (line : List Char) (descriptors : List Descriptor) {rest : List (List Char)}
    (ends : ∀ next ∈ rest.head?, isIndented next = false) :
    readRows (line :: (descriptors.map descriptorLine ++ rest)) =
      (String.ofList line, descriptors) :: readRows rest := by
  have indented : ∀ next ∈ descriptors.map descriptorLine, isIndented next = true := by
    simp [descriptorLine, isIndented]
  have untouched : rest.takeWhile isIndented = [] ∧ rest.dropWhile isIndented = rest := by
    cases rest with
    | nil => exact ⟨rfl, rfl⟩
    | cons next rest => simp [ends next rfl]
  rw [readRows, List.takeWhile_append_of_pos indented, List.dropWhile_append_of_pos indented,
    untouched.1, untouched.2, List.append_nil, List.map_map]
  simp [Function.comp_def, descriptorLine]

/-- What is printed for a table is read back as the table. -/
theorem readRows_tableLines (unindented : ∀ row ∈ table, isIndented row.1.toList = false) :
    readRows (tableLines table) = table := by
  induction table with
  | nil => simp [tableLines, readRows]
  | cons row table ih =>
      rcases row with ⟨symbol, descriptors⟩
      rw [List.forall_mem_cons] at unindented
      have ends : ∀ next ∈ (tableLines table).head?, isIndented next = false := by
        cases table with
        | nil => simp [tableLines]
        | cons row table =>
            intro next head
            cases head
            exact unindented.2 row (by simp)
      rw [tableLines_cons, readRows_cons _ _ ends, ih unindented.2, String.ofList_toList]

theorem length_tableLines (table : List (String × List Descriptor)) :
    (tableLines table).length = table.length + (table.flatMap Prod.snd).length := by
  induction table with
  | nil => rfl
  | cons row table ih =>
      rcases row with ⟨symbol, descriptors⟩
      simp only [tableLines_cons, List.length_cons, List.length_append, List.length_map, ih,
        List.flatMap_cons]
      omega

end Reading

section Printing

variable {index : Index}

/-- Each symbol that is listed has its own row, so the look-up by its name finds that row. -/
theorem get?_of_mem_table {row : String × List Descriptor} (listed : row ∈ index.table) :
    index.get? row.1 = some row.2 :=
  lookup_of_mem index.nodup_symbols listed

theorem map_toList_lines (index : Index) :
    index.lines.map String.toList = tableLines index.table := by
  rw [lines, symbols, List.flatMap_map, List.map_flatMap, tableLines]
  apply List.flatMap_congr
  intro row listed
  simp [symbolLines, get?_of_mem_table listed, descriptorLine]

theorem intercalate_concat_nil (lines : List (List Char)) :
    ['\n'].intercalate (lines ++ [[]]) = lines.flatMap fun line => line ++ ['\n'] := by
  induction lines with
  | nil => rfl
  | cons line lines ih =>
      rw [List.cons_append, List.intercalate_cons_of_ne_nil (by simp), ih, List.flatMap_cons]

theorem toList_render (index : Index) :
    index.render.toList = ['\n'].intercalate (tableLines index.table ++ [[]]) := by
  rw [intercalate_concat_nil, ← map_toList_lines, render, String.toList_join]
  simp [List.flatMap_map]

/-- Holds of the indexes of which every text takes one line, and no symbol looks like the line of a
descriptor. -/
structure Unambiguous (index : Index) : Prop where
  symbols : ∀ row ∈ index.table, '\n' ∉ row.1.toList ∧ ¬ [' ', ' '] <+: row.1.toList
  descriptors : ∀ row ∈ index.table, ∀ descriptor ∈ row.2, '\n' ∉ descriptor.text.toList

theorem Unambiguous.not_mem_of_mem_tableLines (unambiguous : index.Unambiguous) {line : List Char}
    (listed : line ∈ tableLines index.table) : '\n' ∉ line := by
  rcases List.mem_flatMap.mp listed with ⟨row, isRow, own⟩
  rcases List.mem_cons.mp own with rfl | own
  · exact (unambiguous.symbols row isRow).1
  · rcases List.mem_map.mp own with ⟨descriptor, isDescriptor, rfl⟩
    simpa [descriptorLine] using unambiguous.descriptors row isRow descriptor isDescriptor

/-- The text is cut at its line feeds into the lines of the table, with nothing behind the last. -/
theorem Unambiguous.splitOn_render (unambiguous : index.Unambiguous) :
    index.render.toList.splitOn '\n' = tableLines index.table ++ [[]] := by
  rw [toList_render]
  apply List.splitOn_intercalate _ _ (by simp)
  intro line listed
  rcases List.mem_append.mp listed with own | last
  · exact unambiguous.not_mem_of_mem_tableLines own
  · rw [List.mem_singleton.mp last]
    exact List.not_mem_nil

theorem Unambiguous.readTable_render (unambiguous : index.Unambiguous) :
    readTable index.render = index.table := by
  rw [readTable, unambiguous.splitOn_render, List.dropLast_concat]
  apply readRows_tableLines
  intro row listed
  have unindented := (unambiguous.symbols row listed).2
  rwa [← List.isPrefixOf_iff_prefix, Bool.not_eq_true] at unindented

/-- What the printed text of an index tells of it. -/
structure ToldByText (index : Index) : Prop where
  found : ∀ symbol ∈ index.symbols, ∃ descriptors, index.get? symbol = some descriptors
  lines : ∃ lines, index.render.toList.splitOn '\n' = lines ++ [[]] ∧
    lines.length = index.symbols.length + (index.table.flatMap Prod.snd).length
  readBack : readTable index.render = index.table
  alone : ∀ other : Index, other.Unambiguous → (other.render = index.render ↔
    other.symbols = index.symbols ∧ ∀ symbol, other.get? symbol = index.get? symbol)

/-- The text of an unambiguous index has one line for each symbol and one for each descriptor, from
which the table is read back.  So another unambiguous index has the same text if and only if it
lists the same symbols in the same order, with the same descriptors. -/
theorem toldByText_of_unambiguous (unambiguous : index.Unambiguous) : index.ToldByText where
  found := by
    intro symbol listed
    rcases List.mem_map.mp listed with ⟨row, isRow, rfl⟩
    exact ⟨row.2, get?_of_mem_table isRow⟩
  lines := by
    refine ⟨tableLines index.table, unambiguous.splitOn_render, ?_⟩
    rw [length_tableLines, symbols, List.length_map]
  readBack := unambiguous.readTable_render
  alone := by
    intro other otherUnambiguous
    constructor
    · intro alike
      have sameTable : other.table = index.table := by
        rw [← otherUnambiguous.readTable_render, alike, unambiguous.readTable_render]
      simp [symbols, get?, sameTable]
    · rintro ⟨sameSymbols, sameLists⟩
      have sameLines : other.symbolLines = index.symbolLines := by
        funext symbol
        rw [symbolLines, symbolLines, sameLists]
      rw [render, render, Index.lines, Index.lines, sameSymbols, sameLines]

/-- Descriptors may look like symbols, be indented themselves or be empty. -/
theorem toldByText_of_unambiguous_lookalikes :
    let fragment : Fragment := ⟨none, [⟨"a", [⟨"b"⟩, ⟨"  c"⟩]⟩, ⟨" d", []⟩, ⟨"b", [⟨""⟩]⟩]⟩
    let index := (empty .append).apply fragment
    index.Unambiguous ∧ index.render = "a\n  b\n    c\n d\nb\n  \n" ∧
      readTable "a\n  b\n    c\n d\nb\n  \n" =
        [("a", [⟨"b"⟩, ⟨"  c"⟩]), (" d", []), ("b", [⟨""⟩])] := by
  intro fragment index
  have unambiguous : index.Unambiguous := ⟨by decide +kernel, by decide +kernel⟩
  have printed : index.render = "a\n  b\n    c\n d\nb\n  \n" := by decide +kernel
  refine ⟨unambiguous, printed, ?_⟩
  rw [← printed, (toldByText_of_unambiguous unambiguous).readBack]
  rfl

end Printing

end TraitIndex.Index
