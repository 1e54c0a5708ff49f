import TraitIndex.Json.Writer
import TraitIndex.Proofs.Json.WrittenSequence

/-!
# How lists and objects are laid out

Both ways of writing put the items of a sequence between brackets, one after another with commas
between them; they differ in the blanks in front of each item and in front of the closing bracket.
`LaidOut` leaves these blanks open, so that a text of either kind is a written sequence for the same
reason.
-/

namespace TraitIndex.Json

variable {α β : Type}

/-- The texts of some items, each behind the gap, with commas between them. -/
def joined (gap : List Char) (write : α → List Char) : List α → List Char
  | [] => []
  | item :: items =>
      gap ++ (write item ++ items.flatMap fun item => ',' :: (gap ++ write item))

/-- Holds of a text with the items between the given brackets, and some blanks in front of each item
and of the closing bracket. -/
def LaidOut (opening close : Char) (write : α → List Char) (items : List α) (text : List Char) :
    Prop :=
  ∃ gap gapEnd, gap.all isBlank = true ∧ gapEnd.all isBlank = true ∧
    text = opening :: (joined gap write items ++ (gapEnd ++ [close]))

section Writers

/-- Whatever writes items with commas between them, and a gap in front of each, joins them. -/
theorem eq_joined {gap : List Char} {write : α → List Char} {written : List α → List Char}
    (empty : written [] = []) (single : ∀ item, written [item] = gap ++ write item)
    (several : ∀ item next items, written (item :: next :: items) =
      gap ++ (write item ++ ',' :: written (next :: items)))
    (items : List α) : written items = joined gap write items := by
  cases items with
  | nil => exact empty
  | cons item items =>
      induction items generalizing item with
      | nil => simp [single, joined]
      | cons next items ih => simp [several, ih, joined]

theorem writeElements_eq_joined (elements : List Value) :
    writeElements elements = joined [] writeCompact elements := by
  apply eq_joined <;> simp [writeElements]

theorem prettyElements_eq_joined (level : Nat) (elements : List Value) :
    prettyElements level elements = joined (newline level) (writePretty level) elements := by
  apply eq_joined <;> simp [prettyElements]

theorem writeMembers_eq_joined (members : List (String × Value)) :
    writeMembers members =
      joined [] (fun member => writeString member.1 ++ ':' :: writeCompact member.2) members := by
  apply eq_joined <;> simp [writeMembers]

theorem prettyMembers_eq_joined (level : Nat) (members : List (String × Value)) :
    prettyMembers level members =
      joined (newline level)
        (fun member => writeString member.1 ++ ':' :: ' ' :: writePretty level member.2)
        members := by
  apply eq_joined <;> simp [prettyMembers]

theorem all_isBlank_newline (level : Nat) : (newline level).all isBlank = true := by
  simp [newline, isBlank]

theorem laidOut_writeCompact_array (elements : List Value) :
    LaidOut '[' ']' writeCompact elements (writeCompact (.array elements)) := by
  refine ⟨[], [], rfl, rfl, ?_⟩
  rw [writeCompact, writeElements_eq_joined, List.nil_append]

theorem laidOut_writePretty_array (level : Nat) (elements : List Value) :
    LaidOut '[' ']' (writePretty (level + 1)) elements (writePretty level (.array elements)) := by
  cases elements with
  | nil => exact ⟨[], [], rfl, rfl, rfl⟩
  | cons element elements =>
      refine ⟨_, _, all_isBlank_newline (level + 1), all_isBlank_newline level, ?_⟩
      simp [writePretty, prettyElements_eq_joined]

theorem laidOut_writeCompact_object (members : List (String × Value)) :
    LaidOut '\x7b' '\x7d' (fun member => writeString member.1 ++ ':' :: writeCompact member.2)
      members (writeCompact (.object members)) := by
  refine ⟨[], [], rfl, rfl, ?_⟩
  rw [writeCompact, writeMembers_eq_joined, List.nil_append]

theorem laidOut_writePretty_object (level : Nat) (members : List (String × Value)) :
    LaidOut '\x7b' '\x7d'
      (fun member => writeString member.1 ++ ':' :: ' ' :: writePretty (level + 1) member.2)
      members (writePretty level (.object members)) := by
  cases members with
  | nil => exact ⟨[], [], rfl, rfl, rfl⟩
  | cons member members =>
      refine ⟨_, _, all_isBlank_newline (level + 1), all_isBlank_newline level, ?_⟩
      simp [writePretty, prettyMembers_eq_joined]

end Writers

section Sequences

variable {opening close : Char} {writes : α → List Char → Prop} {gap gapEnd text : List Char}
  {write : α → List Char} {items : List α}

theorem writesMore_joined (blank : gap.all isBlank = true) (blankEnd : gapEnd.all isBlank = true)
    (written : ∀ item ∈ items, writes item (write item)) :
    WritesMore close writes items
      ((items.flatMap fun item => ',' :: (gap ++ write item)) ++ (gapEnd ++ [close])) := by
  induction items with
  | nil => exact .close blankEnd
  | cons item items ih =>
      have others := ih fun other mem => written other (List.mem_cons_of_mem _ mem)
      have nothing : ([] : List Char).all isBlank = true := rfl
      have more := WritesMore.comma nothing blank (written item List.mem_cons_self) others
      simpa using more

theorem writesItems_joined (blank : gap.all isBlank = true) (blankEnd : gapEnd.all isBlank = true)
    (written : ∀ item ∈ items, writes item (write item)) :
    WritesItems close writes items (joined gap write items ++ (gapEnd ++ [close])) := by
  cases items with
  | nil => exact .close blankEnd
  | cons item items =>
      have others : WritesMore close writes items _ := writesMore_joined blank blankEnd
        fun other mem => written other (List.mem_cons_of_mem item mem)
      have whole := WritesItems.item blank (written item List.mem_cons_self) others
      simpa [joined] using whole

/-- A layout of items that stand for others is a layout of the others. -/
theorem LaidOut.of_map {change : β → α} {sources : List β}
    (laidOut : LaidOut opening close write (sources.map change) text) :
    LaidOut opening close (fun source => write (change source)) sources text := by
  rcases laidOut with ⟨gap, gapEnd, blank, blankEnd, rfl⟩
  refine ⟨gap, gapEnd, blank, blankEnd, ?_⟩
  cases sources with
  | nil => rfl
  | cons source sources => simp [joined, List.flatMap_map]

/-- What is laid out is a written sequence behind its opening bracket. -/
theorem LaidOut.exists_writesItems (laidOut : LaidOut opening close write items text)
    (written : ∀ item ∈ items, writes item (write item)) :
    ∃ inner, text = opening :: inner ∧ WritesItems close writes items inner := by
  rcases laidOut with ⟨gap, gapEnd, blank, blankEnd, rfl⟩
  exact ⟨_, rfl, writesItems_joined blank blankEnd written⟩

end Sequences

end TraitIndex.Json
