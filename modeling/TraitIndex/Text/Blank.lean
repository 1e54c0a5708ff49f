/-!
# Blank characters

A character is blank when it carries the Unicode property `White_Space`.  A text is blank when all
its characters are, and trimming removes the blanks at both of its ends: a text is blank exactly
when nothing is left of it.
-/

namespace TraitIndex.Text

/-- The code points with the property `White_Space`, as increasing closed ranges. -/
def blankRanges : List (Nat × Nat) :=
  [(0x09, 0x0D), (0x20, 0x20), (0x85, 0x85), (0xA0, 0xA0), (0x1680, 0x1680), (0x2000, 0x200A),
    (0x2028, 0x2029), (0x202F, 0x202F), (0x205F, 0x205F), (0x3000, 0x3000)]

def isBlank (character : Char) : Bool :=
  blankRanges.any fun range => range.1 ≤ character.toNat && character.toNat ≤ range.2

/-- Drops the blanks at both ends. -/
def trimChars (characters : List Char) : List Char :=
  ((characters.dropWhile isBlank).reverse.dropWhile isBlank).reverse

def trim (text : String) : String :=
  String.ofList (trimChars text.toList)

/-- Holds of the texts without a visible character, the empty text among them. -/
def allBlank (text : String) : Bool :=
  text.toList.all isBlank

theorem dropWhile_eq_nil_iff {α : Type} (drop : α → Bool) (items : List α) :
    items.dropWhile drop = [] ↔ items.all drop = true := by
  induction items with
  | nil => simp
  | cons item items ih =>
      by_cases dropped : drop item
      · simp [dropped, ih]
      · simp [dropped]

theorem trimChars_eq_nil_iff (characters : List Char) :
    trimChars characters = [] ↔ characters.all isBlank = true := by
  have reversed := dropWhile_eq_nil_iff isBlank (characters.dropWhile isBlank).reverse
  rw [trimChars, List.reverse_eq_nil_iff, reversed, List.all_reverse,
    ← dropWhile_eq_nil_iff isBlank characters]
  constructor
  · intro blankRest
    cases rest : characters.dropWhile isBlank with
    | nil => rfl
    | cons first others =>
        have visible : isBlank first = false := by
          have head := List.head?_dropWhile_not isBlank characters
          simpa [rest] using head
        simp [rest, visible] at blankRest
  · intro nothingLeft
    simp [nothingLeft]

theorem trim_eq_empty_iff (text : String) : trim text = "" ↔ allBlank text = true := by
  rw [allBlank, ← trimChars_eq_nil_iff, trim]
  constructor
  · intro empty
    have chars := congrArg String.toList empty
    simpa using chars
  · intro empty
    rw [empty]

end TraitIndex.Text
