import TraitIndex.Json.Reading

/-!
# Reading between brackets

The elements of a list and the members of an object are read alike: items with commas between them,
up to the closing bracket, with blanks allowed around each.
-/

namespace TraitIndex.Json

/-- The closing bracket of a sequence, and the failures when the text ends before it or when an item
is followed by something else. -/
structure Bracket where
  close : Char
  atEnd : Reason
  afterItem : Reason

def listBracket : Bracket :=
  ⟨']', .endOfList, .expectedListCommaOrEnd⟩

def objectBracket : Bracket :=
  ⟨'\x7d', .endOfObject, .expectedObjectCommaOrEnd⟩

/-- Reads the items that follow an item. -/
def readMore {α : Type} (bracket : Bracket) (item : Reader α) (text : List Char) :
    Reading (List α) :=
  match skipped : skipBlanks text with
  | [] => .error ⟨bracket.atEnd, [], 0⟩
  | first :: rest =>
      if first = bracket.close then .ok ([], rest)
      else if first = ',' then
        match skipBlanks rest with
        | [] => .error ⟨.endOfValue, [], 0⟩
        | next :: others =>
            if next = bracket.close then .error ⟨.trailingComma, next :: others, 1⟩
            else
              match found : item.run (skipBlanks rest) with
              | .error failure => .error failure
              | .ok (value, after) =>
                  have : after.length < text.length := by
                    have shorter := item.shortens (skipBlanks rest) value after found
                    have skippedLe := length_skipBlanks_le rest
                    have wholeLe := length_skipBlanks_le text
                    rw [skipped, List.length_cons] at wholeLe
                    omega
                  Reading.map (value :: ·) (readMore bracket item after)
      else .error ⟨bracket.afterItem, first :: rest, 1⟩
termination_by text.length

/-- Reads the items of a sequence whose opening bracket has been read. -/
def readItems {α : Type} (bracket : Bracket) (item : Reader α) (text : List Char) :
    Reading (List α) :=
  match skipBlanks text with
  | [] => .error ⟨bracket.atEnd, [], 0⟩
  | first :: rest =>
      if first = bracket.close then .ok ([], rest)
      else
        match item.run (first :: rest) with
        | .error failure => .error failure
        | .ok (value, after) => Reading.map (value :: ·) (readMore bracket item after)

theorem shortens_readMore {α : Type} (bracket : Bracket) (item : Reader α) (text : List Char) :
    Reading.Shortens text (readMore bracket item text) := by
  fun_induction readMore bracket item text with
  | case1 => exact Reading.shortens_error
  | case2 text rest skipped =>
      apply Reading.shortens_ok
      have le := length_skipBlanks_le text
      rw [skipped, List.length_cons] at le
      omega
  | case3 => exact Reading.shortens_error
  | case4 => exact Reading.shortens_error
  | case5 => exact Reading.shortens_error
  | case6 =>
      rename_i shorter ih
      exact (ih.map _).mono (Nat.le_of_lt shorter)
  | case7 => exact Reading.shortens_error

theorem shortens_readItems {α : Type} (bracket : Bracket) (item : Reader α) (text : List Char) :
    Reading.Shortens text (readItems bracket item text) := by
  have le := length_skipBlanks_le text
  unfold readItems
  split
  · exact Reading.shortens_error
  · rename_i first rest skipped
    rw [skipped, List.length_cons] at le
    split
    · exact Reading.shortens_ok (by omega)
    · cases found : item.run (first :: rest) with
      | error => exact Reading.shortens_error
      | ok read =>
          have shorter := item.shortens _ _ _ found
          rw [List.length_cons] at shorter
          exact ((shortens_readMore bracket item read.2).map _).mono (by omega)

end TraitIndex.Json
