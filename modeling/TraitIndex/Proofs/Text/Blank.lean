import Mathlib.Data.List.DropRight
import TraitIndex.Text.Blank

/-!
# Trimmed texts

What is left of a text when it is trimmed begins and ends with a visible character, or is empty; so
there is nothing left to trim.  Further blanks around a text make no difference to it.
-/

namespace TraitIndex.Text

/-- What trimming leaves at one end it also leaves when the other end is trimmed. -/
theorem dropWhile_rdropWhile {α : Type} (drop : α → Bool) (items : List α) :
    ((items.dropWhile drop).rdropWhile drop).dropWhile drop =
      (items.dropWhile drop).rdropWhile drop := by
  rcases List.rdropWhile_prefix drop (items.dropWhile drop) with ⟨cut, whole⟩
  cases left : (items.dropWhile drop).rdropWhile drop with
  | nil => rfl
  | cons first rest =>
      have visible := List.head?_dropWhile_not drop items
      rw [← whole, left] at visible
      exact List.dropWhile_cons_of_neg (by simpa using visible)

theorem trimChars_trimChars (characters : List Char) :
    trimChars (trimChars characters) = trimChars characters := by
  change ((trimChars characters).dropWhile isBlank).rdropWhile isBlank = _
  have atFront : (trimChars characters).dropWhile isBlank = trimChars characters :=
    dropWhile_rdropWhile isBlank characters
  rw [atFront]
  exact List.rdropWhile_idempotent isBlank (characters.dropWhile isBlank)

theorem trim_trim (text : String) : trim (trim text) = trim text := by
  simp [trim, trimChars_trimChars]

theorem rdropWhile_append_of_all {α : Type} {drop : α → Bool} {further : List α}
    (dropped : further.all drop = true) (items : List α) :
    (items ++ further).rdropWhile drop = items.rdropWhile drop := by
  rw [List.rdropWhile, List.reverse_append, List.dropWhile_append_of_pos, List.rdropWhile]
  simpa using dropped

/-- Blanks that are put around a text are trimmed with its own. -/
theorem trimChars_padded {before after : List Char} (blankBefore : before.all isBlank = true)
    (blankAfter : after.all isBlank = true) (characters : List Char) :
    trimChars (before ++ characters ++ after) = trimChars characters := by
  change ((before ++ characters ++ after).dropWhile isBlank).rdropWhile isBlank =
    (characters.dropWhile isBlank).rdropWhile isBlank
  rw [List.append_assoc, List.dropWhile_append_of_pos (List.all_eq_true.mp blankBefore),
    List.dropWhile_append]
  split
  · rename_i nothing
    rw [List.isEmpty_iff] at nothing
    rw [nothing, (dropWhile_eq_nil_iff isBlank after).mpr blankAfter]
  · exact rdropWhile_append_of_all blankAfter _

theorem trim_padded {before after : String} (blankBefore : allBlank before = true)
    (blankAfter : allBlank after = true) (text : String) :
    trim (before ++ text ++ after) = trim text := by
  simp only [trim, String.toList_append, trimChars_padded blankBefore blankAfter]

/-- Characters can be replaced before or after trimming if blanks stay blanks, and only they are. -/
theorem trimChars_map {change : Char → Char}
    (keeps : ∀ character, isBlank (change character) = isBlank character)
    (characters : List Char) :
    trimChars (characters.map change) = (trimChars characters).map change := by
  have same : isBlank ∘ change = isBlank := funext keeps
  simp only [trimChars, List.dropWhile_map, ← List.map_reverse, same]

end TraitIndex.Text
