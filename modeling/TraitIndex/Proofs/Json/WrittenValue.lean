import Mathlib.Data.List.DropRight
import TraitIndex.Proofs.Json.StringRoundTrip
import TraitIndex.Proofs.Json.WrittenSequence

/-!
# Written values are read back

Strings, lists and members of objects are read back from the texts of their parts.  A text that the
reader takes for a value is also legible as an item of a list, since no value begins with a closing
bracket; and a member of an object is legible since it begins with a quote.
-/

namespace TraitIndex.Json

theorem runValue_gap {gap : List Char} (blank : gap.all isBlank = true)
    (nested : Option (Reader Value)) (text : List Char) :
    runValue nested (gap ++ text) = runValue nested text := by
  rw [runValue, runValue, skipBlanks_gap blank]

theorem runValue_string (nested : Option (Reader Value)) (text : String) (suffix : List Char) :
    runValue nested (writeString text ++ suffix) = .ok (.string text, suffix) := by
  rcases readString_writeString text suffix with ⟨inner, starts, read⟩
  rw [starts]
  exact map_eq_ok.mpr ⟨text, read, rfl⟩

theorem runValue_list {nested : Reader Value} {elements : List Value} {text suffix : List Char}
    (read : readItems listBracket nested text = .ok (elements, suffix)) :
    runValue (some nested) ('[' :: text) = .ok (.array elements, suffix) :=
  map_eq_ok.mpr ⟨elements, read, rfl⟩

theorem exists_first_of_runValue {nested : Option (Reader Value)} {found : Value}
    {text rest : List Char} (read : runValue nested text = .ok (found, rest)) :
    ∃ first others, skipBlanks text = first :: others ∧ first ≠ ']' ∧
      runValue nested (first :: others) = .ok (found, rest) := by
  cases skipped : skipBlanks text with
  | nil =>
      rw [runValue, skipped] at read
      cases read
  | cons first others =>
      have again : skipBlanks (first :: others) = first :: others := by
        rw [← skipped]
        exact List.dropWhile_idempotent isBlank text
      have same : runValue nested (first :: others) = runValue nested text := by
        rw [runValue, runValue, again, skipped]
      refine ⟨first, others, rfl, ?_, same.trans read⟩
      rintro rfl
      rw [runValue, skipped] at read
      cases read

theorem exists_run_value (depth : Nat) : ∃ nested, (value depth).run = runValue nested := by
  cases depth with
  | zero => exact ⟨none, rfl⟩
  | succ depth => exact ⟨some (value depth), rfl⟩

theorem legible_value {depth : Nat} {found : Value} {text : List Char}
    (read : ∀ suffix, EndsNumeral suffix →
      (value depth).run (text ++ suffix) = .ok (found, suffix)) :
    Legible listBracket (value depth) found text := by
  intro suffix ends
  rcases exists_run_value depth with ⟨nested, run⟩
  have whole := read suffix ends
  rw [run] at whole ⊢
  rcases exists_first_of_runValue whole with ⟨first, others, skipped, opens, again⟩
  exact ⟨first, others, skipped, opens, again⟩

theorem legible_string (depth : Nat) (text : String) :
    Legible listBracket (value depth) (.string text) (writeString text) := by
  apply legible_value
  intro suffix _
  rcases exists_run_value depth with ⟨nested, run⟩
  rw [run]
  exact runValue_string nested text suffix

theorem runMember_eq_ok {value : Reader Value} {key : String} {found : Value}
    {text afterKey afterColon rest : List Char}
    (readKey : readString [] text = .ok (key, afterKey))
    (colon : skipBlanks afterKey = ':' :: afterColon)
    (read : value.run afterColon = .ok (found, rest)) :
    runMember value ('"' :: text) = .ok ((key, found), rest) := by
  simp [runMember, readKey, colon, read, Reading.map]

theorem legible_member {value : Reader Value} {key : String} {found : Value}
    {gap text : List Char} (blank : gap.all isBlank = true)
    (read : ∀ suffix, EndsNumeral suffix → value.run (text ++ suffix) = .ok (found, suffix)) :
    Legible objectBracket (member value) (key, found)
      (writeString key ++ (gap ++ ':' :: text)) := by
  intro suffix ends
  rcases readString_writeString key (gap ++ ':' :: text ++ suffix) with ⟨inner, starts, readKey⟩
  have colon : skipBlanks (gap ++ ':' :: text ++ suffix) = ':' :: (text ++ suffix) := by
    rw [List.append_assoc, skipBlanks_gap blank]
    exact skipBlanks_cons (by decide) _
  refine ⟨'"', inner, ?_, by decide, runMember_eq_ok readKey colon (read suffix ends)⟩
  rw [List.append_assoc, starts]
  exact skipBlanks_cons (by decide) inner

end TraitIndex.Json
