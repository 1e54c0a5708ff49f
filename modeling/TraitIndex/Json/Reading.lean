import TraitIndex.Json.Failure

/-!
# Readings

A reader takes a value from the head of a text and returns it with the rest of the text, or fails.
A value takes at least one character, so the rest is shorter than the text; this is what lets a
sequence of values be read.
-/

namespace TraitIndex.Json

/-- What reading from the head of a text yields: a value and the rest, or a failure. -/
abbrev Reading (α : Type) :=
  Except Failure (α × List Char)

/-- A reading that takes at least one character of the text when it succeeds. -/
def Reading.Shortens {α : Type} (text : List Char) (reading : Reading α) : Prop :=
  ∀ value rest, reading = .ok (value, rest) → rest.length < text.length

structure Reader (α : Type) where
  run : List Char → Reading α
  shortens : ∀ text, Reading.Shortens text (run text)

def Reading.map {α β : Type} (change : α → β) : Reading α → Reading β
  | .ok (value, rest) => .ok (change value, rest)
  | .error failure => .error failure

theorem Reading.shortens_error {α : Type} {text : List Char} {failure : Failure} :
    Reading.Shortens (α := α) text (.error failure) := by
  intro _ _ impossible
  cases impossible

theorem Reading.shortens_ok {α : Type} {text rest : List Char} {value : α}
    (shorter : rest.length < text.length) : Reading.Shortens text (.ok (value, rest)) := by
  intro _ _ same
  cases same
  exact shorter

theorem Reading.Shortens.map {α β : Type} {text : List Char} {reading : Reading α}
    (shortens : Reading.Shortens text reading) (change : α → β) :
    Reading.Shortens text (reading.map change) := by
  cases reading with
  | error => exact Reading.shortens_error
  | ok found => exact Reading.shortens_ok (shortens found.1 found.2 rfl)

theorem Reading.Shortens.mono {α : Type} {text longer : List Char} {reading : Reading α}
    (shortens : Reading.Shortens text reading) (le : text.length ≤ longer.length) :
    Reading.Shortens longer reading :=
  fun value rest read => Nat.lt_of_lt_of_le (shortens value rest read) le

/-- A reading whose rest, if it succeeds, is not longer than the text. -/
def Reading.Keeps {α : Type} (text : List Char) (reading : Reading α) : Prop :=
  ∀ value rest, reading = .ok (value, rest) → rest.length ≤ text.length

theorem Reading.keeps_error {α : Type} {text : List Char} {failure : Failure} :
    Reading.Keeps (α := α) text (.error failure) := by
  intro _ _ impossible
  cases impossible

theorem Reading.keeps_ok {α : Type} {text rest : List Char} {value : α}
    (le : rest.length ≤ text.length) : Reading.Keeps text (.ok (value, rest)) := by
  intro _ _ same
  cases same
  exact le

theorem Reading.Keeps.mono {α : Type} {text longer : List Char} {reading : Reading α}
    (keeps : Reading.Keeps text reading) (le : text.length ≤ longer.length) :
    Reading.Keeps longer reading :=
  fun value rest read => Nat.le_trans (keeps value rest read) le

theorem Reading.Keeps.shortens {α : Type} {text longer : List Char} {reading : Reading α}
    (keeps : Reading.Keeps text reading) (lt : text.length < longer.length) :
    Reading.Shortens longer reading :=
  fun value rest read => Nat.lt_of_le_of_lt (keeps value rest read) lt

theorem length_dropWhile_le (drop : Char → Bool) (text : List Char) :
    (text.dropWhile drop).length ≤ text.length :=
  (List.dropWhile_sublist drop).length_le

theorem length_skipBlanks_le (text : List Char) : (skipBlanks text).length ≤ text.length :=
  length_dropWhile_le _ _

end TraitIndex.Json
