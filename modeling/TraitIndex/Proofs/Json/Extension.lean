import TraitIndex.Json.Reading

/-!
# Reading a longer text

A reader that succeeds has seen where its value ends, so nothing behind that place changes what it
reads.  The exception are numerals, which end where they do not go on: behind a numeral that ends
with the text, only what cannot continue it may be put.  `SelfDelimiting` readers take any longer
text, `Delimited` readers one that does not continue a numeral.  As a bracket is only closed by a
character of its own, sequences are self-delimiting even if their items are merely delimited, and
this carries the induction on the depth of values.
-/

namespace TraitIndex.Json

variable {α β : Type}

def EndsNumeral (text : List Char) : Prop :=
  ∀ first ∈ text.head?, first.isDigit = false ∧ first ≠ '.' ∧ first ≠ 'e' ∧ first ≠ 'E'

def SelfDelimiting (read : List Char → Reading α) : Prop :=
  ∀ ⦃text rest : List Char⦄ ⦃value : α⦄, read text = .ok (value, rest) →
    ∀ suffix, read (text ++ suffix) = .ok (value, rest ++ suffix)

def Delimited (read : List Char → Reading α) : Prop :=
  ∀ ⦃text rest : List Char⦄ ⦃value : α⦄, read text = .ok (value, rest) →
    ∀ suffix, (rest = [] → EndsNumeral suffix) →
      read (text ++ suffix) = .ok (value, rest ++ suffix)

theorem SelfDelimiting.delimited {read : List Char → Reading α} (closed : SelfDelimiting read) :
    Delimited read := by
  intro text rest value found suffix _
  exact closed found suffix

theorem map_eq_ok {reading : Reading α} {change : α → β} {value : β} {rest : List Char} :
    Reading.map change reading = .ok (value, rest) ↔
      ∃ found, reading = .ok (found, rest) ∧ change found = value := by
  rcases reading with failure | ⟨found, left⟩
  · simp [Reading.map]
  · simp only [Reading.map, Except.ok.injEq, Prod.mk.injEq]
    constructor
    · rintro ⟨rfl, rfl⟩
      exact ⟨found, ⟨rfl, rfl⟩, rfl⟩
    · rintro ⟨_, ⟨rfl, rfl⟩, rfl⟩
      exact ⟨rfl, rfl⟩

theorem ok_append {value found : α} {rest left : List Char}
    (same : (.ok (found, left) : Reading α) = .ok (value, rest)) (suffix : List Char) :
    (.ok (found, left ++ suffix) : Reading α) = .ok (value, rest ++ suffix) := by
  cases same
  rfl

theorem SelfDelimiting.map {read : List Char → Reading α} (closed : SelfDelimiting read)
    (change : α → β) : SelfDelimiting fun text => Reading.map change (read text) := by
  intro text rest value found suffix
  rcases map_eq_ok.mp found with ⟨inner, read, rfl⟩
  exact map_eq_ok.mpr ⟨inner, closed read suffix, rfl⟩

theorem Delimited.map {read : List Char → Reading α} (delimited : Delimited read)
    (change : α → β) : Delimited fun text => Reading.map change (read text) := by
  intro text rest value found suffix ends
  rcases map_eq_ok.mp found with ⟨inner, read, rfl⟩
  exact map_eq_ok.mpr ⟨inner, delimited read suffix ends, rfl⟩

theorem nil_of_keeps {reading : Reading α} {rest : List Char} {value : α}
    (keeps : Reading.Keeps [] reading) (found : reading = .ok (value, rest)) : rest = [] := by
  have le := keeps value rest found
  exact List.length_eq_zero_iff.mp (Nat.le_zero.mp le)

section Spans

variable {text suffix : List Char} {drop : Char → Bool}

theorem dropWhile_append_of_ends
    (ends : text.dropWhile drop = [] → ∀ first ∈ suffix.head?, drop first = false) :
    (text ++ suffix).dropWhile drop = text.dropWhile drop ++ suffix := by
  induction text with
  | nil =>
      cases suffix with
      | nil => rfl
      | cons first suffix => simp [ends rfl first rfl]
  | cons character text ih =>
      by_cases dropped : drop character = true
      · simp only [List.cons_append, List.dropWhile_cons, dropped, if_true] at ends ⊢
        exact ih ends
      · simp [dropped]

theorem takeWhile_append_of_ends
    (ends : text.dropWhile drop = [] → ∀ first ∈ suffix.head?, drop first = false) :
    (text ++ suffix).takeWhile drop = text.takeWhile drop := by
  induction text with
  | nil =>
      cases suffix with
      | nil => rfl
      | cons first suffix => simp [ends rfl first rfl]
  | cons character text ih =>
      by_cases dropped : drop character = true
      · simp only [List.dropWhile_cons, dropped, if_true] at ends
        simp [dropped, ih ends]
      · simp [dropped]

theorem skipBlanks_append {first : Char} {rest : List Char}
    (skipped : skipBlanks text = first :: rest) (suffix : List Char) :
    skipBlanks (text ++ suffix) = first :: (rest ++ suffix) := by
  have left : text.dropWhile isBlank ≠ [] := by
    rw [← skipBlanks, skipped]
    exact List.cons_ne_nil first rest
  calc
    skipBlanks (text ++ suffix) = skipBlanks text ++ suffix :=
      dropWhile_append_of_ends fun nothing => absurd nothing left
    _ = first :: (rest ++ suffix) := by rw [skipped, List.cons_append]

theorem EndsNumeral.not_digit (ends : EndsNumeral suffix) :
    ∀ first ∈ suffix.head?, first.isDigit = false :=
  fun first mem => (ends first mem).1

end Spans

end TraitIndex.Json
