import TraitIndex.Proofs.Json.Extension.Value
import TraitIndex.Proofs.Script.Outcome
import TraitIndex.Proofs.Script.Search

/-!
# What the result of a script depends on

Of a script only the literal counts, the text behind the first place to split the script at and
behind the blanks there; the positions in an error are counted from its start.  Of the literal, once
an object has been read from it, only that object counts.
-/

namespace TraitIndex.Script

/-- The results of scripts whose table has been read to its end. -/
inductive Settled : Except LoadError Fragment → Prop where
  | fragment (fragment : Fragment) : Settled (.ok fragment)
  | invalidSymbolValue (symbol : String) : Settled (.error (.invalidSymbolValue symbol))
  | invalidEntry (symbol : String) (index : Nat) : Settled (.error (.invalidEntry symbol index))
  | malformed (fault : Fragment.Fault) : Settled (.error (.malformed fault))

/-- Whatever a table comes to, the script is settled. -/
theorem Outcome.settled {scope : Option String} {members : List (String × Json.Value)}
    {result : Except LoadError Fragment} (outcome : Outcome scope members result) :
    Settled result := by
  cases outcome with
  | misshapen first =>
      rcases first with ⟨_, _, _, _, _, misshapen⟩
      cases misshapen with
      | value => exact .invalidSymbolValue _
      | item => exact .invalidEntry _ _
  | malformed => exact .malformed _
  | fragment => exact .fragment _

section Literals

variable {scope : Option String} {literal : List Char}

theorem parseLiteral_eq_missingTable_iff :
    parseLiteral scope literal = .error .missingTable ↔ Json.skipBlanks literal = [] := by
  constructor
  · intro missing
    by_contra left
    rw [parseLiteral_of_left left] at missing
    split at missing
    · cases missing
    · rename_i members _ _
      have settled := (outcome_fragmentOf scope members).settled
      rw [missing] at settled
      cases settled
  · intro nothing
    exact if_pos (by simp [nothing])

theorem exists_readObject_of_settled (settled : Settled (parseLiteral scope literal)) :
    Json.skipBlanks literal ≠ [] ∧ ∃ members rest,
      Json.readObject expectedTable literal = .ok (members, rest) ∧
        parseLiteral scope literal = fragmentOf scope members := by
  have left : Json.skipBlanks literal ≠ [] := by
    intro nothing
    rw [parseLiteral_eq_missingTable_iff.mpr nothing] at settled
    cases settled
  refine ⟨left, ?_⟩
  rw [parseLiteral_of_left left] at settled ⊢
  split at settled
  · cases settled
  · rename_i members rest read
    exact ⟨members, rest, read, rfl⟩

/-- Nothing behind the object at the head of a literal is looked at. -/
theorem parseLiteral_append (settled : Settled (parseLiteral scope literal))
    (suffix : List Char) :
    parseLiteral scope (literal ++ suffix) = parseLiteral scope literal := by
  rcases exists_readObject_of_settled settled with ⟨left, members, rest, read, same⟩
  have longer : Json.skipBlanks (literal ++ suffix) ≠ [] := by
    cases skipped : Json.skipBlanks literal with
    | nil => exact absurd skipped left
    | cons first others =>
        rw [Json.skipBlanks_append skipped]
        exact List.cons_ne_nil _ _
  rw [same, parseLiteral_of_left longer, Json.selfDelimiting_readObject _ read suffix]

end Literals

section Scripts

variable {scope : Option String} {script : String} {before rest : List Char}

theorem parse_of_unsplit
    (unsplit : ¬ ∃ before rest, Splits script.toList before rest) :
    parse scope script = .error .missingTable := by
  rw [parse, literal?_eq_none_iff.mpr unsplit]

theorem parse_of_splitsFirst (first : SplitsFirst script.toList before rest) :
    parse scope script = parseLiteral scope (rest.dropWhile Text.isBlank) := by
  rw [parse, literal?_of_splitsFirst first]

end Scripts

theorem isBlank_of_json {character : Char} (blank : Json.isBlank character = true) :
    Text.isBlank character = true := by
  simp only [Json.isBlank, Bool.or_eq_true, decide_eq_true_eq] at blank
  rcases blank with ((rfl | rfl) | rfl) | rfl <;> decide

/-- In front of a visible character there are no blanks between tokens either. -/
theorem skipBlanks_of_unblank {text : List Char} (unblank : Unblank text) :
    Json.skipBlanks text = text := by
  cases text with
  | nil => rfl
  | cons first rest =>
      have visible := unblank first rfl
      apply List.dropWhile_cons_of_neg
      intro blank
      rw [isBlank_of_json blank] at visible
      cases visible

theorem skipBlanks_dropWhile (text : List Char) :
    Json.skipBlanks (text.dropWhile Text.isBlank) = text.dropWhile Text.isBlank := by
  rcases (@dropWhile_isBlank_eq_iff text _).mp rfl with ⟨_, _, _, unblank⟩
  exact skipBlanks_of_unblank unblank

/-- How the result of a script hangs on the places to split it at. -/
structure Located (scope : Option String) (script : String) : Prop where
  /-- Nothing is found exactly when there is no such place. -/
  unsplit : literal? script.toList = none ↔ ¬ ∃ before rest, Splits script.toList before rest
  missing : (¬ ∃ before rest, Splits script.toList before rest) →
    parse scope script = .error .missingTable
  first : (∃ before rest, Splits script.toList before rest) →
    ∃ before rest, SplitsFirst script.toList before rest
  literal : ∀ before rest, SplitsFirst script.toList before rest →
    literal? script.toList = some (rest.dropWhile Text.isBlank)
  parsed : ∀ before rest, SplitsFirst script.toList before rest →
    parse scope script = parseLiteral scope (rest.dropWhile Text.isBlank)
  empty : ∀ before rest, SplitsFirst script.toList before rest →
    (parse scope script = .error .missingTable ↔ rest.dropWhile Text.isBlank = [])
  /-- Two scripts with the same literal have the same result, the places of errors included. -/
  alike : ∀ before rest other otherBefore otherRest, SplitsFirst script.toList before rest →
    SplitsFirst other.toList otherBefore otherRest →
    otherRest.dropWhile Text.isBlank = rest.dropWhile Text.isBlank →
      parse scope other = parse scope script

/-- The assignment of a script is found where the script is first split, and nothing but the literal
behind it decides the result. -/
theorem located_parse (scope : Option String) (script : String) : Located scope script where
  unsplit := literal?_eq_none_iff
  missing := parse_of_unsplit
  first := by
    rintro ⟨before, rest, splits⟩
    cases found : literal? script.toList with
    | none => exact absurd splits (not_splits_of_literal? found)
    | some literal =>
        rcases exists_splitsFirst found with ⟨before, rest, first, _⟩
        exact ⟨before, rest, first⟩
  literal := fun _ _ => literal?_of_splitsFirst
  parsed := fun _ _ => parse_of_splitsFirst
  empty := by
    intro before rest first
    rw [parse_of_splitsFirst first, parseLiteral_eq_missingTable_iff, skipBlanks_dropWhile]
  alike := by
    intro before rest other otherBefore otherRest first otherFirst same
    rw [parse_of_splitsFirst first, parse_of_splitsFirst otherFirst, same]

/-- A declaration without a sign is passed over. -/
example : literal? "var implementors; outlet\timplementors=\u2003\n[]".toList = some ['[', ']'] := by
  decide +kernel

/-- Once the table of a script has been read to its end, text behind the script changes nothing. -/
theorem parse_append_of_settled {scope : Option String} {script : String}
    (settled : Settled (parse scope script)) (suffix : String) :
    parse scope (script ++ suffix) = parse scope script := by
  cases found : literal? script.toList with
  | none =>
      rw [parse_of_unsplit (literal?_eq_none_iff.mp found)] at settled
      cases settled
  | some literal =>
      rcases exists_splitsFirst found with ⟨before, rest, first, _⟩
      have longer : SplitsFirst (script ++ suffix).toList before (rest ++ suffix.toList) := by
        rw [String.toList_append]
        exact first.append suffix.toList
      rw [parse_of_splitsFirst first] at settled ⊢
      have left : rest.dropWhile Text.isBlank ≠ [] := by
        rw [← skipBlanks_dropWhile]
        exact (exists_readObject_of_settled settled).1
      rw [parse_of_splitsFirst longer,
        Json.dropWhile_append_of_ends fun nothing => absurd nothing left,
        parseLiteral_append settled]

/-- A table with a number among the descriptors of its second symbol. -/
def numberedScript : String :=
  "let implementors = \x7b\"a\":[[\"x\",[]]],\"b\":[\"y\",7]\x7d"

def numberedLiteral : List Char :=
  numberedScript.toList.drop 19

def numberedMembers : List (String × Json.Value) :=
  [("a", .array [.array [.string "x", .array []]]),
    ("b", .array [.string "y", .number (.natural 7)])]

theorem parse_append_of_settled_numberedScript :
    Settled (parse none numberedScript) ∧
    parse none (numberedScript ++ "]\x7d, var implementors = \x7b\"b\":[]\x7d") =
      .error (.invalidEntry "b" 1) := by
  have assigned : literal? numberedScript.toList = some numberedLiteral := by decide +kernel
  have left : Json.skipBlanks numberedLiteral ≠ [] := by decide +kernel
  have read : Json.readObject expectedTable numberedLiteral = .ok (numberedMembers, []) := by
    with_unfolding_all rfl
  have parsed : parse none numberedScript = .error (.invalidEntry "b" 1) := by
    rw [parse_of_literal assigned left, read]
    rfl
  have settled : Settled (parse none numberedScript) := parsed ▸ .invalidEntry "b" 1
  exact ⟨settled, (parse_append_of_settled settled _).trans parsed⟩

end TraitIndex.Script
