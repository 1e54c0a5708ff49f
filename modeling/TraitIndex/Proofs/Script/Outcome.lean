import TraitIndex.Proofs.Fragment
import TraitIndex.Proofs.Script.Shape

/-!
# What is made of a table

Three things can be wrong with a table: its text, the shapes in it, and the fragment made of it.
They are looked for in this order, each over the whole table, so a fault of an earlier kind is
reported wherever it stands and whatever else is wrong.  `Outcome` says which result a table has
once its text has been read.
-/

namespace TraitIndex.Script

/-- The result for a table with the given members. -/
inductive Outcome (scope : Option String) (members : List (String × Json.Value)) :
    Except LoadError Fragment → Prop where
  | misshapen {error : LoadError} (first : FirstMisshapen members error) :
      Outcome scope members (.error error)
  | malformed {entries : List Entry} {fault : Fragment.Fault}
      (shapes : List.Forall₂ Shapes members entries)
      (faulty : (Fragment.mk scope entries).fault? = some fault) :
      Outcome scope members (.error (.malformed fault))
  | fragment {entries : List Entry} (shapes : List.Forall₂ Shapes members entries)
      (wellFormed : (Fragment.mk scope entries).WellFormed) :
      Outcome scope members (.ok ⟨scope, entries⟩)

section Members

variable {scope : Option String} {members : List (String × Json.Value)}

theorem symbols_of_shapes {entries : List Entry} (shapes : List.Forall₂ Shapes members entries) :
    entries.map Entry.symbol = members.map Prod.fst := by
  induction shapes with
  | nil => rfl
  | cons shape _ ih =>
      rcases shape with ⟨marks⟩
      rw [List.map_cons, List.map_cons, ih]

theorem outcome_fragmentOf (scope : Option String) (members : List (String × Json.Value)) :
    Outcome scope members (fragmentOf scope members) := by
  unfold fragmentOf
  rcases taken : entriesOf members with error | entries
  · exact .misshapen (entriesOf_eq_error_iff.mp taken)
  · have shapes := entriesOf_eq_ok_iff.mp taken
    dsimp only
    split
    · rename_i fault faulty
      exact .malformed shapes faulty
    · rename_i faultless
      exact .fragment shapes faultless

theorem fragmentOf_eq_iff {result : Except LoadError Fragment} :
    fragmentOf scope members = result ↔ Outcome scope members result := by
  constructor
  · rintro rfl
    exact outcome_fragmentOf scope members
  · intro outcome
    unfold fragmentOf
    cases outcome with
    | misshapen first => rw [entriesOf_eq_error_iff.mpr first]
    | malformed shapes faulty => simp [entriesOf_eq_ok_iff.mpr shapes, faulty]
    | fragment shapes wellFormed =>
        rw [Fragment.WellFormed] at wellFormed
        simp [entriesOf_eq_ok_iff.mpr shapes, wellFormed]

theorem Outcome.nodup_of_ok {fragment : Fragment} (outcome : Outcome scope members (.ok fragment)) :
    (members.map Prod.fst).Nodup := by
  cases outcome with
  | fragment shapes wellFormed =>
      rw [← symbols_of_shapes shapes]
      exact wellFormed.nodup_symbols

end Members

theorem wellFormed_of_fragmentOf {scope : Option String} {members : List (String × Json.Value)}
    {fragment : Fragment} (made : fragmentOf scope members = .ok fragment) :
    fragment.WellFormed := by
  cases fragmentOf_eq_iff.mp made with
  | fragment _ wellFormed => exact wellFormed

/-- What is read off a script is well formed. -/
theorem wellFormed_of_parse {scope : Option String} {script : String} {fragment : Fragment}
    (parsed : parse scope script = .ok fragment) : fragment.WellFormed := by
  unfold parse at parsed
  split at parsed
  · cases parsed
  · unfold parseLiteral at parsed
    split at parsed
    · cases parsed
    · split at parsed
      · cases parsed
      · exact wellFormed_of_fragmentOf parsed

theorem parseLiteral_of_left {scope : Option String} {literal : List Char}
    (left : Json.skipBlanks literal ≠ []) :
    parseLiteral scope literal =
      match Json.readObject expectedTable literal with
      | .error failure => .error (.notJson (failure.locate literal))
      | .ok (members, _) => fragmentOf scope members :=
  if_neg (by simpa using left)

theorem parse_of_literal {scope : Option String} {script : String} {literal : List Char}
    (assigned : literal? script.toList = some literal) (left : Json.skipBlanks literal ≠ []) :
    parse scope script =
      match Json.readObject expectedTable literal with
      | .error failure => .error (.notJson (failure.locate literal))
      | .ok (members, _) => fragmentOf scope members := by
  rw [parse, assigned]
  exact parseLiteral_of_left left

/-- Where a script assigns an object, a failure to read it counts before all else.  Otherwise the
result is the outcome for its members, all of them and in their order; so a symbol that is assigned
twice is never accepted. -/
theorem parse_eq_iff_outcome {scope : Option String} {script : String}
    {literal text : List Char} (assigned : literal? script.toList = some literal)
    (opens : Json.skipBlanks literal = '\x7b' :: text) :
    (∀ failure, Json.readObject expectedTable literal = .error failure →
      parse scope script = .error (.notJson (failure.locate literal))) ∧
    ∀ members rest, Json.readObject expectedTable literal = .ok (members, rest) →
      (∀ result, parse scope script = result ↔ Outcome scope members result) ∧
      (¬ (members.map Prod.fst).Nodup → ∃ error, parse scope script = .error error) := by
  have left : Json.skipBlanks literal ≠ [] := by simp [opens]
  constructor
  · intro failure failed
    rw [parse_of_literal assigned left, failed]
  · intro members rest read
    have parsed : parse scope script = fragmentOf scope members := by
      rw [parse_of_literal assigned left, read]
    rw [parsed]
    refine ⟨fun result => fragmentOf_eq_iff, ?_⟩
    intro repeated
    rcases made : fragmentOf scope members with error | fragment
    · exact ⟨error, rfl⟩
    · exact absurd (fragmentOf_eq_iff.mp made).nodup_of_ok repeated

/-- A table with a blank symbol, a blank descriptor, a repeated symbol and two wrong shapes. -/
def faultyScript : String :=
  "var implementors = \x7b\"\":[\" \"],\"a\":[\"x\"],\"a\":[[\"y\",null]]," ++
    "\"b\":[\"z\",[]],\"c\":true\x7d;"

def faultyLiteral : List Char :=
  faultyScript.toList.drop 19

def faultyMembers : List (String × Json.Value) :=
  [("", .array [.string " "]), ("a", .array [.string "x"]),
    ("a", .array [.array [.string "y", .null]]), ("b", .array [.string "z", .array []]),
    ("c", .bool true)]

theorem parse_faultyScript :
    literal? faultyScript.toList = some faultyLiteral ∧
    Json.skipBlanks faultyLiteral = '\x7b' :: faultyLiteral.tail ∧
    Json.readObject expectedTable faultyLiteral = .ok (faultyMembers, [';']) ∧
    FirstMisshapen faultyMembers (.invalidEntry "b" 1) ∧
    parse none faultyScript = .error (.invalidEntry "b" 1) := by
  have assigned : literal? faultyScript.toList = some faultyLiteral := by decide +kernel
  have opens : Json.skipBlanks faultyLiteral = '\x7b' :: faultyLiteral.tail := by decide +kernel
  have read : Json.readObject expectedTable faultyLiteral = .ok (faultyMembers, [';']) := by
    with_unfolding_all rfl
  have first : FirstMisshapen faultyMembers (.invalidEntry "b" 1) := by
    refine ⟨faultyMembers.take 3, ("b", _), [("c", _)], rfl, ?_, ?_⟩
    · intro member mem
      simp only [faultyMembers, List.take, List.mem_cons, List.not_mem_nil, or_false] at mem
      rcases mem with rfl | rfl | rfl
      · exact ⟨⟨"", [⟨" "⟩]⟩, .list (.cons (.text " ") .nil)⟩
      · exact ⟨⟨"a", [⟨"x"⟩]⟩, .list (.cons (.text "x") .nil)⟩
      · exact ⟨⟨"a", [⟨"y"⟩]⟩, .list (.cons (.first "y" [.null]) .nil)⟩
    · apply @Misshapen.item "b" [.string "z"] [] (.array [])
      · intro other mem
        rw [List.mem_singleton] at mem
        subst mem
        exact ⟨"z", .text "z"⟩
      · rintro ⟨markup, marks⟩
        cases marks
  have outcome := ((@parse_eq_iff_outcome none _ _ _ assigned opens).2 _ _ read).1
  exact ⟨assigned, opens, read, first, (outcome _).mpr (.misshapen first)⟩

end TraitIndex.Script
