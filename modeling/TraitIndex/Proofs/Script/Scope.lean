import TraitIndex.Script.Table

/-!
# Scopes of parsed scripts

Whether a script can be parsed, and into which entries, is decided without its scope.  The scope is
only put into the fragment: parsing under another scope gives the same fragment with the other
scope, or the same error.
-/

namespace TraitIndex

/-- The fragment with the same entries and another scope. -/
def Fragment.rescope (scope : Option String) (fragment : Fragment) : Fragment :=
  { fragment with scope := scope }

theorem Fragment.fault?_rescope (scope : Option String) (fragment : Fragment) :
    (fragment.rescope scope).fault? = fragment.fault? :=
  rfl

namespace Script

theorem fragmentOf_eq_map (scope other : Option String) (members : List (String × Json.Value)) :
    fragmentOf other members = (fragmentOf scope members).map (Fragment.rescope other) := by
  unfold fragmentOf
  rcases entriesOf members with error | entries
  · rfl
  · have sameFault := Fragment.fault?_rescope other ⟨scope, entries⟩
    dsimp only [Fragment.rescope] at sameFault ⊢
    rw [sameFault]
    cases (Fragment.mk scope entries).fault? <;> rfl

/-- Parsing under another scope changes the scope of the fragment and nothing else. -/
theorem parse_eq_map (scope other : Option String) (script : String) :
    parse other script = (parse scope script).map (Fragment.rescope other) := by
  unfold parse
  cases literal? script.toList with
  | none => rfl
  | some literal =>
      dsimp only
      unfold parseLiteral
      split
      · rfl
      · rcases Json.readObject expectedTable literal with failure | ⟨members, rest⟩
        · rfl
        · exact fragmentOf_eq_map scope other members

theorem scope_of_parse {scope : Option String} {script : String} {fragment : Fragment}
    (parsed : parse scope script = .ok fragment) : fragment.scope = scope := by
  have again := parse_eq_map scope scope script
  rw [parsed] at again
  exact congrArg Fragment.scope (Except.ok.inj again)

end Script

end TraitIndex
