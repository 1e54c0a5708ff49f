import TraitIndex.Text.Canonical

/-!
# Merge policies

A policy says what becomes of the descriptors of a symbol that several entries declare: all are
kept in order of arrival, or only the latest list, or all without repetitions.
-/

namespace TraitIndex

inductive MergePolicy where
  | append
  | replace
  | union
  deriving DecidableEq, Repr, Inhabited

namespace MergePolicy

def name : MergePolicy → String
  | append => "append"
  | replace => "replace"
  | union => "union"

/-- Carries the canonical form of the name that was not recognised. -/
structure UnknownName where
  given : String
  deriving DecidableEq, Repr

def UnknownName.message (unknown : UnknownName) : String :=
  s!"unsupported merge policy `{unknown.given}`; expected append|replace|union"

def ofName (name : String) : Except UnknownName MergePolicy :=
  match Text.canonical name with
  | "append" => .ok append
  | "replace" => .ok replace
  | "union" => .ok union
  | other => .error ⟨other⟩

end MergePolicy

end TraitIndex
