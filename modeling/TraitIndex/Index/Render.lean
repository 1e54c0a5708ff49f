import TraitIndex.Index.Basic
import TraitIndex.Json.Descriptor

/-!
# Printed indexes

As text, an index has a line for each symbol, followed by an indented line for each of its
descriptors.  As JSON it is an object with the policy, the number of fragments and the symbols.
-/

namespace TraitIndex.Index

def symbolLines (index : Index) (symbol : String) : List String :=
  symbol :: ((index.get? symbol).getD []).map fun descriptor => "  " ++ descriptor.text

def lines (index : Index) : List String :=
  index.symbols.flatMap index.symbolLines

def render (index : Index) : String :=
  String.join (index.lines.map fun line => line ++ "\n")

/-- The symbols with their descriptors, as a JSON object. -/
def symbolsJson (index : Index) : Json.Value :=
  .object (index.table.map fun row => (row.1, .array (row.2.map Descriptor.toJson)))

def toJson (index : Index) : Json.Value :=
  .object
    [("policy", .string index.policy.name),
      ("fragment_count", .number (.natural index.fragmentCount)),
      ("symbols", index.symbolsJson)]

end TraitIndex.Index
