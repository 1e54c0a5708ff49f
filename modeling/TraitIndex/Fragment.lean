import TraitIndex.Descriptor

/-!
# Fragments

A fragment is what one producer hands over as a unit: symbols in display order, each with its
descriptors in display order, and the scope that the symbols were documented under.  The scope is
information for readers of the log; nothing is decided by it.

A fragment is well formed when its symbols are neither blank nor repeated and its descriptors are
not blank.  Of several faults the one of the earliest entry counts, and within an entry the symbol
comes before the descriptors.
-/

namespace TraitIndex

structure Entry where
  symbol : String
  descriptors : List Descriptor
  deriving DecidableEq, Repr, Inhabited

structure Fragment where
  scope : Option String
  entries : List Entry
  deriving DecidableEq, Repr, Inhabited

namespace Fragment

def symbols (fragment : Fragment) : List String :=
  fragment.entries.map Entry.symbol

/-- The descriptors of the first entry for the symbol. -/
def get? (fragment : Fragment) (symbol : String) : Option (List Descriptor) :=
  (fragment.entries.find? fun entry => entry.symbol = symbol).map Entry.descriptors

def size (fragment : Fragment) : Nat :=
  fragment.entries.length

def isEmpty (fragment : Fragment) : Bool :=
  fragment.entries.isEmpty

def descriptorCount (fragment : Fragment) : Nat :=
  (fragment.entries.flatMap Entry.descriptors).length

inductive Fault where
  | blankSymbol (index : Nat)
  | duplicateSymbol (symbol : String)
  | blankDescriptor (symbol : String) (index : Nat)
  deriving DecidableEq, Repr

namespace Fault

def message : Fault → String
  | blankSymbol index => s!"fragment entry {index} has a blank symbol name"
  | duplicateSymbol symbol => s!"fragment declares symbol more than once: {symbol}"
  | blankDescriptor symbol index => s!"descriptor {index} of symbol `{symbol}` is blank"

end Fault

/-- The fault of one entry, given the symbols before it and its position. -/
def entryFault? (earlier : List String) (position : Nat) (entry : Entry) : Option Fault :=
  if Text.allBlank entry.symbol then some (.blankSymbol position)
  else if entry.symbol ∈ earlier then some (.duplicateSymbol entry.symbol)
  else
    (entry.descriptors.findIdx? fun descriptor => !descriptor.isWellFormed).map
      (.blankDescriptor entry.symbol)

/-- The first fault of the entries that follow those for the symbols `earlier`. -/
def firstFault? (earlier : List String) (position : Nat) : List Entry → Option Fault
  | [] => none
  | entry :: entries =>
      match entryFault? earlier position entry with
      | some fault => some fault
      | none => firstFault? (entry.symbol :: earlier) (position + 1) entries

def fault? (fragment : Fragment) : Option Fault :=
  firstFault? [] 0 fragment.entries

def WellFormed (fragment : Fragment) : Prop :=
  fragment.fault? = none

instance (fragment : Fragment) : Decidable fragment.WellFormed :=
  inferInstanceAs (Decidable (fragment.fault? = none))

end Fragment

end TraitIndex
