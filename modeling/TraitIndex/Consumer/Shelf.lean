import TraitIndex.Consumer.Basic
import TraitIndex.Index.Basic

/-!
# Recorders and shared indexes

Two kinds of consumers leave what they accept on a shelf, where it can be looked at from outside
and where several consumers can leave it together.  A recorder appends fragments to a named list,
and can be told to fail.  A shared index is a named index into which fragments are folded; it never
fails.
-/

namespace TraitIndex

/-- What consumers leave for others to see, under names. -/
structure Shelf where
  lists : List (String × List Fragment)
  indexes : List (String × Index)
  deriving Inhabited

namespace Shelf

def empty : Shelf :=
  ⟨[], []⟩

/-- Changes the item of a name, which is `fresh` if there is none yet. -/
def update {α : Type} (name : String) (fresh : α) (change : α → α) :
    List (String × α) → List (String × α)
  | [] => [(name, change fresh)]
  | item :: items =>
      if item.1 = name then (name, change item.2) :: items
      else item :: update name fresh change items

def list? (shelf : Shelf) (name : String) : Option (List Fragment) :=
  shelf.lists.lookup name

def index? (shelf : Shelf) (name : String) : Option Index :=
  shelf.indexes.lookup name

/-- Makes room for a list; one that is there already stays. -/
def openList (shelf : Shelf) (name : String) : Shelf :=
  { shelf with lists := update name [] id shelf.lists }

/-- Makes room for an index; one that is there already stays, with its own policy. -/
def openIndex (shelf : Shelf) (name : String) (policy : MergePolicy) : Shelf :=
  { shelf with indexes := update name (Index.empty policy) id shelf.indexes }

def record (shelf : Shelf) (name : String) (fragment : Fragment) : Shelf :=
  { shelf with lists := update name [] (· ++ [fragment]) shelf.lists }

def apply (shelf : Shelf) (name : String) (fragment : Fragment) : Shelf :=
  { shelf with
    indexes := update name (Index.empty .append) (fun index => index.apply fragment)
      shelf.indexes }

end Shelf

inductive Trigger where
  | never
  /-- On the call with this number, counted from one. -/
  | atCall (number : Nat)
  /-- On a fragment that declares this symbol. -/
  | onSymbol (symbol : String)
  deriving DecidableEq, Repr

def Trigger.fires (trigger : Trigger) (call : Nat) (fragment : Fragment) : Bool :=
  match trigger with
  | never => false
  | atCall number => call = number
  | onSymbol symbol => (fragment.get? symbol).isSome

inductive ShelfConsumer where
  | recorder (list : String) (trigger : Trigger) (calls : Nat)
  | index (name : String)
  deriving DecidableEq, Repr

namespace ShelfConsumer

/-- A recorder that is told to fail leaves nothing, but counts the call. -/
def accept (consumer : ShelfConsumer) (fragment : Fragment) (shelf : Shelf) :
    Reaction ShelfConsumer Shelf :=
  match consumer with
  | recorder list trigger calls =>
      if trigger.fires (calls + 1) fragment then
        ⟨true, recorder list trigger (calls + 1), shelf⟩
      else ⟨false, recorder list trigger (calls + 1), shelf.record list fragment⟩
  | index name => ⟨false, index name, shelf.apply name fragment⟩

instance : Consumer ShelfConsumer Shelf :=
  ⟨accept⟩

end ShelfConsumer

end TraitIndex
