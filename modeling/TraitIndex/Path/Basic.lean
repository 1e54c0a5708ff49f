import TraitIndex.Text.Utf8

/-!
# Paths

A path is a byte string cut into segments by slashes.  It denotes a list of components: empty
segments and inner single dots leave none, a leading slash and a leading single dot each leave one,
and double dots are kept.  Paths are compared by their components.
-/

namespace TraitIndex

abbrev Name := List UInt8

structure Path where
  bytes : List UInt8
  deriving DecidableEq, Repr, Inhabited

namespace Path

inductive Component where
  | root
  | current
  | parent
  | name (bytes : Name)
  deriving DecidableEq, Repr

def slash : UInt8 := 0x2F

def dot : UInt8 := 0x2E

def splitSlashes : List UInt8 → List Name
  | [] => [[]]
  | byte :: rest =>
      if byte = slash then [] :: splitSlashes rest
      else
        match splitSlashes rest with
        | [] => [[byte]]
        | segment :: segments => (byte :: segment) :: segments

def ofString (text : String) : Path :=
  ⟨Text.Utf8.encode text.toList⟩

/-- The path as a text, with replacement characters where it is not UTF-8. -/
def display (path : Path) : String :=
  String.ofList (Text.Utf8.decodeLossy path.bytes)

def isAbsolute (path : Path) : Bool :=
  path.bytes.head? = some slash

def segments (path : Path) : List Name :=
  splitSlashes path.bytes

/-- The component of a segment that is not the first of a relative path. -/
def Component.ofSegment? (segment : Name) : Option Component :=
  if segment = [] ∨ segment = [dot] then none
  else if segment = [dot, dot] then some .parent
  else some (.name segment)

def components (path : Path) : List Component :=
  if path.isAbsolute then .root :: path.segments.filterMap Component.ofSegment?
  else
    match path.segments with
    | [] => []
    | segment :: segments =>
        if segment = [dot] then .current :: segments.filterMap Component.ofSegment?
        else (segment :: segments).filterMap Component.ofSegment?

/-- Holds of paths with the same components. -/
def Same (left right : Path) : Prop :=
  left.components = right.components

instance (left right : Path) : Decidable (Same left right) :=
  inferInstanceAs (Decidable (left.components = right.components))

/-- The path of an entry of the directory at `path`. -/
def join (path : Path) (name : Name) : Path :=
  if path.bytes = [] ∨ path.bytes.getLast? = some slash then ⟨path.bytes ++ name⟩
  else ⟨path.bytes ++ slash :: name⟩

/-- The last component, if it is a name. -/
def fileName? (path : Path) : Option Name :=
  match path.components.getLast? with
  | some (.name name) => some name
  | _ => none

def Component.bytes : Component → List UInt8
  | .root => [slash]
  | .current => [dot]
  | .parent => [dot, dot]
  | .name bytes => bytes

/-- The text of a component, unless it is not UTF-8. -/
def Component.text? (component : Component) : Option String :=
  (Text.Utf8.decode? component.bytes).map String.ofList

def ofComponents : List Component → Path
  | [] => ⟨[]⟩
  | .root :: components =>
      ⟨slash :: [slash].intercalate (components.map Component.bytes)⟩
  | components => ⟨[slash].intercalate (components.map Component.bytes)⟩

/-- The path itself and the paths of the directories above it, the nearest first, without the root
directory and the directory that relative paths start from. -/
def ancestors (path : Path) : List Path :=
  let components := path.components
  let fixed := if path.isAbsolute then 1 else 0
  let above := (List.range components.length).reverse.filter fun count => fixed < count
  path :: above.map fun count => ofComponents (components.take count)

/-- What is left of the components of `path` below those of `root`. -/
def below? (root path : Path) : Option (List Component) :=
  if root.components.isPrefixOf path.components then
    some (path.components.drop root.components.length)
  else none

end Path

end TraitIndex
