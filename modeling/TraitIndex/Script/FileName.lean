import TraitIndex.Path.Basic
import TraitIndex.Script.Assignment

/-!
# Names of script files

The script for a trait is a file named `trait.`, the name of the trait, `.js`.  Finding scripts asks
for the beginning and the end of the name, each on its own; the trait is what stands between them,
and must not be empty.
-/

namespace TraitIndex.Script

def fileNameStart : List Char :=
  "trait.".toList

def fileNameEnd : List Char :=
  ".js".toList

/-- What precedes `word` at the end of a text. -/
def before? (word text : List Char) : Option (List Char) :=
  if word.isSuffixOf text then some (text.take (text.length - word.length)) else none

def isScriptName (name : Name) : Bool :=
  match Text.Utf8.decode? name with
  | none => false
  | some text => fileNameStart.isPrefixOf text && fileNameEnd.isSuffixOf text

/-- The trait that a script of the given name documents. -/
def traitName? (name : Name) : Option String := do
  let text ← Text.Utf8.decode? name
  let text ← after? fileNameStart text
  let text ← before? fileNameEnd text
  if text.isEmpty then none else some (String.ofList text)

end TraitIndex.Script
