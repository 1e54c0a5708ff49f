import TraitIndex.Text.Blank

/-!
# The assignment in a script

A script assigns a table of implementors in a declaration: a keyword, blanks, the name
`implementors`, an equals sign and the table.  Nothing is asked of what stands before the keyword,
and the first place in the script where all of this is found counts.
-/

namespace TraitIndex.Script

def keywords : List (List Char) :=
  [['v', 'a', 'r'], ['l', 'e', 't'], ['c', 'o', 'n', 's', 't']]

def tableName : List Char :=
  "implementors".toList

/-- What follows `word` at the head of a text. -/
def after? (word text : List Char) : Option (List Char) :=
  if word.isPrefixOf text then some (text.drop word.length) else none

/-- What follows the blanks at the head of a text, of which there must be one. -/
def afterBlanks? (text : List Char) : Option (List Char) :=
  if (text.head?.map Text.isBlank).getD false then some (text.dropWhile Text.isBlank) else none

/-- What is assigned by a declaration with the given keyword at the head of a text. -/
def declared? (text keyword : List Char) : Option (List Char) := do
  let text ← after? keyword text
  let text ← afterBlanks? text
  let text ← after? tableName text
  let text ← after? ['='] (text.dropWhile Text.isBlank)
  return text.dropWhile Text.isBlank

def assignedAtHead? (text : List Char) : Option (List Char) :=
  keywords.findSome? (declared? text)

/-- The text from the table on, for the first declaration of a script. -/
def literal? : List Char → Option (List Char)
  | [] => none
  | character :: rest =>
      match assignedAtHead? (character :: rest) with
      | some literal => some literal
      | none => literal? rest

end TraitIndex.Script
