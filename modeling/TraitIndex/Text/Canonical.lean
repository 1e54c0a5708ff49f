import TraitIndex.Text.Blank

/-!
# Canonical names

Names of policies and levels are compared in canonical form: without the blanks around them and
with the ASCII letters in lower case.  Letters outside ASCII keep their case.
-/

namespace TraitIndex.Text

/-- Lowers the ASCII letters and keeps every other character. -/
def lower (text : String) : String :=
  String.ofList (text.toList.map Char.toLower)

def canonical (text : String) : String :=
  lower (trim text)

end TraitIndex.Text
