import TraitIndex.Text.Visible

/-!
# Quoted texts

A text is quoted so that a reader can tell what is in it: visible characters stand for themselves,
except the quote and the backslash, and all others are given by an escape, which is a letter where
there is one and the code point otherwise.
-/

namespace TraitIndex.Text

/-- The code point of a character between braces. -/
def escapeCode (character : Char) : List Char :=
  ['\\', 'u', '\x7b'] ++ Nat.toDigits 16 character.toNat ++ ['\x7d']

/-- Shows a character of a quoted text. -/
def quoteChar (character : Char) : List Char :=
  if character = '"' then ['\\', '"']
  else if character = '\\' then ['\\', '\\']
  else if character = '\n' then ['\\', 'n']
  else if character = '\r' then ['\\', 'r']
  else if character = '\t' then ['\\', 't']
  else if character.toNat = 0 then ['\\', '0']
  else if isVisible character then [character]
  else escapeCode character

def quote (text : String) : String :=
  "\"" ++ String.ofList (text.toList.flatMap quoteChar) ++ "\""

end TraitIndex.Text
