import Mathlib.Tactic.SplitIfs
import TraitIndex.Json.Writer
import TraitIndex.Proofs.Json.StringGrammar

/-!
# Written strings are read back

The grammar of strings has every escape that is written, for the character that it is written for,
and a character that is written as it is may stand for itself.  So what is written for a text is one
of the strings that spell it, and it is read back, whatever stands behind it.
-/

namespace TraitIndex.Json

theorem isHexDigit_hexDigit {value : Nat} (small : value < 16) :
    IsHexDigit value (hexDigit value) := by
  have all : ∀ digit : Fin 16, IsHexDigit digit.val (hexDigit digit.val) := by decide
  exact all ⟨value, small⟩

theorem writesUnit_hexDigits {value : Nat} (small : value < 256) :
    WritesUnit value ['0', '0', hexDigit (value / 16), hexDigit (value % 16)] := by
  have zero : IsHexDigit 0 '0' := by decide
  have same : ((0 * 16 + 0) * 16 + value / 16) * 16 + value % 16 = value := by omega
  have written := WritesUnit.digits zero zero (@isHexDigit_hexDigit (value / 16) (by omega))
    (@isHexDigit_hexDigit (value % 16) (by omega))
  rwa [same] at written

theorem Spells.escapeChar {characters text : List Char} (others : Spells characters text)
    (character : Char) : Spells (character :: characters) (escapeChar character ++ text) := by
  have byLetter : ∀ {letter own : Char}, (letter, own) ∈ letterEscapes →
      Spells (own :: characters) ('\\' :: letter :: text) :=
    fun listed => .escape (.letter listed) others
  unfold Json.escapeChar
  split_ifs with quote backslash backspace formFeed lineFeed carriageReturn tab control
  · subst quote
    exact byLetter (by decide)
  · subst backslash
    exact byLetter (by decide)
  · subst backspace
    exact byLetter (by decide)
  · subst formFeed
    exact byLetter (by decide)
  · subst lineFeed
    exact byLetter (by decide)
  · subst carriageReturn
    exact byLetter (by decide)
  · subst tab
    exact byLetter (by decide)
  · exact .escape (.codeUnit (writesUnit_hexDigits (by omega))) others
  · exact .plain quote backslash (Nat.not_lt.mp control) others

theorem spells_escaped (characters : List Char) :
    Spells characters (characters.flatMap escapeChar) := by
  induction characters with
  | nil => exact .nil
  | cons character characters ih => exact ih.escapeChar character

/-- What is written for a text is one of the strings that spell it. -/
theorem spellsString_writeString (text : String) : SpellsString text (writeString text) :=
  .quoted (spells_escaped text.toList)

theorem readString_writeString (text : String) (rest : List Char) :
    ∃ inner, writeString text ++ rest = '"' :: inner ∧ readString [] inner = .ok (text, rest) := by
  refine ⟨text.toList.flatMap escapeChar ++ '"' :: rest, by simp [writeString], ?_⟩
  exact readString_eq_ok_iff.mpr ⟨_, spellsString_writeString text, by simp [writeString]⟩

end TraitIndex.Json
