import TraitIndex.Json.Descriptor
import TraitIndex.Proofs.Json.StringRoundTrip
import TraitIndex.Proofs.Json.WrittenSequence

/-!
# Descriptors survive JSON

A descriptor is read from the texts that consist of one string and blanks, and from no others.  What
is written for a descriptor is one of the strings that spell its text.  As a text is read as one
descriptor at most, no two descriptors are written alike.
-/

namespace TraitIndex

namespace Json

/-- Holds of the texts that consist of a string with the given content and blanks around it. -/
inductive HoldsOnly (content : String) : List Char → Prop where
  | padded {before token after : List Char} (blankBefore : before.all isBlank = true)
      (spelt : SpellsString content token) (blankAfter : after.all isBlank = true) :
      HoldsOnly content (before ++ (token ++ after))

theorem readOnlyString_eq_ok_iff_stages {expected content : String} {text : List Char} :
    readOnlyString expected text = .ok content ↔
      ∃ rest after, skipBlanks text = '"' :: rest ∧ readString [] rest = .ok (content, after) ∧
        skipBlanks after = [] := by
  constructor
  · intro found
    unfold readOnlyString at found
    split at found
    · cases found
    · rename_i first rest skipped
      split at found
      · rename_i quote
        subst quote
        rcases read : readString [] rest with failure | ⟨own, after⟩
        · simp [read] at found
        · simp only [read] at found
          split at found
          · rename_i atEnd
            cases found
            exact ⟨rest, after, skipped, read, atEnd⟩
          · cases found
      · cases found
  · rintro ⟨rest, after, skipped, read, atEnd⟩
    rw [readOnlyString, skipped]
    simp [read, atEnd]

theorem readOnlyString_eq_ok_iff {expected content : String} {text : List Char} :
    readOnlyString expected text = .ok content ↔ HoldsOnly content text := by
  have quoteVisible : ∀ rest : List Char, ∀ first ∈ ('"' :: rest).head?, isBlank first = false := by
    intro rest first head
    cases head
    decide
  rw [readOnlyString_eq_ok_iff_stages]
  constructor
  · rintro ⟨rest, after, skipped, read, atEnd⟩
    rcases (skipBlanks_eq_iff (quoteVisible rest)).mp skipped with ⟨before, blankBefore, rfl⟩
    rcases readString_eq_ok_iff.mp read with ⟨token, spelt, starts⟩
    rcases (skipBlanks_eq_iff (by simp)).mp atEnd with ⟨gap, blankAfter, rfl⟩
    rw [starts, List.append_nil]
    exact .padded blankBefore spelt blankAfter
  · rintro ⟨blankBefore, ⟨spelt⟩, blankAfter⟩
    rename_i before after inner
    refine ⟨inner ++ '"' :: after, after, ?_, ?_, ?_⟩
    · exact (skipBlanks_eq_iff (quoteVisible _)).mpr ⟨before, blankBefore, by simp⟩
    · simpa using readString_of_spells spelt [] after
    · exact (skipBlanks_eq_iff (by simp)).mpr ⟨after, blankAfter, by simp⟩

end Json

namespace Descriptor

open Json

theorem ofJson_eq_ok_iff {text : String} {descriptor : Descriptor} :
    ofJson text = .ok descriptor ↔ HoldsOnly descriptor.text text.toList := by
  rw [← @readOnlyString_eq_ok_iff "a string", ofJson]
  rcases readOnlyString "a string" text.toList with failure | content
  · simp
  · rcases descriptor with ⟨own⟩
    simp

theorem toList_compact_toJson (descriptor : Descriptor) :
    descriptor.toJson.compact.toList = writeString descriptor.text := by
  rw [Value.compact, String.toList_ofList, toJson, writeCompact]

theorem spellsString_toJson (descriptor : Descriptor) :
    SpellsString descriptor.text descriptor.toJson.compact.toList := by
  rw [toList_compact_toJson]
  exact spellsString_writeString descriptor.text

theorem ofJson_padded (descriptor : Descriptor) {before after : List Char}
    (blankBefore : before.all isBlank = true) (blankAfter : after.all isBlank = true) :
    ofJson (String.ofList (before ++ (descriptor.toJson.compact.toList ++ after))) =
      .ok descriptor := by
  rw [ofJson_eq_ok_iff, String.toList_ofList]
  exact .padded blankBefore (spellsString_toJson descriptor) blankAfter

theorem ofJson_toJson (descriptor : Descriptor) :
    ofJson descriptor.toJson.compact = .ok descriptor := by
  have unpadded := @ofJson_padded descriptor [] [] rfl rfl
  rwa [List.nil_append, List.append_nil, String.ofList_toList] at unpadded

/-- What JSON preserves of a descriptor. -/
structure SurvivesJson (descriptor : Descriptor) : Prop where
  written : SpellsString descriptor.text descriptor.toJson.compact.toList
  read : ∀ before after : List Char, before.all isBlank = true → after.all isBlank = true →
    ofJson (String.ofList (before ++ (descriptor.toJson.compact.toList ++ after))) = .ok descriptor
  alone : ∀ other : Descriptor, other.toJson.compact = descriptor.toJson.compact →
    other = descriptor
  accepted : ∀ text, ofJson text = .ok descriptor ↔ HoldsOnly descriptor.text text.toList
  again : ∀ text, ofJson text = .ok descriptor → ofJson descriptor.toJson.compact = ofJson text

/-- Every descriptor, blank ones included, is read back from what is written for it, and it is read
from no texts but those that hold one string, which spells its text. -/
theorem survivesJson (descriptor : Descriptor) : SurvivesJson descriptor where
  written := spellsString_toJson descriptor
  read := by
    intro before after blankBefore blankAfter
    exact ofJson_padded descriptor blankBefore blankAfter
  alone := by
    intro other alike
    have own := ofJson_toJson other
    rw [alike, ofJson_toJson] at own
    cases own
    rfl
  accepted _ := ofJson_eq_ok_iff
  again := by
    intro text found
    rw [ofJson_toJson, found]

/-- Quotes and control characters are escaped, the others stand for themselves; what is read can be
spelt otherwise, here by a surrogate pair. -/
theorem survivesJson_escaped :
    let descriptor : Descriptor := ⟨"\"\\\x1f\x7f😀"⟩
    let text := "\n\"\\\"\\\\\\u001F\x7f\\ud83d\\uDE00\" "
    descriptor.toJson.compact = "\"\\\"\\\\\\u001f\x7f😀\"" ∧ ofJson text = .ok descriptor ∧
      ofJson descriptor.toJson.compact = .ok descriptor := by
  intro descriptor text
  have read : (ofJson text).toOption = some descriptor := by decide +kernel
  have found : ofJson text = .ok descriptor := by
    rcases own : ofJson text with failure | other
    · rw [own] at read
      cases read
    · rw [own] at read
      cases read
      rfl
  refine ⟨by decide +kernel, found, ?_⟩
  rw [(survivesJson descriptor).again text found, found]

end Descriptor

end TraitIndex
