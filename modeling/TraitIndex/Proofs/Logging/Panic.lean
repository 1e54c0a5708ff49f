import Mathlib.Data.List.Forall2
import TraitIndex.Logging.Panic
import TraitIndex.Proofs.Text.Decoding

/-!
# Payloads on one line

A payload is shown character by character, with a blank for each line break.  Of a long one as many
characters are shown as the limit allows, with dots behind them.  The dots do not count, and they
are no line breaks; so what is shown of a text is also what is shown of itself.
-/

namespace TraitIndex.Logging

/-- Holds of a character and of the one that is shown for it. -/
inductive Shown : Char → Char → Prop where
  | lineFeed : Shown '\n' ' '
  | carriageReturn : Shown '\r' ' '
  | itself {character : Char} (notFeed : character ≠ '\n') (notReturn : character ≠ '\r') :
      Shown character character

/-- Holds of a text and of the one line that shows all of it. -/
def OneLine (text line : String) : Prop :=
  List.Forall₂ Shown text.toList line.toList

/-- Holds of a text and of what is shown of it within a limit. -/
inductive ShownWithin (limit : Nat) (text : String) : String → Prop where
  | whole {line : String} (shows : OneLine text line) (fits : text.length ≤ limit) :
      ShownWithin limit text line
  | cut {kept rest : String} (shows : OneLine text (kept ++ rest)) (full : kept.length = limit)
      (long : limit < text.length) : ShownWithin limit text (kept ++ "...")

/-- Holds of a text without line breaks. -/
def Unbroken (text : String) : Prop :=
  ∀ character ∈ text.toList, character ≠ '\n' ∧ character ≠ '\r'

instance (text : String) : Decidable (Unbroken text) :=
  List.decidableBAll (fun character => character ≠ '\n' ∧ character ≠ '\r') text.toList

theorem unbroken_append_iff {text further : String} :
    Unbroken (text ++ further) ↔ Unbroken text ∧ Unbroken further := by
  rw [Unbroken, String.toList_append, List.forall_mem_append, Unbroken, Unbroken]

theorem shown_iff {given shown : Char} : Shown given shown ↔ flatten given = shown := by
  rw [flatten]
  constructor
  · intro isShown
    cases isShown with
    | lineFeed => rfl
    | carriageReturn => rfl
    | itself notFeed notReturn => simp [notFeed, notReturn]
  · rintro rfl
    split
    · rename_i isBreak
      rcases isBreak with rfl | rfl
      · exact .lineFeed
      · exact .carriageReturn
    · rename_i noBreak
      rw [not_or] at noBreak
      exact .itself noBreak.1 noBreak.2

/-- No line break is shown for anything. -/
theorem Shown.unbroken {given shown : Char} (isShown : Shown given shown) :
    shown ≠ '\n' ∧ shown ≠ '\r' := by
  cases isShown with
  | lineFeed => decide
  | carriageReturn => decide
  | itself notFeed notReturn => exact ⟨notFeed, notReturn⟩

theorem oneLine_iff {text line : String} :
    OneLine text line ↔ text.toList.map flatten = line.toList := by
  have same : Shown = fun given shown => flatten given = shown := by
    funext given shown
    exact propext shown_iff
  rw [OneLine, same, ← List.forall₂_map_left_iff, List.forall₂_eq_eq_eq]

theorem oneLine_self_iff {line : String} : OneLine line line ↔ Unbroken line := by
  rw [OneLine, List.forall₂_same]
  constructor
  · intro shows character mem
    exact (shows character mem).unbroken
  · intro unbroken character mem
    exact .itself (unbroken character mem).1 (unbroken character mem).2

namespace OneLine

variable {text line : String}

theorem unbroken (shows : OneLine text line) : Unbroken line := by
  intro character mem
  rw [← oneLine_iff.mp shows] at mem
  rcases List.mem_map.mp mem with ⟨given, _, isShown⟩
  exact (shown_iff.mpr isShown).unbroken

theorem eq {other : String} (shows : OneLine text line) (showsOther : OneLine text other) :
    other = line := by
  rw [← String.toList_inj, ← oneLine_iff.mp shows, oneLine_iff.mp showsOther]

theorem length_eq (shows : OneLine text line) : line.length = text.length := by
  rw [← String.length_toList, ← String.length_toList, List.Forall₂.length_eq shows]

end OneLine

section Sanitize

variable {limit : Nat} {text shown : String}

theorem sanitize_of_shownWithin (shows : ShownWithin limit text shown) :
    sanitize limit text = shown := by
  cases shows with
  | whole shows fits =>
      have short : ¬ limit < shown.toList.length := by
        rw [String.length_toList, shows.length_eq]
        exact Nat.not_lt.mpr fits
      rw [sanitize, oneLine_iff.mp shows]
      simp only [if_neg short, String.ofList_toList]
  | @cut kept rest shows full long =>
      have beyond : limit < (kept ++ rest).toList.length := by
        rwa [String.length_toList, shows.length_eq]
      have front : (kept ++ rest).toList.take limit = kept.toList := by
        rw [String.toList_append, ← full, ← String.length_toList, List.take_left]
      rw [sanitize, oneLine_iff.mp shows]
      simp only [if_pos beyond, front, String.ofList_append, String.ofList_toList]

theorem shownWithin_sanitize (limit : Nat) (text : String) :
    ShownWithin limit text (sanitize limit text) := by
  have shows : OneLine text (String.ofList (text.toList.map flatten)) :=
    oneLine_iff.mpr String.toList_ofList.symm
  rw [sanitize]
  split
  · rename_i beyond
    rw [← List.take_append_drop limit (text.toList.map flatten), String.ofList_append] at shows
    rw [String.ofList_append]
    refine .cut shows ?_ ?_
    · rw [String.length_ofList, List.length_take_of_le (Nat.le_of_lt beyond)]
    · rwa [List.length_map, String.length_toList] at beyond
  · rename_i short
    rw [List.length_map, String.length_toList, Nat.not_lt] at short
    exact .whole shows short

theorem ShownWithin.unbroken (shows : ShownWithin limit text shown) : Unbroken shown := by
  cases shows with
  | whole shows _ => exact shows.unbroken
  | cut shows _ _ =>
      exact unbroken_append_iff.mpr ⟨(unbroken_append_iff.mp shows.unbroken).1, by decide +kernel⟩

theorem ShownWithin.length_le (shows : ShownWithin limit text shown) :
    shown.length ≤ limit + "...".length := by
  cases shows with
  | whole shows fits =>
      rw [shows.length_eq]
      exact Nat.le_add_right_of_le fits
  | cut _ full _ => exact Nat.le_of_eq (by rw [String.length_append, full])

/-- A cut goes through no character: the bytes in front of it are a text. -/
theorem ShownWithin.boundary (shows : ShownWithin limit text shown) {line : String}
    (whole : OneLine text line) :
    ∃ size kept, Text.Utf8.decode? ((Text.Utf8.encode line.toList).take size) = some kept ∧
      (shown = String.ofList kept ∨ shown = String.ofList kept ++ "...") := by
  cases shows with
  | whole shows _ =>
      refine ⟨(Text.Utf8.encode line.toList).length, line.toList, ?_, .inl ?_⟩
      · rw [List.take_length, Text.Utf8.decode?_eq_some_iff]
      · rw [String.ofList_toList, shows.eq whole]
  | @cut kept rest shows _ _ =>
      refine ⟨(Text.Utf8.encode kept.toList).length, kept.toList, ?_, .inr ?_⟩
      · have bytes : Text.Utf8.encode line.toList =
            Text.Utf8.encode kept.toList ++ Text.Utf8.encode rest.toList := by
          rw [← whole.eq shows, String.toList_append]
          exact List.flatMap_append
        rw [bytes, List.take_left, Text.Utf8.decode?_eq_some_iff]
      · rw [String.ofList_toList]

/-- What is shown of a text is shown of itself, also if it is longer than the limit: then it is cut
at the same place. -/
theorem ShownWithin.self (shows : ShownWithin limit text shown) :
    ShownWithin limit shown shown := by
  have oneLine : OneLine shown shown := oneLine_self_iff.mpr shows.unbroken
  cases shows with
  | whole shows fits =>
      rw [← shows.length_eq] at fits
      exact .whole oneLine fits
  | cut _ full _ =>
      refine .cut oneLine full ?_
      rw [String.length_append, full]
      exact Nat.lt_add_of_pos_right (by decide)

end Sanitize

/-- What is known of the text that is shown for another one within a limit. -/
structure Confined (limit : Nat) (text shown : String) : Prop where
  determined : ∀ other, ShownWithin limit text other ↔ other = shown
  unbroken : Unbroken shown
  bounded : shown.length ≤ limit + "...".length
  boundary : ∀ line, OneLine text line → ∃ size kept,
    Text.Utf8.decode? ((Text.Utf8.encode line.toList).take size) = some kept ∧
      (shown = String.ofList kept ∨ shown = String.ofList kept ++ "...")
  again : sanitize limit shown = shown

/-- Whatever a text holds and however small the limit is, one short line is shown for it, and the
same line for that. -/
theorem confined_sanitize (limit : Nat) (text : String) :
    Confined limit text (sanitize limit text) := by
  have shows := shownWithin_sanitize limit text
  refine ⟨?_, shows.unbroken, shows.length_le, fun _ => shows.boundary, ?_⟩
  · intro other
    constructor
    · intro showsOther
      exact (sanitize_of_shownWithin showsOther).symm
    · rintro rfl
      exact shows
  · exact sanitize_of_shownWithin shows.self

example : sanitize 0 "\r\n" = "..." := by
  decide +kernel

theorem message_panicked (location : String) (payload : Payload) :
    (panicked location payload).message =
      "event=panic_captured module=core status=error location=" ++ location ++ " payload=" ++
        payload.summary := by
  rw [← String.toList_inj]
  simp [panicked, Log.Record.message, Log.Status.name, toString]

theorem Payload.unbroken_summary (payload : Payload) : Unbroken payload.summary := by
  cases payload with
  | text content => exact (shownWithin_sanitize payloadLimit content).unbroken
  | other => exact (shownWithin_sanitize payloadLimit "non-string panic payload").unbroken

/-- The record of a panic takes one line, whatever the payload is. -/
theorem unbroken_panicked {location : String} (unbroken : Unbroken location) (payload : Payload) :
    Unbroken (panicked location payload).message := by
  rw [message_panicked, unbroken_append_iff, unbroken_append_iff, unbroken_append_iff]
  exact ⟨⟨⟨by decide +kernel, unbroken⟩, by decide +kernel⟩, payload.unbroken_summary⟩

end TraitIndex.Logging
