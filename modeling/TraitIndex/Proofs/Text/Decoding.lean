import Mathlib.Data.List.Forall2
import TraitIndex.Proofs.Text.Utf8

/-!
# Which bytes can be read as a text

The ranges of the bytes of a character leave one way to write it: the bytes of a piece that is read
as a character are those that the character is written in.  So the byte strings that can be read as
texts are those that texts are written in, and different byte strings are read as different texts.
-/

namespace TraitIndex

/-- All items of a list have results if and only if each of them has its own. -/
theorem mapM_eq_some_iff {α β : Type} {result? : α → Option β} {items : List α}
    {results : List β} :
    items.mapM result? = some results ↔
      List.Forall₂ (fun item result => result? item = some result) items results := by
  induction items generalizing results with
  | nil => cases results <;> simp
  | cons item items ih =>
      simp only [List.mapM_cons, Option.bind_eq_bind, Option.bind_eq_some_iff, ih,
        Option.pure_def, Option.some.injEq]
      constructor
      · rintro ⟨result, first, others, rest, rfl⟩
        exact .cons first rest
      · rintro (_ | ⟨first, rest⟩)
        exact ⟨_, first, _, rest, rfl⟩

namespace Text.Utf8

section Tails

variable {count : Nat} {low high : UInt8} {bytes : List UInt8}

theorem tails_succ (found : tails (count + 1) low high bytes ≠ []) :
    ∃ second rest, bytes = second :: rest ∧ low ≤ second ∧ second ≤ high ∧
      tails (count + 1) low high bytes = second :: tails count 0x80 0xBF rest := by
  cases bytes with
  | nil => exact absurd rfl found
  | cons second rest =>
      rw [tails] at found ⊢
      split at found
      · rename_i within
        rw [Bool.and_eq_true, decide_eq_true_eq, decide_eq_true_eq] at within
        exact ⟨second, rest, rfl, within.1, within.2, by simp [within]⟩
      · exact absurd rfl found

theorem tails_prefix (count : Nat) (bytes : List UInt8) :
    tails count 0x80 0xBF bytes <+: bytes := by
  induction count generalizing bytes with
  | zero => cases bytes <;> exact List.nil_prefix
  | succ count ih =>
      by_cases found : tails (count + 1) 0x80 0xBF bytes = []
      · rw [found]
        exact List.nil_prefix
      · rcases tails_succ found with ⟨second, rest, rfl, _, _, same⟩
        rw [same, List.cons_prefix_cons]
        exact ⟨rfl, ih rest⟩

theorem isContinuation_of_mem_tails {byte : UInt8} (mem : byte ∈ tails count 0x80 0xBF bytes) :
    IsContinuation byte := by
  induction count generalizing bytes with
  | zero => cases bytes <;> cases mem
  | succ count ih =>
      rcases tails_succ (List.ne_nil_of_mem mem) with ⟨second, rest, rfl, low, high, same⟩
      rw [same, List.mem_cons] at mem
      rcases mem with rfl | mem
      · exact ⟨low, high⟩
      · exact ih mem

/-- If there are as many bytes as are asked for, the byte string is cut behind them. -/
theorem exists_append_of_full (full : (tails (count + 1) low high bytes).length = count + 1) :
    ∃ second further left, bytes = second :: further ++ left ∧ further.length = count ∧
      tails (count + 1) low high bytes = second :: further ∧ low ≤ second ∧ second ≤ high ∧
      ∀ byte ∈ further, IsContinuation byte := by
  have found : tails (count + 1) low high bytes ≠ [] := by
    intro empty
    rw [empty] at full
    cases full
  rcases tails_succ found with ⟨second, others, rfl, least, greatest, same⟩
  rcases tails_prefix count others with ⟨left, cut⟩
  rw [same, List.length_cons, Nat.succ_inj] at full
  refine ⟨second, tails count 0x80 0xBF others, left, ?_, full, same, least, greatest, ?_⟩
  · rw [List.cons_append, cut]
  · intro byte mem
    exact isContinuation_of_mem_tails mem

end Tails

/-- The number that is spelt by a first byte and the bytes that belong to it. -/
def codeOf (first : UInt8) (further : List UInt8) : Nat :=
  further.foldl (fun code byte => code * 64 + (byte.toNat - 0x80))
    (leadBits first further.length)

/-- Holds of the bytes that belong to a first byte. -/
inductive Belong (first : UInt8) : List UInt8 → Prop where
  | alone (small : first.toNat < 0x80) : Belong first []
  | further {second : UInt8} {further : List UInt8}
      (asked : tailCount first = further.length + 1)
      (low : (secondLow first).toNat ≤ second.toNat)
      (high : second.toNat ≤ (secondHigh first).toNat)
      (continuing : ∀ byte ∈ further, IsContinuation byte) : Belong first (second :: further)

variable {first : UInt8} {rest : List UInt8} {character : Char} {taken : Nat}

/-- What is read as a character spells its number. -/
theorem exists_belong_of_piece (read : piece first rest = (some character, taken)) :
    ∃ further left, rest = further ++ left ∧ further.length = taken ∧ Belong first further ∧
      character = Char.ofNat (if further = [] then first.toNat else codeOf first further) := by
  unfold piece at read
  split at read
  · rename_i small
    rw [Prod.mk.injEq, Option.some.injEq] at read
    rcases read with ⟨rfl, rfl⟩
    exact ⟨[], rest, rfl, rfl, .alone (UInt8.lt_iff_toNat_lt.mp small), by simp⟩
  · simp only at read
    split at read
    · rename_i complete
      rw [Prod.mk.injEq, Option.some.injEq] at read
      rcases read with ⟨rfl, rfl⟩
      rcases complete with ⟨some, full⟩
      rcases Nat.exists_eq_succ_of_ne_zero some with ⟨count, asked⟩
      rw [asked] at full ⊢
      rcases exists_append_of_full full with
        ⟨second, further, left, rfl, rfl, same, low, high, continuing⟩
      refine ⟨second :: further, left, rfl, rfl, .further asked ?_ ?_ continuing, ?_⟩
      · exact UInt8.le_iff_toNat_le.mp low
      · exact UInt8.le_iff_toNat_le.mp high
      · simp only [same, codeOf, List.length_cons, if_neg (List.cons_ne_nil second further)]
    · cases read

section Spelling

/-- The bytes that the character with the given number is written in. -/
theorem encodeChar_ofNat {code : Nat} (valid : code.isValidChar) :
    String.utf8EncodeChar (Char.ofNat code) =
      if code ≤ 0x7F then [UInt8.ofNat code]
      else if code ≤ 0x7FF then
        [UInt8.ofNat (code / 64 % 32 + 192), UInt8.ofNat (code % 64 + 128)]
      else if code ≤ 0xFFFF then
        [UInt8.ofNat (code / 4096 % 16 + 224), UInt8.ofNat (code / 64 % 64 + 128),
          UInt8.ofNat (code % 64 + 128)]
      else
        [UInt8.ofNat (code / 262144 % 8 + 240), UInt8.ofNat (code / 4096 % 64 + 128),
          UInt8.ofNat (code / 64 % 64 + 128), UInt8.ofNat (code % 64 + 128)] := by
  have value : (Char.ofNat code).val.toNat = code := by
    rw [Char.ofNat, dif_pos valid]
    rfl
  rw [String.utf8EncodeChar]
  simp only [value]

theorem ofNat_eq_of_toNat (byte : UInt8) {number : Nat} (same : number = byte.toNat) :
    UInt8.ofNat number = byte := by
  rw [same, UInt8.ofNat_toNat]

theorem IsContinuation.bounds {byte : UInt8} (continuing : IsContinuation byte) :
    0x80 ≤ byte.toNat ∧ byte.toNat ≤ 0xBF := by
  simpa [IsContinuation, UInt8.le_iff_toNat_le] using continuing

/-- The range of the first bytes that so many others belong to. -/
theorem first_of_tailCount {count : Nat} (asked : tailCount first = count + 1) :
    count = 0 ∧ 0xC2 ≤ first.toNat ∧ first.toNat ≤ 0xDF ∨
      count = 1 ∧ 0xE0 ≤ first.toNat ∧ first.toNat ≤ 0xEF ∨
        count = 2 ∧ 0xF0 ≤ first.toNat ∧ first.toNat ≤ 0xF4 := by
  rw [tailCount_eq] at asked
  split_ifs at asked <;> omega

variable {second third fourth : UInt8}

theorem encodeChar_twoBytes (lead : 0xC2 ≤ first.toNat ∧ first.toNat ≤ 0xDF)
    (bounds : 0x80 ≤ second.toNat ∧ second.toNat ≤ 0xBF) :
    String.utf8EncodeChar (Char.ofNat (codeOf first [second])) = [first, second] := by
  have code : codeOf first [second] = (first.toNat - 0xC0) * 64 + (second.toNat - 0x80) := rfl
  have valid : (codeOf first [second]).isValidChar := by
    rw [code]
    exact .inl (by omega)
  rw [encodeChar_ofNat valid, code, if_neg (by omega), if_pos (by omega),
    ofNat_eq_of_toNat first (by omega), ofNat_eq_of_toNat second (by omega)]

theorem encodeChar_threeBytes (lead : 0xE0 ≤ first.toNat ∧ first.toNat ≤ 0xEF)
    (bounds : 0x80 ≤ second.toNat ∧ second.toNat ≤ 0xBF)
    (notShorter : first.toNat = 0xE0 → 0xA0 ≤ second.toNat)
    (notSurrogate : first.toNat = 0xED → second.toNat ≤ 0x9F)
    (continuing : IsContinuation third) :
    String.utf8EncodeChar (Char.ofNat (codeOf first [second, third])) =
      [first, second, third] := by
  have code : codeOf first [second, third] =
      ((first.toNat - 0xE0) * 64 + (second.toNat - 0x80)) * 64 + (third.toNat - 0x80) := rfl
  have last := continuing.bounds
  have valid : (codeOf first [second, third]).isValidChar := by
    rw [code, Nat.isValidChar]
    omega
  rw [encodeChar_ofNat valid, code, if_neg (by omega), if_neg (by omega), if_pos (by omega),
    ofNat_eq_of_toNat first (by omega), ofNat_eq_of_toNat second (by omega),
    ofNat_eq_of_toNat third (by omega)]

theorem encodeChar_fourBytes (lead : 0xF0 ≤ first.toNat ∧ first.toNat ≤ 0xF4)
    (bounds : 0x80 ≤ second.toNat ∧ second.toNat ≤ 0xBF)
    (notShorter : first.toNat = 0xF0 → 0x90 ≤ second.toNat)
    (notBeyond : first.toNat = 0xF4 → second.toNat ≤ 0x8F)
    (continuing : IsContinuation third) (ending : IsContinuation fourth) :
    String.utf8EncodeChar (Char.ofNat (codeOf first [second, third, fourth])) =
      [first, second, third, fourth] := by
  have code : codeOf first [second, third, fourth] =
      (((first.toNat - 0xF0) * 64 + (second.toNat - 0x80)) * 64 + (third.toNat - 0x80)) * 64 +
        (fourth.toNat - 0x80) := rfl
  have inner := continuing.bounds
  have last := ending.bounds
  have valid : (codeOf first [second, third, fourth]).isValidChar := by
    rw [code, Nat.isValidChar]
    omega
  rw [encodeChar_ofNat valid, code, if_neg (by omega), if_neg (by omega), if_neg (by omega),
    ofNat_eq_of_toNat first (by omega), ofNat_eq_of_toNat second (by omega),
    ofNat_eq_of_toNat third (by omega), ofNat_eq_of_toNat fourth (by omega)]

/-- A character is written in the bytes that it is read from. -/
theorem encodeChar_of_belong {further : List UInt8} (belong : Belong first further) :
    String.utf8EncodeChar
      (Char.ofNat (if further = [] then first.toNat else codeOf first further)) =
        first :: further := by
  cases belong with
  | alone small =>
      have valid : first.toNat.isValidChar := .inl (by omega)
      rw [if_pos rfl, encodeChar_ofNat valid, if_pos (by omega), UInt8.ofNat_toNat]
  | @further second further asked low high continuing =>
      rw [if_neg (List.cons_ne_nil _ _)]
      rw [toNat_secondLow] at low
      rw [toNat_secondHigh] at high
      have bounds : 0x80 ≤ second.toNat ∧ second.toNat ≤ 0xBF := by
        split_ifs at low high <;> omega
      rcases first_of_tailCount asked with ⟨none, lead⟩ | ⟨one, lead⟩ | ⟨two, lead⟩
      · rw [List.length_eq_zero_iff] at none
        subst none
        exact encodeChar_twoBytes lead bounds
      · rcases List.length_eq_one_iff.mp one with ⟨third, rfl⟩
        refine encodeChar_threeBytes lead bounds ?_ ?_ (continuing third (by simp))
        · intro least
          simpa [least] using low
        · intro surrogate
          simpa [surrogate] using high
      · rcases List.length_eq_two.mp two with ⟨third, fourth, rfl⟩
        refine encodeChar_fourBytes lead bounds ?_ ?_ (continuing third (by simp))
          (continuing fourth (by simp))
        · intro least
          simpa [least] using low
        · intro greatest
          simpa [greatest] using high

end Spelling

theorem encode_of_pieces {bytes : List UInt8} {characters : List Char}
    (read : pieces bytes = characters.map some) : bytes = encode characters := by
  induction characters generalizing bytes with
  | nil =>
      cases bytes with
      | nil => rfl
      | cons first rest => simp [pieces] at read
  | cons character characters ih =>
      cases bytes with
      | nil => simp [pieces] at read
      | cons first rest =>
          rcases isPiece : piece first rest with ⟨found, taken⟩
          rw [pieces, isPiece, List.map_cons, List.cons.injEq] at read
          rcases read with ⟨rfl, others⟩
          rcases exists_belong_of_piece isPiece with ⟨further, left, rfl, rfl, belong, rfl⟩
          rw [List.drop_left] at others
          rw [encode, List.flatMap_cons, encodeChar_of_belong belong, ← encode, ← ih others]
          rfl

/-- The byte strings that can be read as texts are those that texts are written in. -/
theorem decode?_eq_some_iff {bytes : List UInt8} {characters : List Char} :
    decode? bytes = some characters ↔ bytes = encode characters := by
  have asMap : List.Forall₂ (fun piece character => id piece = some character) (pieces bytes)
      characters ↔ pieces bytes = characters.map some := by
    rw [← List.forall₂_eq_eq_eq, List.forall₂_map_right_iff]
    rfl
  rw [decode?, mapM_eq_some_iff, asMap]
  constructor
  · exact encode_of_pieces
  · rintro rfl
    exact pieces_encode characters

end Text.Utf8

end TraitIndex
