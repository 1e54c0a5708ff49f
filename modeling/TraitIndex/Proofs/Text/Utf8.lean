import Mathlib.Data.List.Basic
import TraitIndex.Text.Utf8

/-!
# Texts written as bytes and read back

A character takes from one to four bytes, the first of which tells how many follow.  The bytes that
a character is written in are cut off as one piece, whatever follows them, so a text that is written
is read back as it was, and no replacement character comes into it.
-/

namespace TraitIndex.Text.Utf8

section Rules

variable (first : UInt8)

theorem toNat_secondLow :
    (secondLow first).toNat =
      if first.toNat = 0xE0 then 0xA0 else if first.toNat = 0xF0 then 0x90 else 0x80 := by
  simp [secondLow, ← UInt8.toNat_inj, apply_ite UInt8.toNat]

theorem toNat_secondHigh :
    (secondHigh first).toNat =
      if first.toNat = 0xED then 0x9F else if first.toNat = 0xF4 then 0x8F else 0xBF := by
  simp [secondHigh, ← UInt8.toNat_inj, apply_ite UInt8.toNat]

theorem tailCount_eq :
    tailCount first =
      if 0xC2 ≤ first.toNat ∧ first.toNat ≤ 0xDF then 1
      else if 0xE0 ≤ first.toNat ∧ first.toNat ≤ 0xEF then 2
      else if 0xF0 ≤ first.toNat ∧ first.toNat ≤ 0xF4 then 3
      else 0 := by
  simp [tailCount, UInt8.le_iff_toNat_le]

end Rules

section Pieces

/-- Holds of the bytes that may continue a character behind its second byte. -/
def IsContinuation (byte : UInt8) : Prop :=
  0x80 ≤ byte ∧ byte ≤ 0xBF

theorem tails_continuations {bytes : List UInt8} (continuing : ∀ byte ∈ bytes, IsContinuation byte)
    (rest : List UInt8) : tails bytes.length 0x80 0xBF (bytes ++ rest) = bytes := by
  induction bytes with
  | nil => cases rest <;> rfl
  | cons byte bytes ih =>
      rcases continuing byte (by simp) with ⟨low, high⟩
      have others := ih fun other listed => continuing other (by simp [listed])
      simp [tails, low, high, others]

variable {first second : UInt8} {code : Nat}

/-- A first byte with as many bytes behind it as it asks for is a piece with them. -/
theorem piece_of_tails (further : List UInt8) (isLong : 0x80 ≤ first.toNat)
    (asked : tailCount first = further.length + 1)
    (low : (secondLow first).toNat ≤ second.toNat) (high : second.toNat ≤ (secondHigh first).toNat)
    (continuing : ∀ byte ∈ further, IsContinuation byte)
    (spelt : (second :: further).foldl (fun code byte => code * 64 + (byte.toNat - 0x80))
      (leadBits first (further.length + 1)) = code) (rest : List UInt8) :
    piece first (second :: further ++ rest) = (some (Char.ofNat code), further.length + 1) := by
  rw [← UInt8.le_iff_toNat_le] at low high
  have found : tails (further.length + 1) (secondLow first) (secondHigh first)
      (second :: further ++ rest) = second :: further := by
    simp [tails, low, high, tails_continuations continuing]
  have notAscii : ¬ first < 0x80 := by
    rw [UInt8.not_lt, UInt8.le_iff_toNat_le]
    exact isLong
  rw [piece, if_neg notAscii]
  simp only [asked, found, spelt]
  simp

theorem toNat_ofNat {code : Nat} (small : code < 256) : (UInt8.ofNat code).toNat = code := by
  rw [UInt8.toNat_ofNat']
  omega

theorem isContinuation_ofNat (bits : Nat) : IsContinuation (UInt8.ofNat (bits % 64 + 128)) := by
  have value : (UInt8.ofNat (bits % 64 + 128)).toNat = bits % 64 + 128 := toNat_ofNat (by omega)
  rw [IsContinuation, UInt8.le_iff_toNat_le, UInt8.le_iff_toNat_le, value]
  constructor
  · exact Nat.le_add_left 128 (bits % 64)
  · exact Nat.add_le_add_right (by omega) 128

variable (rest : List UInt8)

theorem piece_oneByte (small : code ≤ 0x7F) :
    piece (UInt8.ofNat code) rest = (some (Char.ofNat code), 0) := by
  have value : (UInt8.ofNat code).toNat = code := toNat_ofNat (by omega)
  have isAscii : UInt8.ofNat code < 0x80 := by
    rw [UInt8.lt_iff_toNat_lt, value]
    exact Nat.lt_succ_of_le small
  rw [piece, if_pos isAscii, value]

theorem piece_twoBytes (large : 0x7F < code) (small : code ≤ 0x7FF) :
    piece (UInt8.ofNat (code / 64 % 32 + 192)) (UInt8.ofNat (code % 64 + 128) :: rest) =
      (some (Char.ofNat code), 1) := by
  have lead : (UInt8.ofNat (code / 64 % 32 + 192)).toNat = code / 64 + 192 := by
    rw [toNat_ofNat] <;> omega
  have second : (UInt8.ofNat (code % 64 + 128)).toNat = code % 64 + 128 := toNat_ofNat (by omega)
  refine piece_of_tails [] ?_ ?_ ?_ ?_ ?_ ?_ rest
  · omega
  · rw [tailCount_eq, lead, if_pos (by omega)]
    rfl
  · rw [toNat_secondLow, lead, second]
    split_ifs <;> omega
  · rw [toNat_secondHigh, lead, second]
    split_ifs <;> omega
  · simp
  · change (UInt8.toNat _ - 0xC0) * 64 + (UInt8.toNat _ - 0x80) = code
    rw [lead, second]
    omega

theorem piece_threeBytes (large : 0x7FF < code) (small : code ≤ 0xFFFF)
    (valid : code < 0xD800 ∨ 0xDFFF < code) :
    piece (UInt8.ofNat (code / 4096 % 16 + 224))
        (UInt8.ofNat (code / 64 % 64 + 128) :: UInt8.ofNat (code % 64 + 128) :: rest) =
      (some (Char.ofNat code), 2) := by
  have lead : (UInt8.ofNat (code / 4096 % 16 + 224)).toNat = code / 4096 + 224 := by
    rw [toNat_ofNat] <;> omega
  have second : (UInt8.ofNat (code / 64 % 64 + 128)).toNat = code / 64 % 64 + 128 :=
    toNat_ofNat (by omega)
  have third : (UInt8.ofNat (code % 64 + 128)).toNat = code % 64 + 128 := toNat_ofNat (by omega)
  refine piece_of_tails [_] ?_ ?_ ?_ ?_ ?_ ?_ rest
  · omega
  · rw [tailCount_eq, lead, if_neg (by omega), if_pos (by omega)]
    rfl
  · rw [toNat_secondLow, lead, second]
    split_ifs <;> omega
  · rw [toNat_secondHigh, lead, second]
    split_ifs <;> omega
  · exact List.forall_mem_singleton.mpr (isContinuation_ofNat code)
  · change ((UInt8.toNat _ - 0xE0) * 64 + (UInt8.toNat _ - 0x80)) * 64 +
      (UInt8.toNat _ - 0x80) = code
    rw [lead, second, third]
    omega

theorem piece_fourBytes (large : 0xFFFF < code) (small : code < 0x110000) :
    piece (UInt8.ofNat (code / 262144 % 8 + 240))
        (UInt8.ofNat (code / 4096 % 64 + 128) :: UInt8.ofNat (code / 64 % 64 + 128) ::
          UInt8.ofNat (code % 64 + 128) :: rest) =
      (some (Char.ofNat code), 3) := by
  have lead : (UInt8.ofNat (code / 262144 % 8 + 240)).toNat = code / 262144 + 240 := by
    rw [toNat_ofNat] <;> omega
  have second : (UInt8.ofNat (code / 4096 % 64 + 128)).toNat = code / 4096 % 64 + 128 :=
    toNat_ofNat (by omega)
  have third : (UInt8.ofNat (code / 64 % 64 + 128)).toNat = code / 64 % 64 + 128 :=
    toNat_ofNat (by omega)
  have fourth : (UInt8.ofNat (code % 64 + 128)).toNat = code % 64 + 128 := toNat_ofNat (by omega)
  refine piece_of_tails [_, _] ?_ ?_ ?_ ?_ ?_ ?_ rest
  · omega
  · rw [tailCount_eq, lead, if_neg (by omega), if_neg (by omega), if_pos (by omega)]
    rfl
  · rw [toNat_secondLow, lead, second]
    split_ifs <;> omega
  · rw [toNat_secondHigh, lead, second]
    split_ifs <;> omega
  · exact List.forall_mem_cons.mpr ⟨isContinuation_ofNat (code / 64),
      List.forall_mem_singleton.mpr (isContinuation_ofNat code)⟩
  · change (((UInt8.toNat _ - 0xF0) * 64 + (UInt8.toNat _ - 0x80)) * 64 +
      (UInt8.toNat _ - 0x80)) * 64 + (UInt8.toNat _ - 0x80) = code
    rw [lead, second, third, fourth]
    omega

end Pieces

theorem pieces_append_of_piece {first : UInt8} (further : List UInt8) {rest : List UInt8}
    {found : Option Char}
    (isPiece : piece first (further ++ rest) = (found, further.length)) :
    pieces (first :: further ++ rest) = found :: pieces rest := by
  rw [List.cons_append, pieces, isPiece, List.drop_left]

/-- The bytes of a character are cut off as one piece, whatever follows them. -/
theorem pieces_encodeChar_append (character : Char) (rest : List UInt8) :
    pieces (String.utf8EncodeChar character ++ rest) = some character :: pieces rest := by
  have valid : character.toNat < 0xD800 ∨ 0xDFFF < character.toNat ∧ character.toNat < 0x110000 :=
    character.valid
  have same : Char.ofNat character.toNat = character := Char.ofNat_toNat character
  have number : character.val.toNat = character.toNat := rfl
  rw [String.utf8EncodeChar]
  simp only [number]
  generalize character.toNat = code at valid same ⊢
  subst same
  split_ifs with one two three
  · exact pieces_append_of_piece [] (piece_oneByte rest one)
  · exact pieces_append_of_piece [_] (piece_twoBytes rest (by omega) two)
  · exact pieces_append_of_piece [_, _] (piece_threeBytes rest (by omega) three (by omega))
  · exact pieces_append_of_piece [_, _, _] (piece_fourBytes rest (by omega) (by omega))

theorem pieces_encode (characters : List Char) :
    pieces (encode characters) = characters.map some := by
  induction characters with
  | nil => simp [encode, pieces]
  | cons character characters ih =>
      rw [encode, List.flatMap_cons, ← encode, pieces_encodeChar_append, ih, List.map_cons]

/-- A text that was written as bytes is read back. -/
theorem decodeLossy_encode (characters : List Char) :
    decodeLossy (encode characters) = characters := by
  simp [decodeLossy, pieces_encode, Function.comp_def]

end TraitIndex.Text.Utf8
