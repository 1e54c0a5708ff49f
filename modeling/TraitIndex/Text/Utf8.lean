/-!
# Texts as bytes

Paths and files are byte strings; texts are written into them as UTF-8.  Reading cuts a byte string
into pieces, each a character or an ill-formed run.  An ill-formed run is as long as it can be read
as the beginning of a character, and at least one byte.  The strict reading refuses every ill-formed
run, the lossy one shows each as one replacement character.
-/

namespace TraitIndex.Text.Utf8

def encode (characters : List Char) : List UInt8 :=
  characters.flatMap String.utf8EncodeChar

/-- The bytes after `first` that belong to it: at most `count`, the first of them between `low` and
`high`, the others any continuation byte. -/
def tails : Nat → UInt8 → UInt8 → List UInt8 → List UInt8
  | count + 1, low, high, byte :: rest =>
      if low ≤ byte && byte ≤ high then byte :: tails count 0x80 0xBF rest else []
  | _, _, _, _ => []

/-- The number of continuation bytes that a first byte asks for. -/
def tailCount (first : UInt8) : Nat :=
  if 0xC2 ≤ first && first ≤ 0xDF then 1
  else if 0xE0 ≤ first && first ≤ 0xEF then 2
  else if 0xF0 ≤ first && first ≤ 0xF4 then 3
  else 0

/-- The least second byte: smaller ones would spell a character in more bytes than it needs. -/
def secondLow (first : UInt8) : UInt8 :=
  if first = 0xE0 then 0xA0 else if first = 0xF0 then 0x90 else 0x80

/-- The greatest second byte: larger ones would spell a surrogate or leave the code space. -/
def secondHigh (first : UInt8) : UInt8 :=
  if first = 0xED then 0x9F else if first = 0xF4 then 0x8F else 0xBF

/-- The bits that a first byte contributes, with `count` continuation bytes to follow. -/
def leadBits (first : UInt8) (count : Nat) : Nat :=
  first.toNat - (if count = 1 then 0xC0 else if count = 2 then 0xE0 else 0xF0)

/-- The piece at the head of a byte string, and the number of bytes it takes beyond the first. -/
def piece (first : UInt8) (rest : List UInt8) : Option Char × Nat :=
  if first < 0x80 then (some (Char.ofNat first.toNat), 0)
  else
    let count := tailCount first
    let found := tails count (secondLow first) (secondHigh first) rest
    if count ≠ 0 ∧ found.length = count then
      let code := found.foldl (fun code byte => code * 64 + (byte.toNat - 0x80))
        (leadBits first count)
      (some (Char.ofNat code), count)
    else (none, found.length)

/-- Cuts a byte string into characters and, as `none`, ill-formed runs. -/
def pieces : List UInt8 → List (Option Char)
  | [] => []
  | first :: rest => (piece first rest).1 :: pieces (rest.drop (piece first rest).2)
termination_by bytes => bytes.length
decreasing_by
  simp only [List.length_drop, List.length_cons]
  omega

/-- The characters of a well-formed byte string. -/
def decode? (bytes : List UInt8) : Option (List Char) :=
  (pieces bytes).mapM id

/-- The characters of a byte string, each ill-formed run shown as one replacement character. -/
def decodeLossy (bytes : List UInt8) : List Char :=
  (pieces bytes).map fun found => found.getD '\uFFFD'

end TraitIndex.Text.Utf8
