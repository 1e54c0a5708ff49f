import TraitIndex.Decimal.Shortest

/-!
# The written form of floats

Positional notation is used while the exponent of the leading digit lies in a fixed range, and
always shows a fraction; beyond it the leading digit is followed by the remaining digits and a
signed exponent.
-/

namespace TraitIndex.Decimal

structure Layout where
  /-- Least exponent of the leading digit that is written positionally. -/
  low : Int
  /-- Greatest exponent of the leading digit that is written positionally. -/
  high : Int
  /-- Stands for an empty fraction in positional notation. -/
  emptyFraction : String
  /-- Precedes an exponent that is not below zero. -/
  positiveExponent : String
  /-- Precedes the magnitude of an exponent below zero. -/
  negativeExponent : String

/-- Writes a decimal with at least one digit other than zero. -/
def Layout.write (layout : Layout) (decimal : Decimal) : String :=
  let digits := Nat.toDigits 10 decimal.digits
  let leading := decimal.exponent + digits.length - 1
  if layout.low ≤ leading ∧ leading ≤ layout.high then
    if 0 ≤ decimal.exponent then
      String.ofList (digits ++ List.replicate decimal.exponent.toNat '0') ++ layout.emptyFraction
    else if 0 ≤ leading then
      String.ofList (digits.take (leading.toNat + 1) ++ '.' :: digits.drop (leading.toNat + 1))
    else
      String.ofList ('0' :: '.' :: List.replicate ((-leading).toNat - 1) '0' ++ digits)
  else
    let fraction := digits.drop 1
    let mantissa := digits.take 1 ++ (if fraction.isEmpty then [] else '.' :: fraction)
    let sign := if 0 ≤ leading then layout.positiveExponent else layout.negativeExponent
    String.ofList mantissa ++ sign ++ Nat.repr leading.natAbs

def Layout.writeFloat (layout : Layout) (value : Float) : String :=
  let bits := value.toBits
  let sign := if UInt64.size / 2 ≤ bits.toNat then "-" else ""
  if bits.toNat % (UInt64.size / 2) = 0 then sign ++ "0" ++ layout.emptyFraction
  else sign ++ layout.write (BinaryFloat.ofBits bits).shortest

end TraitIndex.Decimal
