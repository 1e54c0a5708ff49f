import TraitIndex.Json.Value
import TraitIndex.Decimal.Layout

/-!
# Numbers in JSON texts

A numeral is a significand, kept exactly while it fits into 64 bits, and a power of ten.  Digits of
the whole part that no longer fit only raise the exponent; digits of the fraction that no longer fit
are dropped.  The value is the significand as a binary float, multiplied or divided by the power of
ten as a binary float.
-/

namespace TraitIndex.Json

/-- Floats are positional from the fifth place after the point to the sixteenth before it. -/
def floatLayout : Decimal.Layout :=
  ⟨-5, 15, ".0", "e+", "e-"⟩

def Number.text : Number → String
  | .natural value => Nat.repr value
  | .negative magnitude => "-" ++ Nat.repr magnitude
  | .float value => floatLayout.writeFloat value

def digitValue (digit : Char) : Nat :=
  digit.toNat - '0'.toNat

/-- Appends digits to a significand while it fits into 64 bits; also returns the digits left. -/
def absorb (significand : Nat) : List Char → Nat × List Char
  | [] => (significand, [])
  | digit :: digits =>
      if significand * 10 + digitValue digit < UInt64.size then
        absorb (significand * 10 + digitValue digit) digits
      else (significand, digit :: digits)

def powerOfTen (exponent : Nat) : Float :=
  Float.ofScientific 1 false exponent

/-- Divides by a power of ten, in steps that a float can hold. -/
def shrink (value : Float) (exponent : Nat) : Float :=
  if exponent ≤ 308 then value / powerOfTen exponent
  else if value == 0.0 then value
  else shrink (value / powerOfTen 308) (exponent - 308)
termination_by exponent

/-- The float for `significand * 10 ^ exponent`, unless it is too large. -/
def scale? (significand : Nat) (exponent : Int) : Option Float :=
  let value := (UInt64.ofNat significand).toFloat
  if exponent < 0 then some (shrink value exponent.natAbs)
  else if significand = 0 then some value
  else if 308 < exponent then none
  else
    let scaled := value * powerOfTen exponent.toNat
    if scaled.isInf then none else some scaled

/-- A whole number without fraction and exponent; minus zero and what does not fit into 64 bits
with a sign are floats. -/
def wholeNumber (isNegative : Bool) (significand : Nat) : Number :=
  if isNegative then
    if significand = 0 ∨ UInt64.size / 2 < significand then
      .float (-(UInt64.ofNat significand).toFloat)
    else .negative significand
  else .natural significand

def signed (isNegative : Bool) (value : Float) : Number :=
  .float (if isNegative then -value else value)

end TraitIndex.Json
