/-!
# Shortest decimals

Among the decimals that read back as a given binary float, one with the fewest digits is chosen, and
of several the one nearest to the float.  A positive finite float is `significand * 2 ^ exponent`.
The reals that round to it form an interval whose ends lie half way to its two neighbours; the ends
belong to it exactly when the significand is even.
-/

namespace TraitIndex

/-- The decimal `digits * 10 ^ exponent`. -/
structure Decimal where
  digits : Nat
  exponent : Int
  deriving DecidableEq, Repr

/-- The positive real `significand * 2 ^ exponent`, where the step down to the next smaller float is
half as long as the step up when `boundary` holds. -/
structure BinaryFloat where
  significand : Nat
  exponent : Int
  boundary : Bool
  deriving DecidableEq, Repr

/-- Decodes the bits of a finite float, ignoring its sign. -/
def BinaryFloat.ofBits (bits : UInt64) : BinaryFloat :=
  let fraction := bits.toNat % Nat.pow 2 52
  let biased := bits.toNat / Nat.pow 2 52 % Nat.pow 2 11
  if biased = 0 then ⟨fraction, -1074, false⟩
  else ⟨Nat.pow 2 52 + fraction, Int.ofNat biased - 1075, decide (fraction = 0 ∧ 1 < biased)⟩

/-- Compares `left * 10 ^ leftExponent` with `right * 2 ^ rightExponent`, exactly. -/
def Decimal.compareScaled (left : Nat) (leftExponent : Int) (right : Nat) (rightExponent : Int) :
    Ordering :=
  compare (left * Nat.pow 10 leftExponent.toNat * Nat.pow 2 (-rightExponent).toNat)
    (right * Nat.pow 2 rightExponent.toNat * Nat.pow 10 (-leftExponent).toNat)

/-- Decides whether the decimal rounds to the float. -/
def BinaryFloat.covers (binary : BinaryFloat) (decimal : Decimal) : Bool :=
  let closed := binary.significand % 2 = 0
  let low := 4 * binary.significand - (if binary.boundary then 1 else 2)
  let high := 4 * binary.significand + 2
  let fromLow := Decimal.compareScaled decimal.digits decimal.exponent low (binary.exponent - 2)
  let fromHigh := Decimal.compareScaled decimal.digits decimal.exponent high (binary.exponent - 2)
  (fromLow == .gt || (closed && fromLow == .eq)) &&
    (fromHigh == .lt || (closed && fromHigh == .eq))

/-- The greatest multiple of `10 ^ exponent` that is not above the float, as a count of steps. -/
def BinaryFloat.floorAt (binary : BinaryFloat) (exponent : Int) : Nat :=
  binary.significand * Nat.pow 2 binary.exponent.toNat * Nat.pow 10 (-exponent).toNat /
    (Nat.pow 2 (-binary.exponent).toNat * Nat.pow 10 exponent.toNat)

/-- Of the two grid points around the float, those that round to it, the nearer one first. -/
def BinaryFloat.candidates (binary : BinaryFloat) (exponent : Int) : List Decimal :=
  let below := binary.floorAt exponent
  let nearer :=
    Decimal.compareScaled (2 * below + 1) exponent (2 * binary.significand) binary.exponent
  let order :=
    if nearer == .gt || (nearer == .eq && below % 2 = 0) then [below, below + 1]
    else [below + 1, below]
  (order.map fun digits => ⟨digits, exponent⟩).filter binary.covers

/-- The exponent of the leading decimal digit of the float. -/
def BinaryFloat.magnitude (binary : BinaryFloat) : Int :=
  let digitCount (number : Nat) : Int := Int.ofNat (Nat.toDigits 10 number).length
  if 0 ≤ binary.exponent then
    digitCount (binary.significand * Nat.pow 2 binary.exponent.toNat) - 1
  else
    digitCount (binary.significand * Nat.pow 10 400 / Nat.pow 2 (-binary.exponent).toNat) - 401

/-- The decimal without zeros at the end of its digits. -/
def Decimal.normalise (digits : Nat) (exponent : Int) : Decimal :=
  if digits ≠ 0 ∧ digits % 10 = 0 then Decimal.normalise (digits / 10) (exponent + 1)
  else ⟨digits, exponent⟩
termination_by digits
decreasing_by omega

/-- Tries grids of one digit, two digits, and so on; seventeen digits always suffice. -/
def BinaryFloat.shortest (binary : BinaryFloat) : Decimal :=
  let grids := (List.range 17).map fun (extra : Nat) => binary.magnitude - Int.ofNat extra
  match grids.findSome? fun exponent => (binary.candidates exponent).head? with
  | some decimal => Decimal.normalise decimal.digits decimal.exponent
  | none => ⟨binary.significand, binary.exponent⟩

end TraitIndex
