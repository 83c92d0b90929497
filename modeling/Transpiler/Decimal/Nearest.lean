import Transpiler.Decimal.Binary64

/-!
Contract: the double nearest to a decimal.

The exact value is divided by the spacing of the doubles around it and rounded to
the nearest integer, a tie going to the even neighbour. Values past the largest
double become infinity, values below half the smallest become zero.
-/

namespace Transpiler.Decimal

/-- A quotient rounded to the nearest integer, ties to even. -/
def roundQuotient (numerator denominator : Nat) : Nat :=
  let floor := numerator / denominator
  let rest := numerator % denominator
  if 2 * rest < denominator then floor
  else if denominator < 2 * rest then floor + 1
  else floor + floor % 2

/-- The exponent of the leading binary digit: the largest `e` for which two to the `e`
is at most the ratio, which is positive. -/
def binaryExponent (ratio : Ratio) : Int :=
  let guess : Int := ratio.numerator.log2 - ratio.denominator.log2
  let power := Ratio.power 2 guess
  if power.numerator * ratio.denominator ≤ ratio.numerator * power.denominator then guess
  else guess - 1

/-- The double nearest to a positive ratio. Counting places from the smallest double,
significand and exponent together form the bit pattern, and a significand that
rounds up to the next power of two carries into the exponent by itself. -/
def nearestToRatio (ratio : Ratio) : Binary64 :=
  let exponent := max (binaryExponent ratio - Binary64.fractionBits) Binary64.leastExponent
  let spacing := Ratio.power 2 exponent
  let significand :=
    roundQuotient (ratio.numerator * spacing.denominator)
      (ratio.denominator * spacing.numerator)
  let pattern :=
    (exponent - Binary64.leastExponent).toNat * Binary64.hiddenBit + significand
  if pattern < Binary64.infinity.bits.toNat then ⟨UInt64.ofNat pattern⟩
  else Binary64.infinity

/-- The double nearest to `significand · 10 ^ exponent`. The digit count decides first
whether the value is beyond every double or below all of them, so that no huge power
is ever computed. -/
def nearest (significand : Nat) (exponent : Int) : Binary64 :=
  if significand = 0 then ⟨0⟩
  else
    let magnitude : Int := (Nat.repr significand).length + exponent
    if 310 < magnitude then Binary64.infinity
    else if magnitude < -330 then ⟨0⟩
    else
      let power := Ratio.power 10 exponent
      nearestToRatio ⟨significand * power.numerator, power.denominator⟩

end Transpiler.Decimal
