import Transpiler.Decimal.Binary64

/-!
Contract: the shortest decimal that reads back as a given double.

The reals that round to a finite double form an interval around it, whose ends
belong to it exactly when the significand is even. Among all decimals in that
interval the one with the fewest digits is taken; of several with equally few
digits, the one nearest to the double; of two equally near, the larger.

For a fixed number of digits the decimals form a grid. If any point of a grid lies
in the interval, one of the two grid points around the double does, so only those
two are tried, from coarse grids to fine ones. Seventeen digits always suffice.
-/

namespace Transpiler.Decimal

/-- A positive decimal in scientific form: the point stands after the first digit of
`digits`, and the value is scaled by ten to the `exponent`. -/
structure Scientific where
  digits : List Char
  exponent : Int
deriving DecidableEq, Repr

/-- The reals that round to one double. `below`, `value` and `above` count quarters of
its last place, and one such quarter is `unit`. -/
structure RoundingInterval where
  below : Nat
  value : Nat
  above : Nat
  unit : Ratio
  closed : Bool
deriving DecidableEq, Repr

def RoundingInterval.ofBinary64 (number : Binary64) : RoundingInterval where
  below := 4 * number.significand - (if number.isBoundary then 1 else 2)
  value := 4 * number.significand
  above := 4 * number.significand + 2
  unit := Ratio.power 2 (number.exponent - 2)
  closed := number.significand % 2 == 0

namespace RoundingInterval

/-- The exponent of the first decimal digit of the value: the largest `e` for which
ten to the `e` is at most the value. -/
def decimalExponent (interval : RoundingInterval) : Int :=
  let numerator := interval.value * interval.unit.numerator
  let denominator := interval.unit.denominator
  let guess : Int := (Nat.repr numerator).length - (Nat.repr denominator).length
  let power := Ratio.power 10 guess
  if power.numerator * denominator ≤ numerator * power.denominator then guess
  else guess - 1

/-- The multiple of ten to the `place` in the interval that is nearest to the value,
if one of the two around the value lies in the interval. -/
def gridPoint? (interval : RoundingInterval) (place : Int) : Option Nat :=
  let step := Ratio.power 10 place
  let unitScale := interval.unit.numerator * step.denominator
  let stepScale := step.numerator * interval.unit.denominator
  let value := interval.value * unitScale
  let low := value / stepScale
  let high := low + 1
  let fits (point : Nat) : Bool :=
    if interval.closed then
      interval.below * unitScale ≤ point * stepScale
        && point * stepScale ≤ interval.above * unitScale
    else
      interval.below * unitScale < point * stepScale
        && point * stepScale < interval.above * unitScale
  match fits low, fits high with
  | true, true =>
      if value - low * stepScale < high * stepScale - value then some low else some high
  | true, false => some low
  | false, true => some high
  | false, false => none

end RoundingInterval

/-- The digits of a number without the zeros at their end. -/
def significantDigits (number : Nat) : List Char :=
  ((Nat.repr number).toList.reverse.dropWhile (· == '0')).reverse

/-- The most digits that a double can need. -/
def digitLimit : Nat := 17

/-- The shortest decimal for the magnitude of a finite double; zero has the single
digit `0`. -/
def shortest (number : Binary64) : Scientific :=
  if number.significand = 0 then ⟨['0'], 0⟩
  else
    let interval := RoundingInterval.ofBinary64 number
    let first := interval.decimalExponent
    let hit := (List.range digitLimit).findSome? fun (extraDigits : Nat) =>
      let place : Int := first - extraDigits
      (interval.gridPoint? place).map fun point => (point, place)
    match hit with
    | some (point, place) =>
        ⟨significantDigits point, place + ((Nat.repr point).length - 1 : Nat)⟩
    | none => ⟨['0'], 0⟩

end Transpiler.Decimal
