import Transpiler.Decimal.Shortest
import Transpiler.Text.Radix

/-!
Contract: the text of a double.

Digits come from the shortest decimal. Magnitudes from one ten-thousandth up to, and
not including, 10^16 are written with a point and at least one digit on either side
of it, all others with an exponent of at least two digits.
-/

namespace Transpiler.Decimal

/-- The exponents of the first digit for which a number is written with its point. -/
def isPositional (exponent : Int) : Bool :=
  -4 ≤ exponent && exponent < 16

/-- Digits with the point where the exponent of the first digit puts it, zeros filling
the places before or after the digits. -/
def positional (digits : List Char) (exponent : Int) : List Char :=
  if exponent < 0 then
    ['0', '.'] ++ List.replicate (-(exponent + 1)).toNat '0' ++ digits
  else
    let whole := exponent.toNat + 1
    if digits.length ≤ whole then
      digits ++ List.replicate (whole - digits.length) '0' ++ ['.', '0']
    else digits.take whole ++ ['.'] ++ digits.drop whole

/-- Digits with the point after the first one, and the exponent with its sign. -/
def scientific (digits : List Char) (exponent : Int) : List Char :=
  let fraction := if digits.length ≤ 1 then [] else '.' :: digits.drop 1
  let sign := if exponent < 0 then '-' else '+'
  digits.take 1 ++ fraction ++ ['e', sign]
    ++ Text.padZeros 2 (Nat.repr exponent.natAbs).toList

/-- A sign, digits and the exponent of the first digit as text. -/
def layout (negative : Bool) (decimal : Scientific) : String :=
  let sign := if negative then ['-'] else []
  let body :=
    if isPositional decimal.exponent then positional decimal.digits decimal.exponent
    else scientific decimal.digits decimal.exponent
  String.ofList (sign ++ body)

end Transpiler.Decimal

namespace Transpiler

/-- The text of a double. A NaN shows no sign; a zero keeps its own. -/
def Binary64.render (number : Binary64) : String :=
  if number.isNaN then "nan"
  else if number.isFinite then Decimal.layout number.isNegative (Decimal.shortest number)
  else if number.isNegative then "-inf"
  else "inf"

end Transpiler
