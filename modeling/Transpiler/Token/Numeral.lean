import Transpiler.Decimal.Nearest
import Transpiler.Text.Radix

/-!
Contract: the values of number literals.

Digits may be separated by single underscores. An integer in another radix may also
have one underscore right after its mark. A decimal integer other than zero has no
leading zero. Integers that fit 64 bits with sign are computed as such; the decimal
digits of larger ones are computed without a bound.
-/

namespace Transpiler

/-- The largest integer that fits 64 bits with sign. -/
def smallIntegerLimit : Nat := 0x7fffffffffffffff

namespace Numeral

/-- Every separator stands between two digits of the radix; `afterDigit` tells whether
a digit comes right before the text. -/
def separatorsFit (radix : Nat) (afterDigit : Bool) : List Char → Bool
  | [] => true
  | character :: rest =>
      if character == '_' then
        afterDigit && (rest.head?.map (Text.isRadixDigit radix)).getD false
          && separatorsFit radix false rest
      else separatorsFit radix (Text.isRadixDigit radix character) rest

/-- The text without its separators. -/
def withoutSeparators (text : List Char) : List Char :=
  text.filter (· != '_')

/-- The digits of an integer in a radix, without its mark, if there are any and their
separators fit; one separator may follow the mark. -/
def digits? (radix : Nat) (marked : Bool) (body : List Char) : Option (List Nat) :=
  let separated := if marked && body.head? == some '_' then body.tail else body
  if separated.isEmpty || !separatorsFit radix false separated then none
  else (withoutSeparators separated).mapM (Text.digitValue? radix)

/-- More than one digit, the first of them zero and another not. -/
def hasLeadingZero (text : List Char) : Bool :=
  1 < text.length && text.head? == some '0'
    && text.any fun character => character.isDigit && character != '0'

/-- A number, if it fits 64 bits with sign. -/
def small? (number : Nat) : Option Nat :=
  if number ≤ smallIntegerLimit then some number else none

/-- A value with one more digit after its last, if the product and the sum both fit. -/
def appendDigit? (radix value digit : Nat) : Option Nat :=
  (small? (value * radix)).bind fun product => small? (product + digit)

/-- The value of an integer, if it is well formed and fits 64 bits with sign. -/
def smallInteger? (radix : Nat) (marked : Bool) (body : List Char) : Option Nat :=
  (digits? radix marked body).bind fun digits => digits.foldlM (appendDigit? radix) 0

/-- The decimal digits of what is left over behind the last digit, least significant
first; zero has none. -/
def carryDigits (carry : Nat) : List Nat :=
  if carry = 0 then [] else carry % 10 :: carryDigits (carry / 10)

/-- Decimal digits, least significant first, times a factor and plus a carry. -/
def scale (factor carry : Nat) : List Nat → List Nat
  | [] => carryDigits carry
  | digit :: rest =>
      let value := digit * factor + carry
      value % 10 :: scale factor (value / 10) rest

/-- Digits, most significant first, without the zeros that lead them; the last digit
stays. -/
def withoutLeadingZeros : List Nat → List Nat
  | 0 :: next :: rest => withoutLeadingZeros (next :: rest)
  | digits => digits

/-- The decimal digits, least significant first, of digits in another radix. -/
def toDecimal (radix : Nat) (digits : List Nat) : List Nat :=
  digits.foldl (fun decimal digit => scale radix digit decimal) [0]

/-- The decimal digits of an integer of any size, if it is well formed. -/
def decimalDigits? (radix : Nat) (marked : Bool) (body : List Char) : Option String :=
  (digits? radix marked body).map fun digits =>
    String.ofList ((withoutLeadingZeros (toDecimal radix digits).reverse).map Nat.digitChar)

/-- The double nearest to a decimal number without separators: digits, an optional
point with further digits, and an optional exponent. -/
def nearestDouble (text : List Char) : Binary64 :=
  let whole := text.takeWhile Char.isDigit
  let afterWhole := text.drop whole.length
  let fraction :=
    match afterWhole with
    | '.' :: rest => rest.takeWhile Char.isDigit
    | _ => []
  let exponentText := text.dropWhile fun character => character != 'e' && character != 'E'
  let exponent : Int :=
    match exponentText.drop 1 with
    | '-' :: digits => -(Text.positionalValue 10 digits : Nat)
    | '+' :: digits => Text.positionalValue 10 digits
    | digits => Text.positionalValue 10 digits
  Decimal.nearest (Text.positionalValue 10 (whole ++ fraction)) (exponent - fraction.length)

/-- The value of a number with a point or an exponent. -/
def floatValue? (text : List Char) : Option Binary64 :=
  if separatorsFit 10 false text then some (nearestDouble (withoutSeparators text)) else none

end Numeral
end Transpiler
