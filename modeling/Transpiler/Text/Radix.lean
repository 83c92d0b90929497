/-!
Contract: numbers written in a given radix.
-/

namespace Transpiler.Text

/-- The digits of a number in a radix up to sixteen, lower case, without leading
zeros; zero is `0`. -/
def radixDigits (radix number : Nat) : List Char :=
  Nat.toDigits radix number

/-- The hexadecimal digits, lower case. -/
def hexDigits (number : Nat) : List Char :=
  radixDigits 16 number

/-- The digits, led by enough zeros to fill `width` places. -/
def padZeros (width : Nat) (digits : List Char) : List Char :=
  List.replicate (width - digits.length) '0' ++ digits

/-- The value of an ASCII digit or letter as a digit, up to sixteen. -/
def digitValue? (radix : Nat) (character : Char) : Option Nat :=
  let value :=
    if character.isDigit then some (character.toNat - '0'.toNat)
    else if 'a' ≤ character && character ≤ 'f' then some (character.toNat - 'a'.toNat + 10)
    else if 'A' ≤ character && character ≤ 'F' then some (character.toNat - 'A'.toNat + 10)
    else none
  value.filter (· < radix)

/-- Up to radix ten only the decimal digits have a value. -/
theorem toNat_of_digitValue? {radix digit : Nat} {character : Char} (decimal : radix ≤ 10)
    (isDigit : digitValue? radix character = some digit) :
    character.isDigit = true ∧ character.toNat = digit + 48 ∧ digit < radix := by
  rw [digitValue?] at isDigit
  obtain ⟨found, below⟩ := Option.filter_eq_some_iff.mp isDigit
  have small : digit < radix := of_decide_eq_true below
  split at found
  case isTrue isDecimal =>
    have bounds : 48 ≤ character.toNat ∧ character.toNat ≤ 57 := by
      simpa [Char.isDigit, UInt32.le_iff_toNat_le] using isDecimal
    have zero : '0'.toNat = 48 := rfl
    have value := Option.some.inj found
    exact ⟨isDecimal, by omega, small⟩
  case isFalse =>
    -- the values of letters begin at ten
    split at found
    case isTrue =>
      have value := Option.some.inj found
      omega
    case isFalse =>
      split at found
      case isTrue =>
        have value := Option.some.inj found
        omega
      case isFalse => contradiction

/-- A digit of the radix. -/
def isRadixDigit (radix : Nat) (character : Char) : Bool :=
  (digitValue? radix character).isSome

/-- The number that digits of a radix denote, most significant first; other
characters count as zero. -/
def positionalValue (radix : Nat) (digits : List Char) : Nat :=
  digits.foldl (fun value digit => value * radix + (digitValue? radix digit).getD 0) 0

end Transpiler.Text
