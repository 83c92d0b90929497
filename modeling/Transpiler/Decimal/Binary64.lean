/-!
Contract: double-precision numbers as their 64 bits.

Owns: the classes of bit patterns and the exact value of a finite pattern as a
significand times a power of two. All arithmetic on values is exact arithmetic on
natural numbers; no machine floating point is involved.
-/

namespace Transpiler

/-- A double-precision number, given by its bit pattern. Two patterns are equal only
if all bits agree, so the two zeros differ and a NaN equals itself. -/
structure Binary64 where
  bits : UInt64
deriving DecidableEq, Repr

/-- A positive ratio of natural numbers, not necessarily reduced. -/
structure Ratio where
  numerator : Nat
  denominator : Nat
deriving DecidableEq, Repr

/-- An integer power of a positive base. -/
def Ratio.power (base : Nat) (exponent : Int) : Ratio :=
  if 0 ≤ exponent then ⟨base.pow exponent.toNat, 1⟩ else ⟨1, base.pow (-exponent).toNat⟩

namespace Binary64

/-- The width of the stored fraction. -/
def fractionBits : Nat := 52

/-- The weight of the bit above the fraction, which normal numbers do not store. -/
def hiddenBit : Nat := Nat.pow 2 fractionBits

/-- The number of patterns of the stored exponent; the last is kept for infinity and NaN. -/
def exponentPatterns : Nat := 2048

/-- The weight of the sign bit. -/
def signBit : Nat := hiddenBit * exponentPatterns

/-- The exponent of the last place of the smallest numbers. -/
def leastExponent : Int := -1074

def isNegative (number : Binary64) : Bool :=
  signBit ≤ number.bits.toNat

/-- The eleven bits of the stored exponent. -/
def exponentField (number : Binary64) : Nat :=
  number.bits.toNat / hiddenBit % exponentPatterns

/-- The stored fraction. -/
def fractionField (number : Binary64) : Nat :=
  number.bits.toNat % hiddenBit

def isFinite (number : Binary64) : Bool :=
  number.exponentField != exponentPatterns - 1

def isNaN (number : Binary64) : Bool :=
  !number.isFinite && number.fractionField != 0

/-- The significand of a finite number, with the leading one that normal numbers do
not store. -/
def significand (number : Binary64) : Nat :=
  if number.exponentField = 0 then number.fractionField
  else hiddenBit + number.fractionField

/-- The power of two that scales the significand of a finite number. -/
def exponent (number : Binary64) : Int :=
  leastExponent + (number.exponentField - 1 : Nat)

/-- The next smaller magnitude is only half a place away: the number is a power of
two that is not among the smallest. -/
def isBoundary (number : Binary64) : Bool :=
  number.fractionField = 0 && 1 < number.exponentField

def infinity : Binary64 := ⟨0x7ff0000000000000⟩

end Binary64
end Transpiler
