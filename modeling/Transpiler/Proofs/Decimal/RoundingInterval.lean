import Mathlib.Algebra.Order.Field.Power
import Mathlib.Data.Rat.Lemmas
import Mathlib.Order.Monotone.Basic
import Mathlib.Tactic.FieldSimp
import Mathlib.Tactic.Linarith
import Mathlib.Tactic.Positivity
import Mathlib.Tactic.Ring
import Transpiler.Decimal.Shortest

/-!
Contract: the rounding intervals of the doubles as intervals of rational numbers.

Main results: a grid point that the search accepts lies in the interval
(`gridPoint?_contains`), a grid finer than the interval has one (`gridPoint?_isSome`), and
the intervals of different magnitudes have no number in common
(`Binary64.pattern_eq_of_contains`).

Does not own: the digits that are written for a grid point.
-/

namespace Transpiler

namespace Ratio

/-- The rational number that a ratio stands for. -/
def value (ratio : Ratio) : ℚ := ratio.numerator / ratio.denominator

theorem denominator_power_pos {base : Nat} (positive : 0 < base) (exponent : Int) :
    0 < (power base exponent).denominator := by
  unfold power
  split
  · exact Nat.one_pos
  · exact Nat.pow_pos positive

theorem pos_of_value {ratio : Ratio} (positive : 0 < ratio.value) :
    0 < ratio.numerator ∧ 0 < ratio.denominator := by
  unfold value at positive
  constructor
  · by_contra zero
    have isZero : ratio.numerator = 0 := by omega
    simp [isZero] at positive
  · by_contra zero
    have isZero : ratio.denominator = 0 := by omega
    simp [isZero] at positive

theorem value_power (base : Nat) (exponent : Int) :
    (power base exponent).value = (base : ℚ) ^ exponent := by
  unfold power
  by_cases nonnegative : 0 ≤ exponent
  · obtain ⟨count, rfl⟩ := Int.eq_ofNat_of_zero_le nonnegative
    simp [value]
  · obtain ⟨count, negated⟩ := Int.eq_ofNat_of_zero_le (show 0 ≤ -exponent by omega)
    obtain rfl : exponent = -count := by omega
    rw [if_neg nonnegative]
    simp [value]

/-- Multiples of two ratios compare as their cross products do. -/
theorem mul_value_le_iff {first second : Ratio} (firstPositive : 0 < first.denominator)
    (secondPositive : 0 < second.denominator) (left right : Nat) :
    left * first.value ≤ right * second.value ↔
      left * (first.numerator * second.denominator)
        ≤ right * (second.numerator * first.denominator) := by
  have firstScale : (0 : ℚ) < first.denominator := by exact_mod_cast firstPositive
  have secondScale : (0 : ℚ) < second.denominator := by exact_mod_cast secondPositive
  rw [value, value, ← mul_div_assoc, ← mul_div_assoc, div_le_div_iff₀ firstScale secondScale,
    mul_assoc, mul_assoc]
  exact_mod_cast Iff.rfl

end Ratio

namespace Decimal

namespace RoundingInterval

variable {interval : RoundingInterval}

/-- The rational number at a count of quarters of the last place. -/
def scaled (interval : RoundingInterval) (quarters : Nat) : ℚ := quarters * interval.unit.value

/-- The numbers of the interval, its ends among them only if it is closed. -/
def Contains (interval : RoundingInterval) (number : ℚ) : Prop :=
  if interval.closed then
    interval.scaled interval.below ≤ number ∧ number ≤ interval.scaled interval.above
  else interval.scaled interval.below < number ∧ number < interval.scaled interval.above

theorem Contains.bounds {number : ℚ} (contains : interval.Contains number) :
    interval.scaled interval.below ≤ number ∧ number ≤ interval.scaled interval.above := by
  unfold Contains at contains
  split at contains
  · exact contains
  · exact ⟨contains.1.le, contains.2.le⟩

private theorem contains_of_between {number : ℚ} (above : interval.scaled interval.below < number)
    (below : number < interval.scaled interval.above) : interval.Contains number := by
  unfold Contains
  split
  · exact ⟨above.le, below.le⟩
  · exact ⟨above, below⟩

/-- An end of the interval belongs to it only if it is closed. -/
theorem Contains.closed_of_end {number : ℚ} (contains : interval.Contains number)
    (atEnd : number = interval.scaled interval.below ∨ number = interval.scaled interval.above) :
    interval.closed = true := by
  by_contra opened
  rw [Contains, if_neg opened] at contains
  rcases atEnd with rfl | rfl
  · exact lt_irrefl _ contains.1
  · exact lt_irrefl _ contains.2

/-- A quarter of the last place, in the common measure of the interval and the grid. -/
def unitScale (interval : RoundingInterval) (place : Int) : Nat :=
  interval.unit.numerator * (Ratio.power 10 place).denominator

/-- A step of the grid, in the same measure. -/
def stepScale (interval : RoundingInterval) (place : Int) : Nat :=
  (Ratio.power 10 place).numerator * interval.unit.denominator

/-- The grid point at or below the value. -/
def lowPoint (interval : RoundingInterval) (place : Int) : Nat :=
  interval.value * interval.unitScale place / interval.stepScale place

/-- What the search asks of a grid point. -/
def fits (interval : RoundingInterval) (place : Int) (point : Nat) : Bool :=
  if interval.closed then
    interval.below * interval.unitScale place ≤ point * interval.stepScale place
      && point * interval.stepScale place ≤ interval.above * interval.unitScale place
  else
    interval.below * interval.unitScale place < point * interval.stepScale place
      && point * interval.stepScale place < interval.above * interval.unitScale place

/-- The search tries the two grid points around the value. -/
private theorem gridPoint?_eq (interval : RoundingInterval) (place : Int) :
    interval.gridPoint? place =
      match interval.fits place (interval.lowPoint place),
        interval.fits place (interval.lowPoint place + 1) with
      | true, true =>
          if interval.value * interval.unitScale place
                - interval.lowPoint place * interval.stepScale place
              < (interval.lowPoint place + 1) * interval.stepScale place
                - interval.value * interval.unitScale place
          then some (interval.lowPoint place) else some (interval.lowPoint place + 1)
      | true, false => some (interval.lowPoint place)
      | false, true => some (interval.lowPoint place + 1)
      | false, false => none := rfl

private theorem fits_of_gridPoint? {place : Int} {point : Nat}
    (found : interval.gridPoint? place = some point) : interval.fits place point = true := by
  rw [gridPoint?_eq] at found
  split at found
  · split at found <;> cases found <;> assumption
  · cases found
    assumption
  · cases found
    assumption
  · cases found

private theorem not_fits_of_gridPoint? {place : Int} (missed : interval.gridPoint? place = none) :
    interval.fits place (interval.lowPoint place) = false ∧
      interval.fits place (interval.lowPoint place + 1) = false := by
  rw [gridPoint?_eq] at missed
  split at missed
  · split at missed <;> cases missed
  · cases missed
  · cases missed
  · exact ⟨by assumption, by assumption⟩

section Grid

variable (positive : 0 < interval.unit.value) (place : Int)
include positive

theorem scaled_lt_iff {fewer more : Nat} : interval.scaled fewer < interval.scaled more ↔
    fewer < more := by
  rw [scaled, scaled, mul_lt_mul_iff_left₀ positive, Nat.cast_lt]

private theorem mul_unitScale_le_iff (quarters point : Nat) :
    quarters * interval.unitScale place ≤ point * interval.stepScale place ↔
      interval.scaled quarters ≤ point * (10 : ℚ) ^ place := by
  rw [← Nat.cast_ofNat, ← Ratio.value_power]
  exact (Ratio.mul_value_le_iff (Ratio.pos_of_value positive).2
    (Ratio.denominator_power_pos (by decide) place) quarters point).symm

theorem mul_stepScale_le_iff (quarters point : Nat) :
    point * interval.stepScale place ≤ quarters * interval.unitScale place ↔
      point * (10 : ℚ) ^ place ≤ interval.scaled quarters := by
  rw [← Nat.cast_ofNat, ← Ratio.value_power]
  exact (Ratio.mul_value_le_iff (Ratio.denominator_power_pos (by decide) place)
    (Ratio.pos_of_value positive).2 point quarters).symm

private theorem fits_iff (point : Nat) :
    interval.fits place point = true ↔ interval.Contains (point * (10 : ℚ) ^ place) := by
  unfold fits Contains
  split
  · simp [mul_unitScale_le_iff positive, mul_stepScale_le_iff positive]
  · simp [← not_le, mul_unitScale_le_iff positive, mul_stepScale_le_iff positive]

/-- A grid point that the search finds lies in the interval. -/
theorem gridPoint?_contains {point : Nat} (found : interval.gridPoint? place = some point) :
    interval.Contains (point * (10 : ℚ) ^ place) :=
  (fits_iff positive place point).mp (fits_of_gridPoint? found)

private theorem lowPoint_le :
    interval.lowPoint place * (10 : ℚ) ^ place ≤ interval.scaled interval.value := by
  rw [← mul_stepScale_le_iff positive]
  exact Nat.div_mul_le_self _ _

private theorem lt_lowPoint_succ :
    interval.scaled interval.value < (interval.lowPoint place + 1 : Nat) * (10 : ℚ) ^ place := by
  rw [← not_le, ← mul_stepScale_le_iff positive, Nat.not_le]
  have powerPositive : 0 < (Ratio.power 10 place).value := by
    rw [Ratio.value_power]
    positivity
  have stepPositive : 0 < interval.stepScale place :=
    Nat.mul_pos (Ratio.pos_of_value powerPositive).1 (Ratio.pos_of_value positive).2
  exact Nat.lt_mul_of_div_lt (Nat.lt_succ_self _) stepPositive

/-- A grid that is finer than the interval is wide has a point in it. -/
theorem gridPoint?_isSome (inside : interval.below ≤ interval.value)
    (under : interval.value < interval.above)
    (fine : (10 : ℚ) ^ place < interval.scaled interval.above - interval.scaled interval.below) :
    (interval.gridPoint? place).isSome = true := by
  by_contra missed
  rw [Bool.not_eq_true, Option.isSome_eq_false_iff, Option.isNone_iff_eq_none] at missed
  have neither := not_fits_of_gridPoint? missed
  rw [← Bool.not_eq_true, ← Bool.not_eq_true, fits_iff positive, fits_iff positive] at neither
  have low := lowPoint_le positive place
  have high := lt_lowPoint_succ positive place
  have start : interval.scaled interval.below ≤ interval.scaled interval.value := by
    rw [← not_lt, scaled_lt_iff positive, Nat.not_lt]
    exact inside
  have stop : interval.scaled interval.value < interval.scaled interval.above :=
    (scaled_lt_iff positive).mpr under
  -- The lower grid point misses the interval only by lying below it, so one step from
  -- there does not pass the upper end.
  have missedBelow : interval.lowPoint place * (10 : ℚ) ^ place
      ≤ interval.scaled interval.below := by
    by_contra passed
    exact neither.1 (contains_of_between (not_le.mp passed) (by linarith))
  apply neither.2
  apply contains_of_between
  · linarith
  · push_cast
    linarith

end Grid

theorem length_repr (number : Nat) :
    (Nat.repr number).length = (Nat.toDigits 10 number).length := by
  rw [Nat.repr_eq_ofList_toDigits, String.length_ofList]

private theorem lt_pow_length_repr (number : Nat) : number < 10 ^ (Nat.repr number).length := by
  rw [length_repr, ← Nat.length_toDigits_le_iff (by decide) Nat.length_toDigits_pos]

private theorem pow_length_repr_le {number : Nat} (positive : 0 < number) :
    10 ^ ((Nat.repr number).length - 1) ≤ number := by
  rw [length_repr]
  by_cases single : (Nat.toDigits 10 number).length = 1
  · rw [single]
    exact positive
  · have several : 0 < (Nat.toDigits 10 number).length - 1 := by
      have : 0 < (Nat.toDigits 10 number).length := Nat.length_toDigits_pos
      omega
    rw [← Nat.not_lt, ← Nat.length_toDigits_le_iff (by decide) several]
    omega

/-- Ten to the decimal exponent does not pass the value. -/
theorem pow_decimalExponent_le (positive : 0 < interval.unit.value)
    (nonzero : 0 < interval.value) :
    (10 : ℚ) ^ interval.decimalExponent ≤ interval.scaled interval.value := by
  have ⟨numeratorPositive, denominatorPositive⟩ := Ratio.pos_of_value positive
  unfold decimalExponent
  extract_lets numerator denominator guess power
  split
  case isTrue within =>
    have compared := Ratio.mul_value_le_iff
      (Ratio.denominator_power_pos (show 0 < 10 by decide) guess) denominatorPositive 1
      interval.value
    rw [Nat.cast_one, one_mul, one_mul, Ratio.value_power, Nat.cast_ofNat] at compared
    apply compared.mpr
    rw [← Nat.mul_assoc]
    exact within
  case isFalse =>
    have numeratorLarge : 10 ^ ((Nat.repr numerator).length - 1) ≤ numerator :=
      pow_length_repr_le (Nat.mul_pos nonzero numeratorPositive)
    have denominatorSmall : denominator < 10 ^ (Nat.repr denominator).length :=
      lt_pow_length_repr denominator
    have exponent : guess - 1
        = (((Nat.repr numerator).length - 1 : Nat) : Int) - (Nat.repr denominator).length := by
      have : 0 < (Nat.repr numerator).length := Nat.length_repr_pos
      omega
    rw [exponent, zpow_sub₀ (by norm_num), zpow_natCast, zpow_natCast]
    have value : interval.scaled interval.value = (numerator : ℚ) / denominator := by
      rw [scaled, Ratio.value, Nat.cast_mul, mul_div_assoc]
    rw [value]
    apply div_le_div₀
    · positivity
    · exact_mod_cast numeratorLarge
    · exact_mod_cast denominatorPositive
    · exact_mod_cast denominatorSmall.le

end RoundingInterval
end Decimal

namespace Binary64

open Decimal

/-- The place of a double's magnitude among all magnitudes: its bits without the sign. -/
def pattern (number : Binary64) : Nat :=
  number.exponentField * hiddenBit + number.fractionField

theorem hiddenBit_eq : hiddenBit = 4503599627370496 := rfl

private theorem signBit_eq : signBit = 9223372036854775808 := rfl

private theorem toNat_bits (number : Binary64) :
    number.bits.toNat = (if number.isNegative then signBit else 0) + number.pattern := by
  have small : number.bits.toNat < 2 * signBit := number.bits.toNat_lt
  unfold pattern exponentField fractionField isNegative exponentPatterns
  simp only [decide_eq_true_eq]
  rw [signBit_eq] at *
  rw [hiddenBit_eq]
  split <;> omega

theorem eq_of_pattern {first second : Binary64} (signs : first.isNegative = second.isNegative)
    (patterns : first.pattern = second.pattern) : first = second := by
  have bits : first.bits.toNat = second.bits.toNat := by
    rw [toNat_bits, toNat_bits, signs, patterns]
  cases first
  cases second
  congr 1
  exact UInt64.toNat_inj.mp bits

/-- The significand of the magnitude with the given pattern. -/
def significandAt (pattern : Nat) : Nat :=
  if pattern / hiddenBit = 0 then pattern % hiddenBit else hiddenBit + pattern % hiddenBit

/-- The interval of the magnitude with the given pattern. -/
def intervalAt (pattern : Nat) : RoundingInterval where
  below := 4 * significandAt pattern
    - (if pattern % hiddenBit = 0 ∧ 1 < pattern / hiddenBit then 1 else 2)
  value := 4 * significandAt pattern
  above := 4 * significandAt pattern + 2
  unit := Ratio.power 2 (leastExponent + (pattern / hiddenBit - 1 : Nat) - 2)
  closed := significandAt pattern % 2 == 0

private theorem pattern_div (number : Binary64) :
    number.pattern / hiddenBit = number.exponentField := by
  have small : number.fractionField < hiddenBit := Nat.mod_lt _ (by decide)
  unfold pattern
  rw [hiddenBit_eq] at *
  omega

private theorem pattern_mod (number : Binary64) :
    number.pattern % hiddenBit = number.fractionField := by
  have small : number.fractionField < hiddenBit := Nat.mod_lt _ (by decide)
  unfold pattern
  rw [hiddenBit_eq] at *
  omega

theorem significand_eq (number : Binary64) :
    number.significand = significandAt number.pattern := by
  rw [significandAt, pattern_div, pattern_mod, significand]

theorem ofBinary64_eq (number : Binary64) :
    RoundingInterval.ofBinary64 number = intervalAt number.pattern := by
  simp [RoundingInterval.ofBinary64, intervalAt, significand_eq, pattern_div, pattern_mod,
    exponent, isBoundary]

private theorem significandAt_lt (pattern : Nat) : significandAt pattern < 2 * hiddenBit := by
  have := Nat.mod_lt pattern (show 0 < hiddenBit by decide)
  unfold significandAt
  split <;> omega

theorem significandAt_pos_iff {pattern : Nat} : 0 < significandAt pattern ↔ 0 < pattern := by
  unfold significandAt
  rw [hiddenBit_eq]
  split <;> omega

/-- Neighbouring magnitudes have significands of different parity. -/
private theorem significandAt_mod_two (pattern : Nat) :
    significandAt pattern % 2 = pattern % 2 := by
  unfold significandAt
  rw [hiddenBit_eq]
  split <;> omega

theorem unit_intervalAt_pos (pattern : Nat) : 0 < (intervalAt pattern).unit.value := by
  rw [intervalAt, Ratio.value_power]
  positivity

theorem intervalAt_zero_contains : (intervalAt 0).Contains 0 := by
  have unitPositive := unit_intervalAt_pos 0
  rw [RoundingInterval.Contains, if_pos (by decide), RoundingInterval.scaled,
    RoundingInterval.scaled, show (intervalAt 0).below = 0 from rfl, Nat.cast_zero, zero_mul]
  constructor
  · exact le_refl 0
  · positivity

/-- Only positive numbers round to a magnitude other than zero. -/
theorem pos_of_contains {pattern : Nat} (positive : 0 < pattern) {number : ℚ}
    (contains : (intervalAt pattern).Contains number) : 0 < number := by
  have unitPositive := unit_intervalAt_pos pattern
  have significandPositive := significandAt_pos_iff.mpr positive
  have below : 0 < (intervalAt pattern).below := by
    show 0 < 4 * significandAt pattern - _
    split <;> omega
  apply lt_of_lt_of_le _ contains.bounds.1
  rw [RoundingInterval.scaled]
  positivity

/-- The interval of a magnitude ends where that of the next one begins. -/
private theorem upper_eq_lower (pattern : Nat) :
    (intervalAt pattern).scaled (intervalAt pattern).above =
      (intervalAt (pattern + 1)).scaled (intervalAt (pattern + 1)).below := by
  have rest : pattern % hiddenBit < hiddenBit := Nat.mod_lt _ (by decide)
  simp only [RoundingInterval.scaled, intervalAt, Ratio.value_power, significandAt]
  by_cases carry : pattern % hiddenBit + 1 = hiddenBit
  · have high : (pattern + 1) / hiddenBit = pattern / hiddenBit + 1 := by
      rw [hiddenBit_eq] at *
      omega
    have low : (pattern + 1) % hiddenBit = 0 := by
      rw [hiddenBit_eq] at *
      omega
    rw [high, low]
    generalize pattern / hiddenBit = field
    by_cases subnormal : field = 0
    · rw [subnormal, if_pos rfl, if_neg Nat.one_ne_zero, if_neg (by omega)]
      congr 2
      omega
    · -- The last place doubles, and the interval below a power of two is cut short.
      rw [if_neg subnormal, if_neg (Nat.succ_ne_zero field), if_pos ⟨rfl, by omega⟩]
      have place : leastExponent + (field + 1 - 1 : Nat) - 2
          = 1 + (leastExponent + (field - 1 : Nat) - 2) := by omega
      have quarters :
          4 * (hiddenBit + pattern % hiddenBit) + 2 = (4 * (hiddenBit + 0) - 1) * 2 := by
        omega
      rw [place, zpow_add₀ (by norm_num), zpow_one, quarters, Nat.cast_mul, mul_assoc,
        Nat.cast_ofNat]
  · have high : (pattern + 1) / hiddenBit = pattern / hiddenBit := by
      rw [hiddenBit_eq] at *
      omega
    have low : (pattern + 1) % hiddenBit = pattern % hiddenBit + 1 := by
      rw [hiddenBit_eq] at *
      omega
    rw [high, low, if_neg (show ¬(pattern % hiddenBit + 1 = 0 ∧ 1 < pattern / hiddenBit) by omega)]
    congr 2
    split <;> omega

/-- Intervals begin in the order of their magnitudes. -/
private theorem strictMono_lower :
    StrictMono fun pattern => (intervalAt pattern).scaled (intervalAt pattern).below := by
  apply strictMono_nat_of_lt_succ
  intro pattern
  show (intervalAt pattern).scaled (intervalAt pattern).below
    < (intervalAt (pattern + 1)).scaled (intervalAt (pattern + 1)).below
  rw [← upper_eq_lower, RoundingInterval.scaled_lt_iff (unit_intervalAt_pos pattern)]
  show 4 * significandAt pattern - _ < 4 * significandAt pattern + 2
  omega

/-- Intervals of different magnitudes have no number in common: the one end that two
neighbours share belongs to the even one only. -/
private theorem not_contains_of_lt {smaller larger : Nat} (ordered : smaller < larger) {number : ℚ}
    (contains : (intervalAt smaller).Contains number) : ¬(intervalAt larger).Contains number := by
  intro containsToo
  have upper := contains.bounds.2
  have lower := containsToo.bounds.1
  have next : (intervalAt (smaller + 1)).scaled (intervalAt (smaller + 1)).below
      ≤ (intervalAt larger).scaled (intervalAt larger).below :=
    strictMono_lower.monotone ordered
  have shared := upper_eq_lower smaller
  have adjacent : smaller + 1 = larger := by
    apply strictMono_lower.injective
    apply le_antisymm next
    linarith
  subst adjacent
  have evenSmaller := contains.closed_of_end (.inr (le_antisymm upper (by linarith)))
  have evenLarger := containsToo.closed_of_end (.inl (le_antisymm (by linarith) lower))
  simp only [intervalAt, beq_iff_eq, significandAt_mod_two] at evenSmaller evenLarger
  omega

theorem pattern_eq_of_contains {first second : Nat} {number : ℚ}
    (contains : (intervalAt first).Contains number)
    (containsToo : (intervalAt second).Contains number) : first = second := by
  rcases Nat.lt_trichotomy first second with smaller | equal | larger
  · exact absurd containsToo (not_contains_of_lt smaller contains)
  · exact equal
  · exact absurd contains (not_contains_of_lt larger containsToo)

/-- In quarters of its last place, a double is less than 10^16 times as large as its
interval is wide; where the interval is cut short, the significand is the smallest. -/
private theorem value_lt_width {pattern : Nat} (positive : 0 < pattern) :
    (intervalAt pattern).value + (intervalAt pattern).below * 10 ^ (digitLimit - 1)
      < (intervalAt pattern).above * 10 ^ (digitLimit - 1) := by
  have significandPositive := significandAt_pos_iff.mpr positive
  have significandSmall := significandAt_lt pattern
  simp only [intervalAt, digitLimit]
  split
  case isTrue boundary =>
    have least : significandAt pattern = hiddenBit := by
      unfold significandAt
      rw [if_neg (by omega), boundary.1, Nat.add_zero]
    rw [hiddenBit_eq] at least
    omega
  case isFalse =>
    rw [hiddenBit_eq] at significandSmall
    omega

/-- Seventeen digits are enough: from the first digit of a double on, the grid of the
seventeenth is finer than the interval is wide. -/
theorem gridPoint?_digitLimit {pattern : Nat} (positive : 0 < pattern) :
    ((intervalAt pattern).gridPoint?
      ((intervalAt pattern).decimalExponent - (digitLimit - 1 : Nat))).isSome = true := by
  have unitPositive := unit_intervalAt_pos pattern
  have significandPositive := significandAt_pos_iff.mpr positive
  apply RoundingInterval.gridPoint?_isSome unitPositive
  · show 4 * significandAt pattern - _ ≤ 4 * significandAt pattern
    omega
  · show 4 * significandAt pattern < 4 * significandAt pattern + 2
    omega
  · have first : (10 : ℚ) ^ (intervalAt pattern).decimalExponent
        ≤ (intervalAt pattern).scaled (intervalAt pattern).value := by
      apply RoundingInterval.pow_decimalExponent_le unitPositive
      show 0 < 4 * significandAt pattern
      omega
    rw [zpow_sub₀ (by norm_num), div_lt_iff₀ (by positivity)]
    apply lt_of_le_of_lt first
    simp only [RoundingInterval.scaled]
    rw [← sub_mul, mul_right_comm]
    apply mul_lt_mul_of_pos_right _ unitPositive
    have wide := value_lt_width positive
    rw [zpow_natCast, sub_mul, lt_sub_iff_add_lt]
    exact_mod_cast wide

end Binary64
end Transpiler
