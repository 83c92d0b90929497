import Mathlib.Data.List.Induction
import Mathlib.Data.Nat.Digits.Defs
import Transpiler.Token.Value

/-!
Contract: the numbers that integers stand for.

Owns: the value of digits in a radix (`Numeral.value`), that the computation within 64 bits yields
it whenever it fits (`Numeral.smallInteger?_eq`), that the computation by decimal digits always
yields its decimal digits (`Numeral.decimalDigits?_eq`), and the token of a value.

Does not own: which texts are well formed.
-/

namespace Transpiler

/-- The token of a non-negative integer. -/
def TokenKind.ofInteger (value : Nat) : TokenKind :=
  if value ≤ smallIntegerLimit then .int value else .bigInt (toString value)

namespace Numeral

/-! ### The value of digits -/

/-- The number that digits of a radix denote, most significant first. -/
def value (radix : Nat) (digits : List Nat) : Nat :=
  Nat.ofDigits radix digits.reverse

@[simp] theorem value_singleton (radix digit : Nat) : value radix [digit] = digit :=
  Nat.ofDigits_singleton

theorem value_concat (radix : Nat) (digits : List Nat) (digit : Nat) :
    value radix (digits ++ [digit]) = value radix digits * radix + digit := by
  rw [value, value, List.reverse_concat, Nat.ofDigits_cons, Nat.mul_comm, Nat.add_comm]

private theorem value_zero_cons (radix : Nat) (digits : List Nat) :
    value radix (0 :: digits) = value radix digits :=
  Nat.ofDigits_reverse_zero_cons digits

/-- Characters denote the value of the digits that they stand for. -/
theorem positionalValue_of_digits {radix : Nat} {characters : List Char} {digits : List Nat}
    (stand : characters.mapM (Text.digitValue? radix) = some digits) :
    Text.positionalValue radix characters = value radix digits := by
  induction characters using List.reverseRecOn generalizing digits with
  | nil =>
      obtain rfl : [] = digits := by simpa using stand
      rfl
  | append_singleton front last inductionHypothesis =>
      rw [List.mapM_append, Option.bind_eq_bind, Option.bind_eq_some_iff] at stand
      obtain ⟨before, frontStands, stand⟩ := stand
      obtain ⟨one, lastStands, whole⟩ := Option.bind_eq_some_iff.mp stand
      obtain ⟨digit, isDigit, rfl⟩ : ∃ digit, Text.digitValue? radix last = some digit ∧
          [digit] = one := by
        simpa [Option.bind_eq_some_iff] using lastStands
      obtain rfl : before ++ [digit] = digits := by simpa using whole
      rw [value_concat, ← inductionHypothesis frontStands, Text.positionalValue, List.foldl_append,
        List.foldl_cons, List.foldl_nil, isDigit, Option.getD_some, Text.positionalValue]

/-! ### Within 64 bits -/

/-- Checking the product as well as the sum refuses nothing else than checking the sum. -/
private theorem appendDigit?_eq (radix number digit : Nat) :
    appendDigit? radix number digit = small? (number * radix + digit) := by
  unfold appendDigit?
  by_cases fits : number * radix ≤ smallIntegerLimit
  · rw [small?, if_pos fits, Option.bind_some]
  · rw [small?, if_neg fits, Option.bind_none, small?, if_neg (by omega)]

/-- Values only grow, so a value that fits was small all along. -/
private theorem foldlM_appendDigit? {radix : Nat} (positive : 0 < radix) (digits : List Nat) :
    digits.foldlM (appendDigit? radix) 0 = small? (value radix digits) := by
  induction digits using List.reverseRecOn with
  | nil => rfl
  | append_singleton front last inductionHypothesis =>
      rw [List.foldlM_append, inductionHypothesis, value_concat]
      by_cases fits : value radix front ≤ smallIntegerLimit
      · rw [small?, if_pos fits]
        simpa using appendDigit?_eq radix (value radix front) last
      · have grows : value radix front ≤ value radix front * radix + last :=
          Nat.le_add_right_of_le (Nat.le_mul_of_pos_right _ positive)
        rw [small?, if_neg fits, small?, if_neg (by omega)]
        rfl

theorem smallInteger?_eq {radix : Nat} (positive : 0 < radix) (marked : Bool) (body : List Char) :
    smallInteger? radix marked body =
      (digits? radix marked body).bind fun digits => small? (value radix digits) := by
  rw [smallInteger?, funext (foldlM_appendDigit? positive)]

/-! ### By decimal digits -/

/-- Decimal digits of a number, least significant first. -/
structure DecimalDigits (decimal : List Nat) (number : Nat) : Prop where
  small : ∀ digit ∈ decimal, digit < 10
  denote : Nat.ofDigits 10 decimal = number

theorem DecimalDigits.carryDigits (carry : Nat) : DecimalDigits (carryDigits carry) carry := by
  fun_induction Numeral.carryDigits carry with
  | case1 => exact ⟨by simp, rfl⟩
  | case2 carry _ inductionHypothesis =>
      refine ⟨List.forall_mem_cons.mpr ⟨Nat.mod_lt _ (by decide), inductionHypothesis.small⟩, ?_⟩
      rw [Nat.ofDigits_cons, inductionHypothesis.denote, Nat.mod_add_div]

/-- A pass over the digits multiplies the number and adds the carry. -/
theorem DecimalDigits.scale {decimal : List Nat} {number : Nat}
    (digits : DecimalDigits decimal number) (factor carry : Nat) :
    DecimalDigits (scale factor carry decimal) (number * factor + carry) := by
  induction decimal generalizing number carry with
  | nil =>
      obtain rfl : 0 = number := digits.denote
      rw [Nat.zero_mul, Nat.zero_add]
      exact .carryDigits carry
  | cons digit rest inductionHypothesis =>
      obtain ⟨_, smallRest⟩ := List.forall_mem_cons.mp digits.small
      have others : DecimalDigits rest (Nat.ofDigits 10 rest) := ⟨smallRest, rfl⟩
      have scaled := inductionHypothesis others ((digit * factor + carry) / 10)
      refine ⟨List.forall_mem_cons.mpr ⟨Nat.mod_lt _ (by decide), scaled.small⟩, ?_⟩
      have split := Nat.mod_add_div (digit * factor + carry) 10
      calc Nat.ofDigits 10 (Numeral.scale factor carry (digit :: rest))
        _ = (digit * factor + carry) % 10 +
              10 * (Nat.ofDigits 10 rest * factor + (digit * factor + carry) / 10) := by
            rw [Numeral.scale, Nat.ofDigits_cons, scaled.denote]
        _ = digit * factor + 10 * (Nat.ofDigits 10 rest * factor) + carry := by omega
        _ = number * factor + carry := by
            rw [← digits.denote, Nat.ofDigits_cons, Nat.add_mul, Nat.mul_assoc]

theorem DecimalDigits.toDecimal (radix : Nat) (digits : List Nat) :
    DecimalDigits (toDecimal radix digits) (value radix digits) := by
  induction digits using List.reverseRecOn with
  | nil => exact ⟨by simp [Numeral.toDecimal], rfl⟩
  | append_singleton front last inductionHypothesis =>
      rw [value_concat, Numeral.toDecimal, List.foldl_append]
      exact inductionHypothesis.scale radix last

/-! ### Decimal digits as text -/

private theorem value_pos {digits : List Nat} {first : Nat} (positive : 0 < first) :
    0 < value 10 (first :: digits) := by
  induction digits using List.reverseRecOn with
  | nil => rwa [value_singleton]
  | append_singleton front last inductionHypothesis =>
      rw [← List.cons_append, value_concat]
      omega

/-- Digits without a leading zero are the digits of their value. -/
private theorem toDigits_value {digits : List Nat} (small : ∀ digit ∈ digits, digit < 10)
    (canonical : digits.length = 1 ∨ ∃ first rest, digits = first :: rest ∧ 0 < first) :
    Nat.toDigits 10 (value 10 digits) = digits.map Nat.digitChar := by
  induction digits using List.reverseRecOn with
  | nil => simp at canonical
  | append_singleton front last inductionHypothesis =>
      have lastSmall : last < 10 := small last (by simp)
      have frontSmall : ∀ digit ∈ front, digit < 10 :=
        fun digit member => small digit (List.mem_append_left _ member)
      cases front with
      | nil => rw [List.nil_append, value_singleton, Nat.toDigits_of_lt_base lastSmall]; rfl
      | cons first others =>
          have positive : 0 < first := by simpa using canonical
          have frontPositive := @value_pos others first positive
          rw [value_concat, Nat.toDigits_of_base_le (by decide) (by omega),
            show (value 10 (first :: others) * 10 + last) / 10 = value 10 (first :: others) by
              omega,
            show (value 10 (first :: others) * 10 + last) % 10 = last by omega,
            inductionHypothesis frontSmall (.inr ⟨first, others, rfl, positive⟩), List.map_append]
          rfl

/-- Leading zeros do not count. -/
private theorem map_digitChar_withoutLeadingZeros {digits : List Nat} (some : digits ≠ [])
    (small : ∀ digit ∈ digits, digit < 10) :
    (withoutLeadingZeros digits).map Nat.digitChar = Nat.toDigits 10 (value 10 digits) := by
  fun_induction withoutLeadingZeros digits with
  | case1 next rest inductionHypothesis =>
      rw [value_zero_cons]
      exact inductionHypothesis (by simp) fun digit member =>
        small digit (List.mem_cons_of_mem _ member)
  | case2 digits noZero =>
      refine (toDigits_value small ?_).symm
      obtain ⟨first, others, rfl⟩ := List.exists_cons_of_ne_nil some
      cases others with
      | nil => exact .inl rfl
      | cons next rest =>
          have positive : first ≠ 0 := fun isZero => noZero next rest (by rw [isZero])
          exact .inr ⟨first, next :: rest, rfl, Nat.pos_of_ne_zero positive⟩

private theorem toDecimal_ne_nil (radix : Nat) (digits : List Nat) :
    toDecimal radix digits ≠ [] := by
  have scale_ne_nil (factor carry : Nat) {decimal : List Nat} (some : decimal ≠ []) :
      scale factor carry decimal ≠ [] := by
    cases decimal with
    | nil => exact absurd rfl some
    | cons digit rest => simp [scale]
  induction digits using List.reverseRecOn with
  | nil => simp [toDecimal]
  | append_singleton front last inductionHypothesis =>
      rw [toDecimal, List.foldl_append]
      exact scale_ne_nil radix last inductionHypothesis

theorem decimalDigits?_eq (radix : Nat) (marked : Bool) (body : List Char) :
    decimalDigits? radix marked body =
      (digits? radix marked body).map fun digits => toString (value radix digits) := by
  have text (digits : List Nat) : String.ofList
      ((withoutLeadingZeros (toDecimal radix digits).reverse).map Nat.digitChar) =
        toString (value radix digits) := by
    have decimal := DecimalDigits.toDecimal radix digits
    have denotes : value 10 (toDecimal radix digits).reverse = value radix digits := by
      rw [value, List.reverse_reverse, decimal.denote]
    rw [map_digitChar_withoutLeadingZeros (by simpa using toDecimal_ne_nil radix digits)
      (fun digit member => decimal.small digit (List.mem_reverse.mp member)), denotes]
    rfl
  rw [decimalDigits?, funext text]

/-! ### Tokens -/

/-- An integer becomes the token of its value. -/
theorem ofInteger?_eq {radix : Nat} (positive : 0 < radix) (marked : Bool) (body : List Char) :
    TokenKind.ofInteger? radix marked body =
      (digits? radix marked body).map fun digits => .ofInteger (value radix digits) := by
  rw [TokenKind.ofInteger?, smallInteger?_eq positive, decimalDigits?_eq]
  cases digits? radix marked body with
  | none => rfl
  | some digits =>
      by_cases fits : value radix digits ≤ smallIntegerLimit
      · simp only [Option.bind_some, small?, if_pos fits, Option.map_some, TokenKind.ofInteger]
      · simp only [Option.bind_some, small?, if_neg fits, Option.map_some, TokenKind.ofInteger]

end Numeral
end Transpiler
