import Mathlib.Data.List.TakeWhile
import Transpiler.Decimal.Layout
import Transpiler.Proofs.Decimal.RoundingInterval
import Transpiler.Proofs.Token.Spelling

/-!
Contract: the text of a double determines the double.

Main results: the shortest decimal of a double is in its rounding interval
(`shortest_contains`) and in normal form (`normal_shortest`), the text of a decimal in normal
form determines its sign, its digits and its exponent (`layout_injective`), hence different
doubles other than NaN have different texts (`Binary64.render_injective`).
-/

namespace Transpiler

namespace Decimal

/-! ### Shortest decimals -/

/-- Digits without a zero at either end. -/
structure Significant (digits : List Char) : Prop where
  areDigits : ∀ digit ∈ digits, digit.isDigit = true
  nonempty : digits ≠ []
  first : digits.head? ≠ some '0'
  last : digits.getLast? ≠ some '0'

/-- The decimals that are written: a single zero, or significant digits with any exponent. -/
inductive Scientific.Normal : Scientific → Prop
  | zero : Normal ⟨['0'], 0⟩
  | significant {digits : List Char} {exponent : Int} (significant : Significant digits) :
      Normal ⟨digits, exponent⟩

/-- The number that a decimal denotes. -/
def Scientific.value (decimal : Scientific) : ℚ :=
  Text.positionalValue 10 decimal.digits
    * (10 : ℚ) ^ (decimal.exponent + 1 - decimal.digits.length)

theorem positionalValue_append_zeros (digits : List Char) (zeros : Nat) :
    Text.positionalValue 10 (digits ++ List.replicate zeros '0')
      = Text.positionalValue 10 digits * 10 ^ zeros := by
  induction zeros with
  | zero => simp
  | succ zeros inductionHypothesis =>
      have zero : (Text.digitValue? 10 '0').getD 0 = 0 := by decide
      rw [List.replicate_succ', ← List.append_assoc]
      unfold Text.positionalValue at *
      rw [List.foldl_append, inductionHypothesis, List.foldl_cons, List.foldl_nil, zero,
        Nat.add_zero, Nat.pow_succ, Nat.mul_assoc]

/-- The digits of a number are its significant digits, followed by zeros. -/
private theorem toDigits_eq_significantDigits (number : Nat) :
    ∃ zeros, Nat.toDigits 10 number = significantDigits number ++ List.replicate zeros '0' := by
  let ending := (Nat.toDigits 10 number).reverse.takeWhile (· == '0')
  have zeros : ending = List.replicate ending.length '0' := by
    apply List.eq_replicate_of_mem
    intro digit member
    simpa using List.mem_takeWhile_imp member
  have split : ending ++ (Nat.toDigits 10 number).reverse.dropWhile (· == '0')
      = (Nat.toDigits 10 number).reverse := List.takeWhile_append_dropWhile
  use ending.length
  rw [← List.reverse_reverse (Nat.toDigits 10 number), ← split, List.reverse_append, zeros,
    List.reverse_replicate, List.length_replicate, significantDigits, Nat.toList_repr]

private theorem significant_significantDigits {number : Nat} (positive : 0 < number) :
    Significant (significantDigits number) := by
  obtain ⟨zeros, split⟩ := toDigits_eq_significantDigits number
  have firstDigit := Numeral.head?_toDigits_ne_zero positive
  have nonempty : significantDigits number ≠ [] := by
    intro empty
    rw [empty, List.nil_append] at split
    have some : Nat.toDigits 10 number ≠ [] := Nat.toDigits_ne_nil
    cases zeros with
    | zero => exact some split
    | succ zeros => exact firstDigit (by rw [split]; rfl)
  constructor
  case areDigits =>
    intro digit member
    have inAll : digit ∈ Nat.toDigits 10 number := by
      rw [split]
      exact List.mem_append_left _ member
    exact Nat.isDigit_of_mem_toDigits (by decide) (by decide) inAll
  case nonempty => exact nonempty
  case first =>
    rw [split, List.head?_append_of_ne_nil _ nonempty] at firstDigit
    exact firstDigit
  case last =>
    rw [significantDigits, List.getLast?_reverse]
    have stopped := List.head?_dropWhile_not (· == '0') (Nat.repr number).toList.reverse
    intro zero
    rw [zero] at stopped
    cases stopped

private theorem value_significantDigits (point : Nat) (place : Int) :
    Scientific.value ⟨significantDigits point, place + ((Nat.repr point).length - 1 : Nat)⟩
      = point * (10 : ℚ) ^ place := by
  obtain ⟨zeros, split⟩ := toDigits_eq_significantDigits point
  have digitCount : (Nat.repr point).length = (significantDigits point).length + zeros := by
    rw [RoundingInterval.length_repr, split, List.length_append, List.length_replicate]
  have digitsPositive : 0 < (Nat.repr point).length := Nat.length_repr_pos
  have amount : point = Text.positionalValue 10 (significantDigits point) * 10 ^ zeros := by
    rw [← positionalValue_append_zeros, ← split, Numeral.positionalValue_toDigits]
  have exponent : place + ((Nat.repr point).length - 1 : Nat) + 1 - (significantDigits point).length
      = zeros + place := by omega
  rw [Scientific.value, exponent, zpow_add₀ (by norm_num), zpow_natCast, ← mul_assoc]
  congr 1
  exact_mod_cast amount.symm

/-- The search for the shortest decimal ends at a point of some grid, and not at zero. -/
private theorem exists_gridPoint {number : Binary64} (positive : 0 < number.pattern) :
    ∃ (point : Nat) (place : Int), 0 < point ∧
      (Binary64.intervalAt number.pattern).Contains (point * (10 : ℚ) ^ place) ∧
      shortest number =
        ⟨significantDigits point, place + ((Nat.repr point).length - 1 : Nat)⟩ := by
  have significandPositive := Binary64.significandAt_pos_iff.mpr positive
  unfold shortest
  rw [if_neg (by rw [Binary64.significand_eq]; omega), Binary64.ofBinary64_eq]
  extract_lets interval first hit
  have found : hit.isSome = true := by
    rw [List.findSome?_isSome_iff]
    use digitLimit - 1
    rw [Option.isSome_map]
    exact ⟨by decide, Binary64.gridPoint?_digitLimit positive⟩
  obtain ⟨⟨point, place⟩, isHit⟩ := Option.isSome_iff_exists.mp found
  obtain ⟨extraDigits, -, isPoint⟩ := List.exists_of_findSome?_eq_some isHit
  obtain ⟨_, isGridPoint, pair⟩ := Option.map_eq_some_iff.mp isPoint
  obtain ⟨rfl, rfl⟩ := Prod.mk.inj pair
  have contains := RoundingInterval.gridPoint?_contains
    (Binary64.unit_intervalAt_pos number.pattern) _ isGridPoint
  have pointPositive := (mul_pos_iff_of_pos_right (by positivity)).mp
    (Binary64.pos_of_contains positive contains)
  exact ⟨_, _, by exact_mod_cast pointPositive, contains, by rw [isHit]⟩

private theorem shortest_of_zero {number : Binary64} (zero : number.pattern = 0) :
    shortest number = ⟨['0'], 0⟩ := by
  rw [shortest, if_pos]
  rw [Binary64.significand_eq, zero]
  rfl

/-- The shortest decimal of a double rounds to the double's magnitude. -/
private theorem shortest_contains (number : Binary64) :
    (Binary64.intervalAt number.pattern).Contains (shortest number).value := by
  rcases Nat.eq_zero_or_pos number.pattern with zero | positive
  · have nothing : Scientific.value ⟨['0'], 0⟩ = 0 := by
      rw [Scientific.value, show Text.positionalValue 10 ['0'] = 0 by decide, Nat.cast_zero,
        zero_mul]
    rw [shortest_of_zero zero, nothing, zero]
    exact Binary64.intervalAt_zero_contains
  · obtain ⟨point, place, -, contains, isShortest⟩ := exists_gridPoint positive
    rw [isShortest, value_significantDigits]
    exact contains

theorem normal_shortest (number : Binary64) : (shortest number).Normal := by
  rcases Nat.eq_zero_or_pos number.pattern with zero | positive
  · rw [shortest_of_zero zero]
    exact .zero
  · obtain ⟨point, place, pointPositive, -, isShortest⟩ := exists_gridPoint positive
    rw [isShortest]
    exact .significant (significant_significantDigits pointPositive)

/-! ### Their texts -/

/-- A run of one character is as long as it can be if the next character differs. -/
private theorem replicate_append_inj {filler : Char} {first second : Nat} {rest more : List Char}
    (stops : rest.head? ≠ some filler) (stopsToo : more.head? ≠ some filler)
    (texts : List.replicate first filler ++ rest = List.replicate second filler ++ more) :
    first = second ∧ rest = more := by
  induction first generalizing second with
  | zero =>
      cases second with
      | zero => exact ⟨rfl, texts⟩
      | succ second =>
          rw [List.replicate_zero, List.nil_append] at texts
          exact absurd (by rw [texts]; rfl) stops
  | succ first inductionHypothesis =>
      cases second with
      | zero =>
          rw [List.replicate_zero, List.nil_append] at texts
          exact absurd (by rw [← texts]; rfl) stopsToo
      | succ second =>
          obtain ⟨counts, rests⟩ := inductionHypothesis (List.cons.inj texts).2
          exact ⟨by rw [counts], rests⟩

/-- Significant digits can be told from the zeros around them. -/
theorem Significant.eq_of_padded {digits others : List Char} (significant : Significant digits)
    (significantToo : Significant others) {before after beforeToo afterToo : Nat}
    (texts : List.replicate before '0' ++ digits ++ List.replicate after '0'
      = List.replicate beforeToo '0' ++ others ++ List.replicate afterToo '0') :
    before = beforeToo ∧ digits = others := by
  have first (digits : List Char) (significant : Significant digits) (zeros : Nat) :
      (digits ++ List.replicate zeros '0').head? ≠ some '0' := by
    rw [List.head?_append_of_ne_nil _ significant.nonempty]
    exact significant.first
  rw [List.append_assoc, List.append_assoc] at texts
  obtain ⟨counts, rests⟩ := replicate_append_inj (first digits significant after)
    (first others significantToo afterToo) texts
  have reversed := congrArg List.reverse rests
  rw [List.reverse_append, List.reverse_append, List.reverse_replicate,
    List.reverse_replicate] at reversed
  obtain ⟨-, reversedDigits⟩ := replicate_append_inj
    (by rw [List.head?_reverse]; exact significant.last)
    (by rw [List.head?_reverse]; exact significantToo.last) reversed
  exact ⟨counts, List.reverse_injective reversedDigits⟩

/-- Digits around a point: the exponent of the first digit says how many stand before the
point, and zeros fill the places that the digits do not reach. -/
structure Pointed (digits : List Char) (exponent : Int) (whole fraction : List Char) : Prop where
  padded : ∃ before after : Nat,
    whole ++ fraction = List.replicate before '0' ++ digits ++ List.replicate after '0' ∧
      (whole.length : Int) = exponent + 1 + before
  wholeNonempty : whole ≠ []
  fractionNonempty : fraction ≠ []

theorem exists_pointed {digits : List Char} (nonempty : digits ≠ []) (exponent : Int) :
    ∃ whole fraction, positional digits exponent = whole ++ '.' :: fraction ∧
      Pointed digits exponent whole fraction := by
  unfold positional
  by_cases small : exponent < 0
  · rw [if_pos small]
    refine ⟨['0'], List.replicate (-(exponent + 1)).toNat '0' ++ digits, rfl, ?_, by simp,
      List.append_ne_nil_of_right_ne_nil _ nonempty⟩
    refine ⟨(-(exponent + 1)).toNat + 1, 0, ?_, ?_⟩
    · rw [List.replicate_succ]
      simp
    · rw [List.length_singleton]
      omega
  · rw [if_neg small]
    by_cases short : digits.length ≤ exponent.toNat + 1
    · rw [if_pos short]
      refine ⟨digits ++ List.replicate (exponent.toNat + 1 - digits.length) '0', ['0'], ?_, ?_,
        List.append_ne_nil_of_left_ne_nil nonempty _, by simp⟩
      · simp
      · refine ⟨0, exponent.toNat + 1 - digits.length + 1, ?_, ?_⟩
        · rw [List.replicate_succ']
          simp
        · rw [List.length_append, List.length_replicate]
          omega
    · rw [if_neg short]
      refine ⟨digits.take (exponent.toNat + 1), digits.drop (exponent.toNat + 1), ?_,
        ⟨0, 0, ?_, ?_⟩, ?_, ?_⟩
      · simp
      · simp
      · rw [List.length_take]
        omega
      · simpa using nonempty
      · rw [Ne, List.drop_eq_nil_iff]
        exact short

section Characters

variable {digits whole fraction : List Char} {exponent : Int}

theorem Pointed.areDigits (pointed : Pointed digits exponent whole fraction)
    (areDigits : ∀ digit ∈ digits, digit.isDigit = true) :
    ∀ digit ∈ whole ++ fraction, digit.isDigit = true := by
  obtain ⟨before, after, padded, -⟩ := pointed.padded
  intro digit member
  rw [padded, List.mem_append, List.mem_append] at member
  rcases member with (zero | inDigits) | zero
  · rw [List.eq_of_mem_replicate zero]
    rfl
  · exact areDigits digit inDigits
  · rw [List.eq_of_mem_replicate zero]
    rfl

/-- Digits around a point are written with nothing else. -/
theorem Pointed.characters (pointed : Pointed digits exponent whole fraction)
    (areDigits : ∀ digit ∈ digits, digit.isDigit = true) :
    ∀ character ∈ whole ++ '.' :: fraction, character.isDigit = true ∨ character = '.' := by
  intro character member
  rcases List.mem_append.mp member with inWhole | inRest
  · exact .inl (pointed.areDigits areDigits character (List.mem_append_left _ inWhole))
  · rcases List.mem_cons.mp inRest with point | inFraction
    · exact .inr point
    · exact .inl (pointed.areDigits areDigits character (List.mem_append_right _ inFraction))

end Characters

theorem Significant.not_zeros {digits : List Char} (significant : Significant digits)
    (zeros before after : Nat) :
    List.replicate zeros '0' ≠ List.replicate before '0' ++ digits ++ List.replicate after '0' := by
  intro texts
  rw [← List.append_nil (List.replicate zeros '0'), List.append_assoc] at texts
  have first : (digits ++ List.replicate after '0').head? ≠ some '0' := by
    rw [List.head?_append_of_ne_nil _ significant.nonempty]
    exact significant.first
  have empty := (replicate_append_inj (by simp) first texts).2
  exact significant.nonempty (List.append_eq_nil_iff.mp empty.symm).1

theorem Scientific.Normal.areDigits {decimal : Scientific} (normal : decimal.Normal) :
    ∀ digit ∈ decimal.digits, digit.isDigit = true := by
  cases normal with
  | zero => simp
  | significant significant => exact significant.areDigits

theorem Scientific.Normal.nonempty {decimal : Scientific} (normal : decimal.Normal) :
    decimal.digits ≠ [] := by
  cases normal with
  | zero => simp
  | significant significant => exact significant.nonempty

theorem Pointed.decimal_eq {first second : Scientific} (normal : first.Normal)
    (normalToo : second.Normal) {whole fraction : List Char}
    (pointed : Pointed first.digits first.exponent whole fraction)
    (pointedToo : Pointed second.digits second.exponent whole fraction) : first = second := by
  obtain ⟨before, after, padded, places⟩ := pointed.padded
  obtain ⟨beforeToo, afterToo, paddedToo, placesToo⟩ := pointedToo.padded
  rw [padded] at paddedToo
  have zeros (before after : Nat) : List.replicate before '0' ++ ['0'] ++ List.replicate after '0'
      = List.replicate (before + 1 + after) '0' := by
    rw [← List.replicate_one, List.replicate_append_replicate, List.replicate_append_replicate]
  cases normal with
  | zero =>
      cases normalToo with
      | zero => rfl
      | significant significant =>
          rw [zeros] at paddedToo
          exact absurd paddedToo (significant.not_zeros _ _ _)
  | significant significant =>
      cases normalToo with
      | zero =>
          rw [zeros] at paddedToo
          exact absurd paddedToo.symm (significant.not_zeros _ _ _)
      | significant significantToo =>
          obtain ⟨counts, sameDigits⟩ := significant.eq_of_padded significantToo paddedToo
          dsimp only at places placesToo
          rw [Scientific.mk.injEq]
          exact ⟨sameDigits, by omega⟩

/-- Digits with the point after the first one. -/
def mantissa (digits : List Char) : List Char :=
  digits.take 1 ++ if digits.length ≤ 1 then [] else '.' :: digits.drop 1

/-- An exponent with its sign and at least two digits. -/
def exponentText (exponent : Int) : List Char :=
  (if exponent < 0 then '-' else '+')
    :: Text.padZeros 2 (Nat.toDigits 10 exponent.natAbs)

theorem scientific_eq (digits : List Char) (exponent : Int) :
    scientific digits exponent = mantissa digits ++ 'e' :: exponentText exponent := by
  simp [scientific, mantissa, exponentText]

/-- Without its point, a mantissa is its digits. -/
private theorem filter_mantissa {digits : List Char}
    (areDigits : ∀ digit ∈ digits, digit.isDigit = true) :
    (mantissa digits).filter (· != '.') = digits := by
  have noPoint : digits.filter (· != '.') = digits := by
    rw [List.filter_eq_self]
    intro digit member
    rw [bne_iff_ne]
    rintro rfl
    exact absurd (areDigits '.' member) (by decide)
  unfold mantissa
  split
  case isTrue short =>
    rw [List.append_nil, List.take_of_length_le short, noPoint]
  case isFalse =>
    rw [List.filter_append, List.filter_cons_of_neg (by decide), ← List.filter_append,
      List.take_append_drop, noPoint]

theorem positionalValue_zeros_append (zeros : Nat) (digits : List Char) :
    Text.positionalValue 10 (List.replicate zeros '0' ++ digits)
      = Text.positionalValue 10 digits := by
  induction zeros with
  | zero => rfl
  | succ zeros inductionHypothesis => exact inductionHypothesis

private theorem exponentText_injective : Function.Injective exponentText := by
  intro first second texts
  obtain ⟨signs, digits⟩ := List.cons.inj texts
  have sizes : first.natAbs = second.natAbs := by
    have values := congrArg (Text.positionalValue 10) digits
    rw [Text.padZeros, Text.padZeros, positionalValue_zeros_append, positionalValue_zeros_append,
      Numeral.positionalValue_toDigits, Numeral.positionalValue_toDigits] at values
    exact values
  split at signs
  · split at signs
    · omega
    · exact absurd signs (by decide)
  · split at signs
    · exact absurd signs (by decide)
    · omega

private theorem characters_mantissa {digits : List Char}
    (areDigits : ∀ digit ∈ digits, digit.isDigit = true) :
    ∀ character ∈ mantissa digits, character.isDigit = true ∨ character = '.' := by
  intro character member
  by_cases point : character = '.'
  · exact .inr point
  · have kept : character ∈ (mantissa digits).filter (· != '.') :=
      List.mem_filter.mpr ⟨member, bne_iff_ne.mpr point⟩
    rw [filter_mantissa areDigits] at kept
    exact .inl (areDigits character kept)

private theorem characters_exponentText (exponent : Int) :
    ∀ character ∈ exponentText exponent,
      character.isDigit = true ∨ character = '+' ∨ character = '-' := by
  intro character member
  rcases List.mem_cons.mp member with sign | inDigits
  · rw [sign]
    split
    · exact .inr (.inr rfl)
    · exact .inr (.inl rfl)
  · left
    rcases List.mem_append.mp inDigits with zero | digit
    · rw [List.eq_of_mem_replicate zero]
      rfl
    · exact Nat.isDigit_of_mem_toDigits (by decide) (by decide) digit

/-- The text of a decimal without its sign. -/
def body (decimal : Scientific) : List Char :=
  if isPositional decimal.exponent then positional decimal.digits decimal.exponent
  else scientific decimal.digits decimal.exponent

theorem toList_layout (negative : Bool) (decimal : Scientific) :
    (layout negative decimal).toList = (if negative then ['-'] else []) ++ body decimal :=
  String.toList_ofList

section Body

variable {decimal : Scientific} (normal : decimal.Normal)
include normal

/-- The text of a decimal is digits around a point, or a mantissa and an exponent. -/
theorem body_cases :
    (∃ whole fraction, body decimal = whole ++ '.' :: fraction ∧
      Pointed decimal.digits decimal.exponent whole fraction) ∨
    body decimal = mantissa decimal.digits ++ 'e' :: exponentText decimal.exponent := by
  unfold body
  split
  · exact .inl (exists_pointed normal.nonempty decimal.exponent)
  · exact .inr (scientific_eq decimal.digits decimal.exponent)

/-- The text begins with a digit. -/
private theorem head?_body : ∃ digit, (body decimal).head? = some digit ∧ digit.isDigit = true := by
  rcases body_cases normal with ⟨whole, fraction, text, pointed⟩ | text
  · obtain ⟨first, more, rfl⟩ := List.exists_cons_of_ne_nil pointed.wholeNonempty
    exact ⟨first, by rw [text]; rfl, pointed.areDigits normal.areDigits first (by simp)⟩
  · obtain ⟨first, more, digits⟩ := List.exists_cons_of_ne_nil normal.nonempty
    refine ⟨first, ?_, normal.areDigits first (by rw [digits]; simp)⟩
    rw [text, digits, mantissa]
    rfl

/-- The text has a mark that no integer has. -/
private theorem mark_mem_body : '.' ∈ body decimal ∨ 'e' ∈ body decimal := by
  rcases body_cases normal with ⟨whole, fraction, text, -⟩ | text
  · left
    rw [text]
    exact List.mem_append_right _ (List.mem_cons_self ..)
  · right
    rw [text]
    exact List.mem_append_right _ (List.mem_cons_self ..)

/-- The characters of a number's text beside its digits. -/
private theorem characters_body : ∀ character ∈ body decimal,
    character.isDigit = true ∨ character ∈ ['.', 'e', '+', '-'] := by
  intro character member
  rcases body_cases normal with ⟨whole, fraction, text, pointed⟩ | text
  · rw [text] at member
    rcases pointed.characters normal.areDigits character member with digit | rfl
    · exact .inl digit
    · exact .inr (by decide)
  · rw [text, List.mem_append, List.mem_cons] at member
    rcases member with inMantissa | rfl | inExponent
    · rcases characters_mantissa normal.areDigits character inMantissa with digit | rfl
      · exact .inl digit
      · exact .inr (by decide)
    · exact .inr (by decide)
    · rcases characters_exponentText decimal.exponent character inExponent with digit | rfl | rfl
      · exact .inl digit
      · exact .inr (by decide)
      · exact .inr (by decide)

end Body

/-- A decimal in normal form can be read off its text. -/
private theorem body_injective {first second : Scientific} (normal : first.Normal)
    (normalToo : second.Normal) (texts : body first = body second) : first = second := by
  have pointed_ne_scaled {decimal other : Scientific} (normal : decimal.Normal)
      {whole fraction : List Char}
      (pointed : Pointed decimal.digits decimal.exponent whole fraction) :
      whole ++ '.' :: fraction ≠ mantissa other.digits ++ 'e' :: exponentText other.exponent := by
    intro texts
    have member : 'e' ∈ whole ++ '.' :: fraction := by
      rw [texts]
      exact List.mem_append_right _ (List.mem_cons_self ..)
    exact absurd (pointed.characters normal.areDigits 'e' member) (by decide)
  rcases body_cases normal with ⟨whole, fraction, text, pointed⟩ | text
  · rcases body_cases normalToo with ⟨wholeToo, fractionToo, textToo, pointedToo⟩ | textToo
    · have digits := pointed.areDigits normal.areDigits
      have point : '.' ∉ whole ++ fraction := fun member => absurd (digits '.' member) (by decide)
      rw [List.mem_append, not_or] at point
      rw [text, textToo, List.append_cons_inj_of_notMem point.1 point.2] at texts
      obtain ⟨rfl, -, rfl⟩ := texts
      exact pointed.decimal_eq normal normalToo pointedToo
    · rw [text, textToo] at texts
      exact absurd texts (pointed_ne_scaled normal pointed)
  · rcases body_cases normalToo with ⟨wholeToo, fractionToo, textToo, pointedToo⟩ | textToo
    · rw [text, textToo] at texts
      exact absurd texts.symm (pointed_ne_scaled normalToo pointedToo)
    · have noMark : 'e' ∉ mantissa first.digits := fun member =>
        absurd (characters_mantissa normal.areDigits 'e' member) (by decide)
      have noMarkToo : 'e' ∉ exponentText first.exponent := fun member =>
        absurd (characters_exponentText first.exponent 'e' member) (by decide)
      rw [text, textToo, List.append_cons_inj_of_notMem noMark noMarkToo] at texts
      obtain ⟨mantissas, -, exponents⟩ := texts
      have digits : first.digits = second.digits := by
        rw [← filter_mantissa normal.areDigits, mantissas, filter_mantissa normalToo.areDigits]
      cases first
      cases second
      rw [Scientific.mk.injEq]
      exact ⟨digits, exponentText_injective exponents⟩

private theorem layout_injective {negative negativeToo : Bool} {first second : Scientific}
    (normal : first.Normal) (normalToo : second.Normal)
    (texts : layout negative first = layout negativeToo second) :
    negative = negativeToo ∧ first = second := by
  have characters := congrArg String.toList texts
  rw [toList_layout, toList_layout] at characters
  have unsigned {decimal : Scientific} (normal : decimal.Normal) (rest : List Char) :
      body decimal ≠ '-' :: rest := by
    intro text
    obtain ⟨digit, first, isDigit⟩ := head?_body normal
    rw [text] at first
    cases first
    exact absurd isDigit (by decide)
  cases negative with
  | true =>
      cases negativeToo with
      | true => exact ⟨rfl, body_injective normal normalToo (List.cons.inj characters).2⟩
      | false => exact absurd characters.symm (unsigned normalToo _)
  | false =>
      cases negativeToo with
      | true => exact absurd characters (unsigned normal _)
      | false => exact ⟨rfl, body_injective normal normalToo characters⟩

end Decimal

namespace Binary64

open Decimal

theorem render_of_isFinite {number : Binary64} (finite : number.isFinite = true) :
    number.render = layout number.isNegative (shortest number) := by
  rw [render, if_neg (by simp [isNaN, finite]), if_pos finite]

theorem render_of_infinite {number : Binary64} (infinite : number.isFinite = false)
    (isNumber : number.isNaN = false) :
    number.render = if number.isNegative then "-inf" else "inf" := by
  rw [render, if_neg (by simp [isNumber]), if_neg (by simp [infinite])]

theorem characters_render {number : Binary64} (finite : number.isFinite = true) :
    ∀ character ∈ number.render.toList,
      character.isDigit = true ∨ character ∈ ['.', 'e', '+', '-'] := by
  intro character member
  rw [render_of_isFinite finite, toList_layout, List.mem_append] at member
  rcases member with inSign | inBody
  · right
    split at inSign
    · rw [List.mem_singleton.mp inSign]
      decide
    · cases inSign
  · exact characters_body (normal_shortest number) character inBody

/-- The text of a finite number begins with a digit or a minus. -/
theorem exists_first_render {number : Binary64} (finite : number.isFinite = true) :
    ∃ first rest, number.render.toList = first :: rest ∧
      (first.isDigit = true ∨ first = '-') := by
  rw [render_of_isFinite finite, toList_layout]
  cases number.isNegative with
  | true => exact ⟨'-', _, rfl, .inr rfl⟩
  | false =>
      obtain ⟨digit, head, isDigit⟩ := head?_body (normal_shortest number)
      obtain ⟨rest, shape⟩ := List.head?_eq_some_iff.mp head
      exact ⟨digit, rest, shape, .inl isDigit⟩

theorem mark_mem_render {number : Binary64} (finite : number.isFinite = true) :
    '.' ∈ number.render.toList ∨ 'e' ∈ number.render.toList := by
  rw [render_of_isFinite finite, toList_layout]
  rcases mark_mem_body (normal_shortest number) with point | letter
  · exact .inl (List.mem_append_right _ point)
  · exact .inr (List.mem_append_right _ letter)

/-- Infinities are told from the finite numbers by their letters. -/
private theorem letter_mem_render_iff {number : Binary64} (isNumber : number.isNaN = false) :
    'n' ∈ number.render.toList ↔ number.isFinite = false := by
  constructor
  · intro member
    by_contra finite
    rw [Bool.not_eq_false] at finite
    exact absurd (characters_render finite 'n' member) (by decide)
  · intro infinite
    rw [render_of_infinite infinite isNumber]
    split <;> decide

private theorem pattern_of_infinite {number : Binary64} (infinite : number.isFinite = false)
    (isNumber : number.isNaN = false) :
    number.pattern = (exponentPatterns - 1) * hiddenBit := by
  have field : number.exponentField = exponentPatterns - 1 := by simpa [isFinite] using infinite
  have fraction : number.fractionField = 0 := by simpa [isNaN, infinite] using isNumber
  rw [pattern, field, fraction, Nat.add_zero]

/-- Different doubles have different texts, NaN apart. -/
theorem render_injective {first second : Binary64} (isNumber : first.isNaN = false)
    (isNumberToo : second.isNaN = false) (texts : first.render = second.render) :
    first = second := by
  have classes : first.isFinite = false ↔ second.isFinite = false := by
    rw [← letter_mem_render_iff isNumber, texts, letter_mem_render_iff isNumberToo]
  cases finite : first.isFinite with
  | true =>
      have finiteToo : second.isFinite = true := by
        rw [← Bool.not_eq_false, ← classes, finite]
        decide
      rw [render_of_isFinite finite, render_of_isFinite finiteToo] at texts
      obtain ⟨signs, decimals⟩ :=
        layout_injective (normal_shortest first) (normal_shortest second) texts
      apply eq_of_pattern signs
      have contains := shortest_contains first
      rw [decimals] at contains
      exact pattern_eq_of_contains contains (shortest_contains second)
  | false =>
      have infinite := classes.mp finite
      rw [render_of_infinite finite isNumber, render_of_infinite infinite isNumberToo] at texts
      have patterns : first.pattern = second.pattern := by
        rw [pattern_of_infinite finite isNumber, pattern_of_infinite infinite isNumberToo]
      apply eq_of_pattern _ patterns
      revert texts
      cases first.isNegative <;> cases second.isNegative <;> decide

end Binary64
end Transpiler
