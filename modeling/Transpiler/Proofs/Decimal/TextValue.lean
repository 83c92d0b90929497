import Transpiler.Proofs.Decimal.NumberText
import Transpiler.Proofs.Token.QuotedLiteral

/-!
Contract: the text of a decimal denotes its number.

Owns: decimal numerals taken apart, with their texts and the exact numbers that they denote
(`DecimalNumeral`), that a text is that of one numeral at most, and that such texts are single
number tokens; and which numeral the text of a decimal is (`layout_keeps_value`).

Does not own: which digits a double has.
-/

namespace Transpiler

/-! ### Numerals -/

/-- A decimal numeral: a sign, digits before and after a point, and perhaps an exponent with a
sign of its own. Without digits after it there is no point. -/
structure DecimalNumeral where
  negative : Bool
  whole : List Char
  fraction : List Char
  scale : Option (Bool × List Char)
deriving DecidableEq, Repr

namespace DecimalNumeral

def pointText (fraction : List Char) : List Char :=
  if fraction = [] then [] else '.' :: fraction

def scaleText : Option (Bool × List Char) → List Char
  | none => []
  | some (negative, digits) => 'e' :: (if negative then '-' else '+') :: digits

/-- The text without its sign. -/
def unsigned (numeral : DecimalNumeral) : List Char :=
  numeral.whole ++ (pointText numeral.fraction ++ scaleText numeral.scale)

def text (numeral : DecimalNumeral) : List Char :=
  (if numeral.negative then ['-'] else []) ++ numeral.unsigned

/-- The power of ten that the digits are scaled by. -/
def exponent (numeral : DecimalNumeral) : Int :=
  match numeral.scale with
  | none => 0
  | some (true, digits) => -(Text.positionalValue 10 digits : Int)
  | some (false, digits) => Text.positionalValue 10 digits

/-- The number that the numeral denotes. -/
def value (numeral : DecimalNumeral) : ℚ :=
  (if numeral.negative then -1 else 1) *
    (Text.positionalValue 10 (numeral.whole ++ numeral.fraction) *
      (10 : ℚ) ^ (numeral.exponent - numeral.fraction.length))

/-- A numeral has digits in all of its places, and at least one before the point and one in its
exponent. -/
structure WellFormed (numeral : DecimalNumeral) : Prop where
  whole : numeral.whole ≠ []
  wholeDigits : ∀ digit ∈ numeral.whole, digit.isDigit = true
  fractionDigits : ∀ digit ∈ numeral.fraction, digit.isDigit = true
  scale : ∀ part ∈ numeral.scale, part.2 ≠ []
  scaleDigits : ∀ part ∈ numeral.scale, ∀ digit ∈ part.2, digit.isDigit = true

/-- Digits on either side of the point and no exponent. -/
def IsPositional (numeral : DecimalNumeral) : Prop :=
  numeral.whole ≠ [] ∧ numeral.fraction ≠ [] ∧ numeral.scale = none

/-- One digit before the point, if there is one, and an exponent of at least two digits. -/
def IsScientific (numeral : DecimalNumeral) : Prop :=
  numeral.whole.length = 1 ∧ ∃ part ∈ numeral.scale, 2 ≤ part.2.length

/-! ### A text is that of one numeral -/

private theorem digits_inj {digits others rest more : List Char}
    (areDigits : ∀ digit ∈ digits, digit.isDigit = true)
    (areDigitsToo : ∀ digit ∈ others, digit.isDigit = true)
    (stops : ∀ next ∈ rest.head?, next.isDigit = false)
    (stopsToo : ∀ next ∈ more.head?, next.isDigit = false)
    (texts : digits ++ rest = others ++ more) : digits = others ∧ rest = more := by
  have runs : digits = others := by
    rw [← Text.takeWhile_run areDigits stops, texts, Text.takeWhile_run areDigitsToo stopsToo]
  subst runs
  exact ⟨rfl, List.append_cancel_left texts⟩

theorem head?_scaleText (scale : Option (Bool × List Char)) :
    ∀ next ∈ (scaleText scale).head?, next = 'e' := by
  cases scale with
  | none => simp [scaleText]
  | some part => simp [scaleText]

private theorem head?_pointText (fraction : List Char) (scale : Option (Bool × List Char)) :
    ∀ next ∈ (pointText fraction ++ scaleText scale).head?, next = '.' ∨ next = 'e' := by
  intro next isNext
  unfold pointText at isNext
  split at isNext
  · exact .inr (head?_scaleText scale next isNext)
  · left
    simpa using isNext.symm

private theorem scaleText_injective : Function.Injective scaleText := by
  rintro (_ | ⟨negative, digits⟩) (_ | ⟨negativeToo, digitsToo⟩) texts
  · rfl
  · cases texts
  · cases texts
  · obtain ⟨signs, rfl⟩ := List.cons.inj (List.cons.inj texts).2
    cases negative <;> cases negativeToo <;> first | rfl | exact absurd signs (by decide)

section Unique

variable {first second : DecimalNumeral}

private theorem tails_inj {fraction other : List Char} {scale scaleToo : Option (Bool × List Char)}
    (areDigits : ∀ digit ∈ fraction, digit.isDigit = true)
    (areDigitsToo : ∀ digit ∈ other, digit.isDigit = true)
    (texts : pointText fraction ++ scaleText scale = pointText other ++ scaleText scaleToo) :
    fraction = other ∧ scale = scaleToo := by
  have unmarked (scale : Option (Bool × List Char)) (rest : List Char) :
      scaleText scale ≠ '.' :: rest := by
    intro begins
    have isMark := head?_scaleText scale '.' (by rw [begins]; rfl)
    exact absurd isMark (by decide)
  have stops (scale : Option (Bool × List Char)) :
      ∀ next ∈ (scaleText scale).head?, next.isDigit = false := by
    intro next isNext
    rw [head?_scaleText scale next isNext]
    decide
  unfold pointText at texts
  split at texts
  case isTrue none =>
    split at texts
    case isTrue noneToo => exact ⟨none.trans noneToo.symm, scaleText_injective texts⟩
    case isFalse => exact absurd texts (unmarked scale _)
  case isFalse =>
    split at texts
    case isTrue => exact absurd texts.symm (unmarked scaleToo _)
    case isFalse =>
      obtain ⟨fractions, scales⟩ := digits_inj areDigits areDigitsToo (stops scale) (stops scaleToo)
        (List.cons.inj texts).2
      exact ⟨fractions, scaleText_injective scales⟩

/-- A text is that of one numeral at most. -/
theorem eq_of_text (wellFormed : first.WellFormed) (wellFormedToo : second.WellFormed)
    (texts : first.text = second.text) : first = second := by
  have unsigned_ne {numeral : DecimalNumeral} (wellFormed : numeral.WellFormed)
      (rest : List Char) : numeral.unsigned ≠ '-' :: rest := by
    intro begins
    obtain ⟨digit, more, shape⟩ := List.exists_cons_of_ne_nil wellFormed.whole
    rw [unsigned, shape] at begins
    have isDigit := wellFormed.wholeDigits digit (by rw [shape]; exact List.mem_cons_self)
    rw [(List.cons.inj begins).1] at isDigit
    exact absurd isDigit (by decide)
  have stops (fraction : List Char) (scale : Option (Bool × List Char)) :
      ∀ next ∈ (pointText fraction ++ scaleText scale).head?, next.isDigit = false := by
    intro next isNext
    rcases head?_pointText fraction scale next isNext with rfl | rfl <;> decide
  have same : first.negative = second.negative ∧ first.unsigned = second.unsigned := by
    unfold text at texts
    cases signs : first.negative <;> cases signsToo : second.negative <;>
      rw [signs, signsToo] at texts
    · exact ⟨rfl, texts⟩
    · exact absurd texts (unsigned_ne wellFormed _)
    · exact absurd texts.symm (unsigned_ne wellFormedToo _)
    · exact ⟨rfl, (List.cons.inj texts).2⟩
  obtain ⟨wholes, rests⟩ := digits_inj wellFormed.wholeDigits wellFormedToo.wholeDigits
    (stops _ _) (stops _ _) same.2
  obtain ⟨fractions, scales⟩ :=
    tails_inj wellFormed.fractionDigits wellFormedToo.fractionDigits rests
  cases first
  cases second
  rw [DecimalNumeral.mk.injEq]
  exact ⟨same.1, wholes, fractions, scales⟩

end Unique

/-! ### A numeral is one token -/

private theorem exponentPart_scaleText {scale : Option (Bool × List Char)}
    (nonempty : ∀ part ∈ scale, part.2 ≠ [])
    (areDigits : ∀ part ∈ scale, ∀ digit ∈ part.2, digit.isDigit = true) :
    Lexeme.exponentPart (scaleText scale) = scaleText scale := by
  cases scale with
  | none => rfl
  | some part =>
      obtain ⟨negative, digits⟩ := part
      have run : digits.takeWhile (Lexeme.isDigitOrSeparator 10) = digits := by
        rw [List.takeWhile_eq_self_iff]
        exact fun digit member =>
          Lexeme.isDigitOrSeparator_of_isDigit (areDigits _ rfl digit member)
      have some : digits.isEmpty = false := by simpa using nonempty _ rfl
      cases negative <;> simp [Lexeme.exponentPart, scaleText, run, some]

variable {numeral : DecimalNumeral}

private theorem decimalNumber_unsigned (wellFormed : numeral.WellFormed)
    (isFloat : numeral.fraction ≠ [] ∨ numeral.scale ≠ none) :
    Lexeme.decimalNumber numeral.unsigned = ⟨.float, numeral.unsigned⟩ := by
  have digitClass {digits : List Char} (areDigits : ∀ digit ∈ digits, digit.isDigit = true) :
      ∀ digit ∈ digits, Lexeme.isDigitOrSeparator 10 digit = true := fun digit member =>
    Lexeme.isDigitOrSeparator_of_isDigit (areDigits digit member)
  have run : numeral.unsigned.takeWhile (Lexeme.isDigitOrSeparator 10) = numeral.whole := by
    apply Text.takeWhile_run (digitClass wellFormed.wholeDigits)
    intro next isNext
    rcases head?_pointText numeral.fraction numeral.scale next isNext with rfl | rfl <;> decide
  have exponent := exponentPart_scaleText wellFormed.scale wellFormed.scaleDigits
  rw [Lexeme.decimalNumber, run, unsigned, List.drop_left, pointText]
  by_cases none : numeral.fraction = []
  · rw [if_pos none, List.nil_append]
    obtain ⟨part, isPart⟩ := Option.ne_none_iff_exists'.mp (isFloat.resolve_left (not_not.mpr none))
    rw [isPart] at exponent ⊢
    simp only [scaleText] at exponent ⊢
    simp [exponent]
  · have fraction : (numeral.fraction ++ scaleText numeral.scale).takeWhile
        (Lexeme.isDigitOrSeparator 10) = numeral.fraction := by
      apply Text.takeWhile_run (digitClass wellFormed.fractionDigits)
      intro next isNext
      rw [head?_scaleText numeral.scale next isNext]
      decide
    rw [if_neg none, List.cons_append]
    simp only [fraction, List.drop_left, exponent]

/-- The characters of a numeral without a sign. -/
private theorem characters_unsigned (wellFormed : numeral.WellFormed) :
    ∀ character ∈ numeral.unsigned,
      character.isDigit = true ∨ character ∈ ['.', 'e', '+', '-'] := by
  intro character member
  rcases List.mem_append.mp member with inWhole | inTail
  · exact .inl (wellFormed.wholeDigits character inWhole)
  rcases List.mem_append.mp inTail with inPoint | inScale
  · unfold pointText at inPoint
    split at inPoint
    · cases inPoint
    · rcases List.mem_cons.mp inPoint with rfl | inFraction
      · exact .inr (by decide)
      · exact .inl (wellFormed.fractionDigits character inFraction)
  · cases scale : numeral.scale with
    | none =>
        rw [scale] at inScale
        cases inScale
    | some part =>
        rw [scale, scaleText, List.mem_cons, List.mem_cons] at inScale
        rcases inScale with rfl | rfl | inDigits
        · exact .inr (by decide)
        · right
          split <;> decide
        · exact .inl (wellFormed.scaleDigits part scale character inDigits)

/-- A class of characters that has no digit and no mark of a numeral has none of its characters. -/
private theorem unsigned_outside (wellFormed : numeral.WellFormed) {character : Char}
    (member : character ∈ numeral.unsigned) (outside : Char → Bool)
    (apart : ['0', '1', '2', '3', '4', '5', '6', '7', '8', '9', '.', 'e', '+', '-'].any outside =
      false) :
    outside character = false := by
  have listed : character ∈
      ['0', '1', '2', '3', '4', '5', '6', '7', '8', '9', '.', 'e', '+', '-'] := by
    rcases characters_unsigned wellFormed character member with isDigit | isMark
    · exact List.mem_append_left ['.', 'e', '+', '-'] (Text.mem_of_isDigit isDigit)
    · exact List.mem_append_right ['0', '1', '2', '3', '4', '5', '6', '7', '8', '9'] isMark
  simpa using List.any_eq_false.mp apart character listed

/-- A numeral without a sign, but with a point or an exponent, is a single lexeme. -/
theorem split_unsigned (wellFormed : numeral.WellFormed)
    (isFloat : numeral.fraction ≠ [] ∨ numeral.scale ≠ none) :
    Lexeme.split numeral.unsigned = [⟨.float, numeral.unsigned⟩] := by
  have isNumber := decimalNumber_unsigned wellFormed isFloat
  have plain : ∀ character ∈ numeral.unsigned, Lexeme.isQuote character = false :=
    fun character member => unsigned_outside wellFormed member Lexeme.isQuote (by decide)
  have unmarked : ∀ character ∈ numeral.unsigned,
      ['x', 'X', 'o', 'O', 'b', 'B'].contains character = false :=
    fun character member => unsigned_outside wellFormed member _ (by decide)
  obtain ⟨first, more, isWhole⟩ := List.exists_cons_of_ne_nil wellFormed.whole
  have isDigit : first.isDigit = true :=
    wellFormed.wholeDigits first (by rw [isWhole]; exact List.mem_cons_self)
  obtain ⟨notBlank, notSpecial⟩ := Lexeme.not_special_of_class isDigit (by decide)
  rw [unsigned, isWhole, List.cons_append] at isNumber plain unmarked ⊢
  generalize more ++ (pointText numeral.fraction ++ scaleText numeral.scale) = rest
    at isNumber plain unmarked ⊢
  have noMark : Lexeme.markedInteger? (first :: rest) = none := by
    unfold Lexeme.markedInteger?
    split
    next mark others shape =>
      have notMark : ¬ mark ∈ ['x', 'X', 'o', 'O', 'b', 'B'] := by
        simpa using unmarked mark (by rw [shape]; simp)
      simp only [List.mem_cons, List.not_mem_nil, or_false, not_or] at notMark
      simp [notMark]
    next => rfl
  have isNumber : Lexeme.number? (first :: rest) = some ⟨.float, first :: rest⟩ := by
    rw [Lexeme.number?, if_pos isDigit, noMark, Option.getD_none, isNumber]
  have noLiteral : Lexeme.literal? (first :: (rest ++ [])) = none :=
    Lexeme.literal?_eq_none_of_word plain rfl
  rw [List.append_nil] at noLiteral
  have scanned : Lexeme.scan first (rest ++ []) = ⟨.float, first :: rest⟩ := by
    rw [List.append_nil, Lexeme.scan_of_literal?_eq_none notBlank notSpecial noLiteral, isNumber,
      Option.getD_some]
  have cut := Lexeme.split_append scanned
  rwa [List.append_nil] at cut

private theorem separatorsFit_of_plain {text : List Char}
    (plain : ∀ character ∈ text, character ≠ '_') (afterDigit : Bool) :
    Numeral.separatorsFit 10 afterDigit text = true := by
  induction text generalizing afterDigit with
  | nil => rfl
  | cons first rest inductionHypothesis =>
      rw [Numeral.separatorsFit, if_neg (by simpa using plain first List.mem_cons_self)]
      exact inductionHypothesis (fun character member =>
        plain character (List.mem_cons_of_mem first member)) _

private theorem floatValue?_unsigned (wellFormed : numeral.WellFormed) :
    Numeral.floatValue? numeral.unsigned = some (Numeral.nearestDouble numeral.unsigned) := by
  have plain : ∀ character ∈ numeral.unsigned, character ≠ '_' := fun character member =>
    ne_of_beq_false (unsigned_outside wellFormed member (· == '_') (by decide))
  have all : Numeral.withoutSeparators numeral.unsigned = numeral.unsigned := by
    rw [Numeral.withoutSeparators, List.filter_eq_self]
    intro character member
    simpa using plain character member
  rw [Numeral.floatValue?, if_pos (separatorsFit_of_plain plain false), all]

/-- A source that is such a numeral is one number token. -/
theorem tokenize_unsigned (wellFormed : numeral.WellFormed)
    (isFloat : numeral.fraction ≠ [] ∨ numeral.scale ≠ none) {source : String}
    (isText : source.toList = numeral.unsigned) (fits : source.utf8ByteSize ≤ Span.offsetLimit) :
    tokenize source = .ok [⟨.float (Numeral.nearestDouble source.toList), ⟨0, source.utf8ByteSize⟩⟩,
      ⟨.newline, .point source.utf8ByteSize⟩, ⟨.endOfFile, .point source.utf8ByteSize⟩] := by
  have cut : Lexeme.split source.toList = [⟨.float, source.toList⟩] := by
    rw [isText]
    exact split_unsigned wellFormed isFloat
  apply tokenize_of_lexeme cut rfl _ fits
  rw [Lexeme.token?, isText, floatValue?_unsigned wellFormed]
  rfl

end DecimalNumeral

/-! ### The numeral of a decimal -/

namespace Decimal

/-- The numeral that the text of a decimal is: what it denotes, and in which of the two forms. -/
structure Writes (negative : Bool) (decimal : Scientific) (numeral : DecimalNumeral) : Prop where
  wellFormed : numeral.WellFormed
  sign : numeral.negative = negative
  text : numeral.text = (layout negative decimal).toList
  value : numeral.value = (if negative then -1 else 1) * decimal.value
  positional : numeral.IsPositional ↔ -4 ≤ decimal.exponent ∧ decimal.exponent < 16
  scientific : numeral.IsScientific ↔ ¬ (-4 ≤ decimal.exponent ∧ decimal.exponent < 16)

private theorem isPositional_iff (exponent : Int) :
    isPositional exponent = true ↔ -4 ≤ exponent ∧ exponent < 16 := by
  rw [isPositional, Bool.and_eq_true, decide_eq_true_iff, decide_eq_true_iff]

/-- Zeros around the digits only shift them. -/
theorem Pointed.value_eq {digits whole fraction : List Char} {exponent : Int}
    (pointed : Pointed digits exponent whole fraction) :
    (Text.positionalValue 10 (whole ++ fraction) : ℚ) * (10 : ℚ) ^ (0 - fraction.length : Int) =
      Scientific.value ⟨digits, exponent⟩ := by
  obtain ⟨before, after, padded, places⟩ := pointed.padded
  have lengths := congrArg List.length padded
  simp only [List.length_append, List.length_replicate] at lengths
  have shift : (0 - fraction.length : Int) = -(after : Int) + (exponent + 1 - digits.length) := by
    omega
  have ten : (10 : ℚ) ≠ 0 := by norm_num
  rw [padded, positionalValue_append_zeros, positionalValue_zeros_append, Scientific.value, shift,
    zpow_add₀ ten, zpow_neg, zpow_natCast]
  push_cast
  field_simp

/-- Digits with the point after the first one, and an exponent. -/
def scientificNumeral (negative : Bool) (decimal : Scientific) : DecimalNumeral where
  negative := negative
  whole := decimal.digits.take 1
  fraction := decimal.digits.drop 1
  scale := some (decide (decimal.exponent < 0),
    Text.padZeros 2 (Nat.toDigits 10 decimal.exponent.natAbs))

private theorem exponent_scientificNumeral (negative : Bool) (decimal : Scientific) :
    (scientificNumeral negative decimal).exponent = decimal.exponent := by
  have size : Text.positionalValue 10 (Text.padZeros 2 (Nat.toDigits 10 decimal.exponent.natAbs)) =
      decimal.exponent.natAbs := by
    rw [Text.padZeros, positionalValue_zeros_append, Numeral.positionalValue_toDigits]
  unfold DecimalNumeral.exponent scientificNumeral
  by_cases below : decimal.exponent < 0
  · simp only [below, decide_true, size]
    omega
  · simp only [below, decide_false, size]
    omega

private theorem unsigned_scientificNumeral (negative : Bool) (decimal : Scientific) :
    (scientificNumeral negative decimal).unsigned =
      mantissa decimal.digits ++ 'e' :: exponentText decimal.exponent := by
  simp only [DecimalNumeral.unsigned, scientificNumeral, DecimalNumeral.pointText,
    DecimalNumeral.scaleText, List.drop_eq_nil_iff, mantissa, exponentText, List.append_assoc,
    decide_eq_true_eq]

private theorem two_le_length_padZeros (digits : List Char) :
    2 ≤ (Text.padZeros 2 digits).length := by
  rw [Text.padZeros, List.length_append, List.length_replicate]
  omega

section Layout

variable {decimal : Scientific} (areDigits : ∀ digit ∈ decimal.digits, digit.isDigit = true)
  (nonempty : decimal.digits ≠ [])
include areDigits nonempty

private theorem writes_positional (negative : Bool)
    (near : -4 ≤ decimal.exponent ∧ decimal.exponent < 16) :
    ∃ numeral, Writes negative decimal numeral := by
  obtain ⟨whole, fraction, isBody, pointed⟩ := exists_pointed nonempty decimal.exponent
  have inside := pointed.areDigits areDigits
  refine ⟨⟨negative, whole, fraction, none⟩, ?_⟩
  constructor
  case wellFormed =>
    exact {
      whole := pointed.wholeNonempty
      wholeDigits := fun digit member => inside digit (List.mem_append_left _ member)
      fractionDigits := fun digit member => inside digit (List.mem_append_right _ member)
      scale := nofun
      scaleDigits := nofun }
  case sign => rfl
  case text =>
    rw [toList_layout, body, if_pos ((isPositional_iff _).mpr near), isBody, DecimalNumeral.text,
      DecimalNumeral.unsigned, DecimalNumeral.pointText, if_neg pointed.fractionNonempty,
      DecimalNumeral.scaleText, List.append_nil]
  case value =>
    rw [DecimalNumeral.value]
    congr 1
    exact pointed.value_eq
  case positional =>
    exact iff_of_true ⟨pointed.wholeNonempty, pointed.fractionNonempty, rfl⟩ near
  case scientific =>
    apply iff_of_false _ (not_not_intro near)
    rintro ⟨-, part, isPart, -⟩
    cases isPart

private theorem writes_scientific (negative : Bool)
    (far : ¬ (-4 ≤ decimal.exponent ∧ decimal.exponent < 16)) :
    Writes negative decimal (scientificNumeral negative decimal) := by
  have size : 0 < decimal.digits.length := List.length_pos_of_ne_nil nonempty
  have one : (decimal.digits.take 1).length = 1 := by
    rw [List.length_take]
    omega
  have padded := two_le_length_padZeros (Nat.toDigits 10 decimal.exponent.natAbs)
  constructor
  case wellFormed =>
    constructor
    case whole => exact List.ne_nil_of_length_pos (by rw [scientificNumeral, one]; decide)
    case wholeDigits =>
      exact fun digit member => areDigits digit (List.mem_of_mem_take member)
    case fractionDigits =>
      exact fun digit member => areDigits digit (List.mem_of_mem_drop member)
    case scale =>
      rintro part ⟨⟩
      exact List.ne_nil_of_length_pos (Nat.lt_of_lt_of_le (by decide) padded)
    case scaleDigits =>
      rintro part ⟨⟩ digit member
      rcases List.mem_append.mp member with isZero | inDigits
      · rw [List.eq_of_mem_replicate isZero]
        rfl
      · exact Nat.isDigit_of_mem_toDigits (by decide) (by decide) inDigits
  case sign => rfl
  case text =>
    rw [toList_layout, body, if_neg (mt (isPositional_iff _).mp far), scientific_eq,
      DecimalNumeral.text, unsigned_scientificNumeral]
    rfl
  case value =>
    rw [DecimalNumeral.value, exponent_scientificNumeral]
    simp only [scientificNumeral, List.take_append_drop, List.length_drop, Scientific.value]
    congr 3
    omega
  case positional =>
    apply iff_of_false _ far
    rintro ⟨-, -, noScale⟩
    cases noScale
  case scientific => exact iff_of_true ⟨one, _, rfl, padded⟩ far

private theorem exists_writes (negative : Bool) : ∃ numeral, Writes negative decimal numeral := by
  by_cases near : -4 ≤ decimal.exponent ∧ decimal.exponent < 16
  · exact writes_positional areDigits nonempty negative near
  · exact ⟨_, writes_scientific areDigits nonempty negative near⟩

omit areDigits nonempty in
/-- Such a numeral cannot be taken for an integer. -/
theorem Writes.isFloat {negative : Bool} {numeral : DecimalNumeral}
    (writes : Writes negative decimal numeral) : numeral.fraction ≠ [] ∨ numeral.scale ≠ none := by
  by_cases near : -4 ≤ decimal.exponent ∧ decimal.exponent < 16
  · exact .inl (writes.positional.mpr near).2.1
  · obtain ⟨-, part, isPart, -⟩ := writes.scientific.mpr near
    exact .inr (Option.ne_none_iff_exists'.mpr ⟨part, isPart⟩)

omit areDigits nonempty in
theorem Writes.toList_eq {numeral : DecimalNumeral} (writes : Writes false decimal numeral) :
    (layout false decimal).toList = numeral.unsigned := by
  rw [← writes.text, DecimalNumeral.text, writes.sign]
  rfl

/-- The text of a decimal is one numeral and no other. The numeral denotes the decimal exactly. It
has its point among the digits for the exponents from -4 to 15, and is a mantissa with an exponent
for all others; without a minus it is a single number token. -/
theorem layout_keeps_value (negative : Bool) :
    (∃ numeral, Writes negative decimal numeral ∧
      ∀ other : DecimalNumeral, other.WellFormed →
        other.text = (layout negative decimal).toList → other = numeral) ∧
    Lexeme.split (layout false decimal).toList = [⟨.float, (layout false decimal).toList⟩] ∧
    ((layout false decimal).utf8ByteSize ≤ Span.offsetLimit →
      tokenize (layout false decimal) =
        .ok [⟨.float (Numeral.nearestDouble (layout false decimal).toList),
            ⟨0, (layout false decimal).utf8ByteSize⟩⟩,
          ⟨.newline, .point (layout false decimal).utf8ByteSize⟩,
          ⟨.endOfFile, .point (layout false decimal).utf8ByteSize⟩]) := by
  obtain ⟨numeral, writes⟩ := exists_writes areDigits nonempty negative
  obtain ⟨plain, writesPlain⟩ := exists_writes areDigits nonempty false
  refine ⟨⟨numeral, writes, ?_⟩, ?_, ?_⟩
  · intro other wellFormed text
    exact DecimalNumeral.eq_of_text wellFormed writes.wellFormed (text.trans writes.text.symm)
  · rw [writesPlain.toList_eq]
    exact DecimalNumeral.split_unsigned writesPlain.wellFormed writesPlain.isFloat
  · exact DecimalNumeral.tokenize_unsigned writesPlain.wellFormed writesPlain.isFloat
      writesPlain.toList_eq

end Layout

theorem layout_keeps_value_scientific :
    (∀ digit ∈ ['1', '2', '5'], digit.isDigit = true) ∧
    (['1', '2', '5'] : List Char) ≠ [] ∧
    (∃ numeral, Writes true ⟨['1', '2', '5'], -5⟩ numeral) ∧
    Lexeme.split "1.25e-05".toList = [⟨.float, "1.25e-05".toList⟩] := by
  have areDigits : ∀ digit ∈ ['1', '2', '5'], digit.isDigit = true := by simp
  have text : layout false ⟨['1', '2', '5'], -5⟩ = "1.25e-05" := by decide
  obtain ⟨⟨numeral, writes, -⟩, split, -⟩ :=
    @layout_keeps_value ⟨['1', '2', '5'], -5⟩ areDigits (by simp) true
  rw [text] at split
  exact ⟨areDigits, by simp, ⟨numeral, writes⟩, split⟩

end Decimal
end Transpiler
