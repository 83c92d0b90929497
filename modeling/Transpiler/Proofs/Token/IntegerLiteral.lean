import Transpiler.Proofs.Token.Spelling

/-!
Contract: which texts are integers, and which numbers they are.

Owns: the grammar of integer literals (`Numeral.IntegerLiteral`), with the value of every digit,
and that of the texts which are scanned as integers exactly the literals have a token, which is
that of their value.

Does not own: how values are computed.
-/

namespace Transpiler
namespace Numeral

/-! ### The grammar -/

/-- Digits of a radix, each led by at most one separator, and their values. -/
inductive Digits (radix : Nat) : List Char → List Nat → Prop where
  | none : Digits radix [] []
  | next {character : Char} {rest : List Char} {digit : Nat} {digits : List Nat}
      (isDigit : Text.digitValue? radix character = some digit)
      (others : Digits radix rest digits) : Digits radix (character :: rest) (digit :: digits)
  | separated {character : Char} {rest : List Char} {digit : Nat} {digits : List Nat}
      (isDigit : Text.digitValue? radix character = some digit)
      (others : Digits radix rest digits) :
      Digits radix ('_' :: character :: rest) (digit :: digits)

/-- The kinds of integers with a radix mark, their radix and the letter of the mark. -/
def radixMarks : List (LexemeKind × Nat × Char) :=
  [(.hexInteger, 16, 'x'), (.hexInteger, 16, 'X'), (.octalInteger, 8, 'o'),
    (.octalInteger, 8, 'O'), (.binaryInteger, 2, 'b'), (.binaryInteger, 2, 'B')]

/-- Integer literals of each kind, with their radix and the values of their digits. -/
inductive IntegerLiteral : LexemeKind → Nat → List Char → List Nat → Prop where
  | decimal {first : Char} {rest : List Char} {digit : Nat} {digits : List Nat}
      (isDigit : Text.digitValue? 10 first = some digit) (notZero : digit ≠ 0)
      (others : Digits 10 rest digits) :
      IntegerLiteral .decimalInteger 10 (first :: rest) (digit :: digits)
  | zero {rest : List Char} {digits : List Nat} (others : Digits 10 rest digits)
      (zeros : ∀ digit ∈ digits, digit = 0) :
      IntegerLiteral .decimalInteger 10 ('0' :: rest) (0 :: digits)
  | marked {kind : LexemeKind} {radix : Nat} {mark : Char} {body : List Char} {digits : List Nat}
      (isMark : (kind, radix, mark) ∈ radixMarks) (written : Digits radix body digits)
      (some : digits ≠ []) : IntegerLiteral kind radix ('0' :: mark :: body) digits

/-- The texts that may be found as integers of each kind: a decimal digit, or a radix mark with
at least one character behind it, and then digits and separators in any order. -/
inductive RawInteger : LexemeKind → List Char → Prop where
  | decimal {first : Char} {rest : List Char} (isDigit : first.isDigit = true)
      (others : ∀ character ∈ rest, Lexeme.isDigitOrSeparator 10 character = true) :
      RawInteger .decimalInteger (first :: rest)
  | marked {kind : LexemeKind} {radix : Nat} {mark : Char} {body : List Char}
      (isMark : (kind, radix, mark) ∈ radixMarks) (some : body ≠ [])
      (others : ∀ character ∈ body, Lexeme.isDigitOrSeparator radix character = true) :
      RawInteger kind ('0' :: mark :: body)

/-! ### Separators -/

section

variable {radix : Nat} {text rest : List Char} {digits : List Nat}

private theorem digitValue?_separator (radix : Nat) : Text.digitValue? radix '_' = none := rfl

private theorem ne_separator_of_digit {character : Char} {digit : Nat}
    (isDigit : Text.digitValue? radix character = some digit) : character ≠ '_' := by
  rintro rfl
  rw [digitValue?_separator] at isDigit
  cases isDigit

theorem digits_cons_iff {character : Char} (notSeparator : character ≠ '_') :
    Digits radix (character :: rest) digits ↔
      ∃ digit others, Text.digitValue? radix character = some digit ∧
        Digits radix rest others ∧ digits = digit :: others := by
  constructor
  · intro written
    cases written with
    | next isDigit others => exact ⟨_, _, isDigit, others, rfl⟩
    | separated => exact absurd rfl notSeparator
  · rintro ⟨digit, others, isDigit, written, rfl⟩
    exact .next isDigit written

private theorem digits_separator_iff :
    Digits radix ('_' :: rest) digits ↔
      Digits radix rest digits ∧ rest ≠ [] ∧ rest.head? ≠ some '_' := by
  constructor
  · intro written
    cases written with
    | next isDigit => exact absurd rfl (ne_separator_of_digit isDigit)
    | separated isDigit others =>
        exact ⟨.next isDigit others, by simp, by simpa using ne_separator_of_digit isDigit⟩
  · rintro ⟨written, some, notSeparator⟩
    cases rest with
    | nil => exact absurd rfl some
    | cons character rest =>
        obtain ⟨digit, others, isDigit, follow, rfl⟩ :=
          (digits_cons_iff (by simpa using notSeparator)).mp written
        exact .separated isDigit follow

theorem Digits.ne_nil_iff (written : Digits radix text digits) : text ≠ [] ↔ digits ≠ [] := by
  cases written <;> simp

private theorem isRadixDigit_of_digits {character : Char}
    (written : Digits radix (character :: rest) digits) (notSeparator : character ≠ '_') :
    Text.isRadixDigit radix character = true := by
  obtain ⟨digit, _, isDigit, _, _⟩ := (digits_cons_iff notSeparator).mp written
  rw [Text.isRadixDigit, isDigit, Option.isSome_some]

/-- The two passes over a text, one for its separators and one for its digits, accept it exactly
if it is made of digits with at most one separator before each. -/
private theorem separatorsFit_iff {afterDigit : Bool} :
    (separatorsFit radix afterDigit text = true ∧
        (withoutSeparators text).mapM (Text.digitValue? radix) = some digits) ↔
      Digits radix text digits ∧ (afterDigit = false → text.head? ≠ some '_') := by
  induction text generalizing afterDigit digits with
  | nil =>
      have none : Digits radix [] digits ↔ [] = digits :=
        ⟨fun written => by cases written; rfl, fun isNil => isNil ▸ .none⟩
      simp [separatorsFit, withoutSeparators, none]
  | cons character rest inductionHypothesis =>
      by_cases isSeparator : character = '_'
      · subst isSeparator
        have kept : withoutSeparators ('_' :: rest) = withoutSeparators rest := rfl
        rw [separatorsFit, if_pos (by decide), kept, digits_separator_iff]
        simp only [Bool.and_eq_true, and_assoc, inductionHypothesis]
        constructor
        · rintro ⟨isAfter, leads, written, notSeparator⟩
          have some : rest ≠ [] := by
            rintro rfl
            cases leads
          exact ⟨written, some, notSeparator trivial, by simp [isAfter]⟩
        · rintro ⟨written, some, notSeparator, isAfter⟩
          refine ⟨by simpa using isAfter, ?_, written, fun _ => notSeparator⟩
          cases rest with
          | nil => exact absurd rfl some
          | cons next others =>
              exact isRadixDigit_of_digits written (by simpa using notSeparator)
      · have kept : withoutSeparators (character :: rest) =
            character :: withoutSeparators rest := by
          simp [withoutSeparators, isSeparator]
        rw [separatorsFit, if_neg (by simpa using isSeparator), kept, List.mapM_cons,
          digits_cons_iff isSeparator]
        cases isDigit : Text.digitValue? radix character with
        | none => simp
        | some digit =>
            have afterThis : Text.isRadixDigit radix character = true := by
              rw [Text.isRadixDigit, isDigit, Option.isSome_some]
            have others (more : List Nat) := @inductionHypothesis more true
            simp only [Bool.true_eq_false, false_implies, and_true] at others
            rw [afterThis]
            simp only [Option.bind_eq_bind, Option.bind_some, Option.some.injEq, List.head?_cons,
              Option.bind_eq_some_iff]
            constructor
            · rintro ⟨fits, more, stand, isList⟩
              obtain rfl : digit :: more = digits := Option.some.inj isList
              exact ⟨⟨digit, more, rfl, (others more).mp ⟨fits, stand⟩, rfl⟩,
                fun _ => by simpa using isSeparator⟩
            · rintro ⟨⟨_, more, rfl, written, rfl⟩, _⟩
              obtain ⟨fits, stand⟩ := (others more).mpr written
              exact ⟨fits, more, stand, rfl⟩

/-- The digits of a text are those of the grammar; without a mark it does not begin with a
separator. -/
private theorem digits?_eq_some_iff {marked : Bool} :
    digits? radix marked text = some digits ↔
      Digits radix text digits ∧ text ≠ [] ∧ (marked = false → text.head? ≠ some '_') := by
  have unmarked {body : List Char} :
      (if body.isEmpty || !separatorsFit radix false body then Option.none
        else (withoutSeparators body).mapM (Text.digitValue? radix)) = some digits ↔
        Digits radix body digits ∧ body ≠ [] ∧ body.head? ≠ some '_' := by
    have passes := @separatorsFit_iff radix body digits false
    simp only [true_implies] at passes
    rw [and_left_comm, ← passes]
    cases body with
    | nil => simp
    | cons first rest => cases separatorsFit radix false (first :: rest) <;> simp
  unfold digits?
  by_cases leads : marked = true ∧ text.head? = some '_'
  · obtain ⟨rfl, isSeparator⟩ := leads
    obtain ⟨rest, rfl⟩ := List.head?_eq_some_iff.mp isSeparator
    simp only [List.head?_cons, beq_self_eq_true, Bool.and_self, if_true, List.tail_cons]
    rw [unmarked, digits_separator_iff]
    simp
  · have kept : (if (marked && text.head? == some '_') = true then text.tail else text) = text := by
      rw [if_neg (by simpa using leads)]
    simp only [kept]
    rw [unmarked]
    cases marked with
    | false => simp
    | true => simp [show text.head? ≠ some '_' by simpa using leads]

end

/-! ### Leading zeros -/

private theorem digitValue?_ten {character : Char} {digit : Nat}
    (isDigit : Text.digitValue? 10 character = some digit) :
    character.isDigit = true ∧ (character = '0' ↔ digit = 0) := by
  obtain ⟨decimal, value, _⟩ := Text.toNat_of_digitValue? (Nat.le_refl 10) isDigit
  have zero : '0'.toNat = 48 := rfl
  refine ⟨decimal, ?_⟩
  rw [← Char.toNat_inj]
  omega

/-- A text has a digit other than zero exactly if the value of one of its digits is not zero. -/
theorem Digits.any_nonzero {text : List Char} {digits : List Nat}
    (written : Digits 10 text digits) :
    (text.any fun character => character.isDigit && character != '0') = true ↔
      ∃ digit ∈ digits, digit ≠ 0 := by
  induction written with
  | none => simp
  | next isDigit _ inductionHypothesis =>
      obtain ⟨decimal, isZero⟩ := digitValue?_ten isDigit
      rw [List.any_cons, Bool.or_eq_true, inductionHypothesis]
      simp [decimal, isZero]
  | separated isDigit _ inductionHypothesis =>
      obtain ⟨decimal, isZero⟩ := digitValue?_ten isDigit
      rw [List.any_cons, List.any_cons, Bool.or_eq_true, Bool.or_eq_true, inductionHypothesis]
      simp [decimal, isZero, show '_'.isDigit = false from rfl]

/-- A zero may lead only further zeros. -/
private theorem integerLiteral_decimal_iff {text : List Char} {radix : Nat} {digits : List Nat} :
    IntegerLiteral .decimalInteger radix text digits ↔
      radix = 10 ∧ hasLeadingZero text = false ∧ digits? 10 false text = some digits := by
  rw [digits?_eq_some_iff]
  constructor
  · intro literal
    cases literal with
    | @decimal first rest digit digits isDigit notZero others =>
        obtain ⟨_, isZero⟩ := digitValue?_ten isDigit
        have firstNotZero : first ≠ '0' := fun isNought => notZero (isZero.mp isNought)
        refine ⟨rfl, ?_, .next isDigit others, by simp, fun _ => ?_⟩
        · simp [hasLeadingZero, firstNotZero]
        · simpa using ne_separator_of_digit isDigit
    | @zero rest digits others zeros =>
        have written : Digits 10 ('0' :: rest) (0 :: digits) := .next rfl others
        refine ⟨rfl, ?_, written, by simp, by simp⟩
        have noDigit : ¬ ∃ digit ∈ 0 :: digits, digit ≠ 0 := by simpa using zeros
        rw [← written.any_nonzero, Bool.not_eq_true] at noDigit
        rw [hasLeadingZero, noDigit, Bool.and_false]
    | marked isMark => simp [radixMarks] at isMark
  · rintro ⟨rfl, noLeadingZero, written, some, notSeparator⟩
    obtain ⟨first, rest, rfl⟩ := List.exists_cons_of_ne_nil some
    obtain ⟨digit, others, isDigit, follow, rfl⟩ :=
      (digits_cons_iff (by simpa using notSeparator rfl)).mp written
    obtain ⟨_, isZero⟩ := digitValue?_ten isDigit
    by_cases nought : digit = 0
    · subst nought
      obtain rfl := isZero.mpr rfl
      refine .zero follow ?_
      by_contra notAll
      have nonzero : ∃ digit ∈ others, digit ≠ 0 := by simpa using notAll
      obtain ⟨other, member, notZero⟩ := nonzero
      have longer : rest ≠ [] := follow.ne_nil_iff.mpr (List.ne_nil_of_mem member)
      have among := written.any_nonzero.mpr ⟨other, List.mem_cons_of_mem _ member, notZero⟩
      rw [hasLeadingZero, among] at noLeadingZero
      simp [List.length_pos_iff.mpr longer] at noLeadingZero
    · exact .decimal isDigit nought follow

/-! ### Radix marks -/

private theorem radix_eq_of_mem_radixMarks {kind : LexemeKind} {first second : Nat}
    {mark other : Char} (isFirst : (kind, first, mark) ∈ radixMarks)
    (isSecond : (kind, second, other) ∈ radixMarks) :
    first = second := by
  have agree : ∀ entry ∈ radixMarks, ∀ another ∈ radixMarks, entry.1 = another.1 →
      entry.2.1 = another.2.1 := by decide
  exact agree _ isFirst _ isSecond rfl

/-- What follows a radix mark has one or more digits. -/
private theorem integerLiteral_marked_iff {kind : LexemeKind} {radix other : Nat} {mark : Char}
    {body : List Char} {digits : List Nat} (isMark : (kind, radix, mark) ∈ radixMarks) :
    IntegerLiteral kind other ('0' :: mark :: body) digits ↔
      other = radix ∧ digits? radix true body = some digits := by
  rw [digits?_eq_some_iff]
  constructor
  · intro literal
    cases literal with
    | decimal => simp [radixMarks] at isMark
    | zero => simp [radixMarks] at isMark
    | marked isOther written some =>
        obtain rfl := radix_eq_of_mem_radixMarks isMark isOther
        exact ⟨rfl, written, written.ne_nil_iff.mpr some, by simp⟩
  · rintro ⟨rfl, written, some, _⟩
    exact .marked isMark written (written.ne_nil_iff.mp some)

private theorem token?_marked {kind : LexemeKind} {radix : Nat} {mark : Char}
    (isMark : (kind, radix, mark) ∈ radixMarks) (body : List Char) :
    Lexeme.token? ⟨kind, '0' :: mark :: body⟩ =
      (Lexeme.numberToken ('0' :: mark :: body) id
        (TokenKind.ofInteger? radix true body)).map some := by
  simp only [radixMarks, List.mem_cons, Prod.mk.injEq, List.not_mem_nil, or_false] at isMark
  obtain ⟨rfl, rfl, rfl⟩ | ⟨rfl, rfl, rfl⟩ | ⟨rfl, rfl, rfl⟩ | ⟨rfl, rfl, rfl⟩ | ⟨rfl, rfl, rfl⟩ |
    ⟨rfl, rfl, rfl⟩ := isMark <;> rfl

private theorem radix_pos_of_mem_radixMarks {kind : LexemeKind} {radix : Nat} {mark : Char}
    (isMark : (kind, radix, mark) ∈ radixMarks) : 0 < radix := by
  have positive : ∀ entry ∈ radixMarks, 0 < entry.2.1 := by decide
  exact positive _ isMark

/-! ### Integers in a text -/

theorem rawInteger_of_markedInteger? {input : List Char} {lexeme : Lexeme}
    (found : Lexeme.markedInteger? input = some lexeme) :
    RawInteger lexeme.kind lexeme.text := by
  unfold Lexeme.markedInteger? at found
  split at found
  next mark rest =>
    dsimp only at found
    have ofRadix {kind : LexemeKind} {radix : Nat} (isMark : (kind, radix, mark) ∈ radixMarks)
        (taken : (if (rest.takeWhile (Lexeme.isDigitOrSeparator radix)).isEmpty then none
          else some (Lexeme.mk kind
            ('0' :: mark :: rest.takeWhile (Lexeme.isDigitOrSeparator radix)))) = some lexeme) :
        RawInteger lexeme.kind lexeme.text := by
      split at taken
      · cases taken
      next some =>
        obtain rfl := Option.some.inj taken
        exact .marked isMark (by simpa using some)
          fun _ member => List.all_eq_true.mp List.all_takeWhile _ member
    split at found
    next isMark => exact ofRadix (by simpa [radixMarks] using isMark) found
    split at found
    next isMark => exact ofRadix (by simpa [radixMarks] using isMark) found
    split at found
    next isMark => exact ofRadix (by simpa [radixMarks] using isMark) found
    cases found
  · cases found

private theorem rawInteger_of_decimalNumber {first : Char} (isDigit : first.isDigit = true)
    (rest : List Char) : (Lexeme.decimalNumber (first :: rest)).kind = .float ∨
      RawInteger (Lexeme.decimalNumber (first :: rest)).kind
        (Lexeme.decimalNumber (first :: rest)).text := by
  have whole : (first :: rest).takeWhile (Lexeme.isDigitOrSeparator 10) =
      first :: rest.takeWhile (Lexeme.isDigitOrSeparator 10) :=
    List.takeWhile_cons_of_pos (Lexeme.isDigitOrSeparator_of_isDigit isDigit)
  unfold Lexeme.decimalNumber
  rw [whole]
  dsimp only
  split
  · exact .inl rfl
  · split
    · exact .inr (.decimal isDigit fun _ member =>
        List.all_eq_true.mp List.all_takeWhile _ member)
    · exact .inl rfl

/-- A number that is found in a text has a point or an exponent, or is of one of these forms. -/
private theorem rawInteger_of_number? {input : List Char} {lexeme : Lexeme}
    (found : Lexeme.number? input = some lexeme) :
    lexeme.kind = .float ∨ RawInteger lexeme.kind lexeme.text := by
  unfold Lexeme.number? at found
  split at found
  next first rest =>
    split at found
    next isDigit =>
      obtain rfl := Option.some.inj found
      cases marked : Lexeme.markedInteger? (first :: rest) with
      | none => exact rawInteger_of_decimalNumber isDigit rest
      | some lexeme => exact .inr (rawInteger_of_markedInteger? marked)
    split at found
    · obtain rfl := Option.some.inj found
      exact .inl rfl
    · cases found
  · cases found

/-! ### Tokens of integers -/

/-- The token of a number: the number itself if it fits 64 bits with sign, and otherwise its
decimal digits, without leading zeros. -/
inductive IsTokenOf (number : Nat) : TokenKind → Prop where
  | small (fits : number ≤ 2 ^ 63 - 1) : IsTokenOf number (.int number)
  | large {decimal : String} (exceeds : 2 ^ 63 - 1 < number)
      (digits : ∀ character ∈ decimal.toList, character.isDigit = true)
      (canonical : decimal.toList.head? ≠ some '0')
      (denote : Text.positionalValue 10 decimal.toList = number) :
      IsTokenOf number (.bigInt decimal)

private theorem isTokenOf_ofInteger (number : Nat) : IsTokenOf number (.ofInteger number) := by
  unfold TokenKind.ofInteger
  split
  case isTrue fits => exact .small fits
  case isFalse exceeds =>
    have large : 2 ^ 63 - 1 < number := Nat.lt_of_not_le exceeds
    have text : (toString number).toList = Nat.toDigits 10 number := Nat.toList_repr
    refine .large large ?_ ?_ ?_
    · rw [text]
      exact fun _ member => Nat.isDigit_of_mem_toDigits (by decide) (by decide) member
    · rw [text]
      exact head?_toDigits_ne_zero (Nat.zero_lt_of_lt large)
    · rw [text, positionalValue_toDigits]

/-- Such a text has the token of its value if it is a literal, and none otherwise. -/
private theorem token?_rawInteger {kind : LexemeKind} {text : List Char}
    (raw : RawInteger kind text) :
    ∃ radix found, (∀ other digits,
        IntegerLiteral kind other text digits ↔ other = radix ∧ found = some digits) ∧
      Lexeme.token? ⟨kind, text⟩ = (Lexeme.numberToken text id
        (found.map fun digits => TokenKind.ofInteger (value radix digits))).map some := by
  cases raw with
  | @decimal first rest isDigit others =>
      let text := first :: rest
      refine ⟨10, if hasLeadingZero text then none else digits? 10 false text, ?_, ?_⟩
      · intro other digits
        rw [integerLiteral_decimal_iff]
        cases hasLeadingZero text <;> simp [text]
      · have same : Lexeme.token? ⟨.decimalInteger, text⟩ =
            (Lexeme.numberToken text id (TokenKind.ofDecimal? text)).map some := rfl
        rw [same, TokenKind.ofDecimal?, ofInteger?_eq (by decide)]
        cases hasLeadingZero text <;> rfl
  | @marked kind radix mark body isMark some others =>
      refine ⟨radix, digits? radix true body, fun _ _ => integerLiteral_marked_iff isMark, ?_⟩
      rw [token?_marked isMark, ofInteger?_eq (radix_pos_of_mem_radixMarks isMark)]

/-- The computation within 64 bits answers exactly if the one by decimal digits answers with a
number that fits, and then with that number. -/
private theorem smallInteger?_eq_bind_decimalDigits? {radix : Nat} (positive : 0 < radix)
    (marked : Bool) (body : List Char) :
    smallInteger? radix marked body = (decimalDigits? radix marked body).bind fun decimal =>
      small? (Text.positionalValue 10 decimal.toList) := by
  rw [smallInteger?_eq positive, decimalDigits?_eq]
  cases digits? radix marked body with
  | none => rfl
  | some digits =>
      have text : (toString (value radix digits)).toList = Nat.toDigits 10 (value radix digits) :=
        Nat.toList_repr
      rw [Option.bind_some, Option.map_some, Option.bind_some, text, positionalValue_toDigits]

/-- Integer literals mean what they say. A text that may be found as an integer has a token if
and only if it is a literal, and the token is that of its positional value; any other such text
is refused as a whole. The two computations accept the same texts, apart from numbers that are too
large for the first, and agree. -/
theorem token?_integer :
    (∀ input lexeme, Lexeme.number? input = some lexeme →
        lexeme.kind = .float ∨ RawInteger lexeme.kind lexeme.text) ∧
      (∀ kind text, RawInteger kind text →
        (∀ radix digits, IntegerLiteral kind radix text digits → ∃ token,
          Lexeme.token? ⟨kind, text⟩ = .ok (some token) ∧ IsTokenOf (value radix digits) token) ∧
        ((¬ ∃ radix digits, IntegerLiteral kind radix text digits) →
          Lexeme.token? ⟨kind, text⟩ = .error (.invalidNumber (String.ofList text)))) ∧
      ∀ radix marked body, 0 < radix →
        smallInteger? radix marked body = (decimalDigits? radix marked body).bind fun decimal =>
          small? (Text.positionalValue 10 decimal.toList) := by
  refine ⟨fun _ _ => rawInteger_of_number?, ?_,
    fun _ _ _ positive => smallInteger?_eq_bind_decimalDigits? positive _ _⟩
  intro kind text raw
  obtain ⟨radix, found, isLiteral, isToken⟩ := token?_rawInteger raw
  constructor
  · intro other digits literal
    obtain ⟨rfl, rfl⟩ := (isLiteral other digits).mp literal
    exact ⟨_, isToken, isTokenOf_ofInteger _⟩
  · intro noLiteral
    cases found with
    | none => exact isToken
    | some digits => exact absurd ⟨radix, digits, (isLiteral radix digits).mpr ⟨rfl, rfl⟩⟩ noLiteral

/-- The first integer that does not fit 64 bits with sign, with a separator after the mark, and a
number with a leading zero. -/
theorem token?_integer_hexadecimal :
    let text := "0X_8000_0000_0000_0000".toList
    let digits := 8 :: List.replicate 15 0
    RawInteger .hexInteger text ∧ IntegerLiteral .hexInteger 16 text digits ∧
      value 16 digits = 2 ^ 63 ∧
      (∃ token,
        Lexeme.token? ⟨.hexInteger, text⟩ = .ok (some token) ∧ IsTokenOf (2 ^ 63) token) ∧
      RawInteger .decimalInteger "0_7".toList ∧
      Lexeme.token? ⟨.decimalInteger, "0_7".toList⟩ = .error (.invalidNumber "0_7") := by
  intro text digits
  have isMark : (LexemeKind.hexInteger, 16, 'X') ∈ radixMarks := by decide
  have raw : RawInteger .hexInteger text :=
    .marked isMark (by decide) (List.all_eq_true.mp (by decide +kernel))
  have literal : IntegerLiteral .hexInteger 16 text digits :=
    (integerLiteral_marked_iff isMark).mpr ⟨rfl, by decide +kernel⟩
  have number : value 16 digits = 2 ^ 63 := by decide +kernel
  have rawDecimal : RawInteger .decimalInteger "0_7".toList :=
    .decimal (by decide) (List.all_eq_true.mp (by decide +kernel))
  have noLiteral : ¬ ∃ radix digits,
      IntegerLiteral .decimalInteger radix "0_7".toList digits := by
    rintro ⟨radix, digits, isLiteral⟩
    have leading := (integerLiteral_decimal_iff.mp isLiteral).2.1
    revert leading
    decide +kernel
  exact ⟨raw, literal, number,
    number ▸ (token?_integer.2.1 .hexInteger text raw).1 16 digits literal, rawDecimal,
    (token?_integer.2.1 .decimalInteger "0_7".toList rawDecimal).2 noLiteral⟩

end Numeral
end Transpiler
