import Mathlib.Data.List.Basic
import Mathlib.Data.List.Forall2
import Transpiler.Proofs.Token.IntegerValue
import Transpiler.Token.Layout

/-!
Contract: how names, integers, operators and calls are cut into tokens.

Owns: the texts that spell a sequence of token kinds wherever they stand in a line, the
texts that spell a single name or integer, and how spellings are put together by
operators, commas and parentheses.

Does not own: which texts are generated, and how the tokens are grouped.
-/

namespace Transpiler
namespace Lexeme

/-! ### One lexeme after another -/

/-- Characters that belong to the lexeme before are passed over. -/
theorem splitFrom_eq_split_drop (covered : Nat) (text : List Char) :
    splitFrom covered text = split (text.drop covered) := by
  induction text generalizing covered with
  | nil => cases covered <;> rfl
  | cons first rest inductionHypothesis =>
      cases covered with
      | zero => rfl
      | succ left =>
          rw [List.drop_succ_cons, ← inductionHypothesis]
          rfl

theorem split_append {first : Char} {more rest : List Char} {kind : LexemeKind}
    (scanned : scan first (more ++ rest) = ⟨kind, first :: more⟩) :
    split (first :: (more ++ rest)) = ⟨kind, first :: more⟩ :: split rest := by
  rw [split, splitFrom, scanned, splitFrom_eq_split_drop]
  simp

/-! ### Where words and numbers end -/

/-- Characters that end every word and number before them. -/
def boundaryMarks : List Char := [' ', ',', '(', ')']

/-- The text begins with a character that ends every word and number, or is empty. -/
def isBoundary (rest : List Char) : Bool :=
  rest.head?.all boundaryMarks.contains

@[simp] theorem isBoundary_nil : isBoundary [] = true := rfl

@[simp] theorem isBoundary_cons {next : Char} {rest : List Char} :
    isBoundary (next :: rest) = true ↔ next ∈ boundaryMarks := by
  simp [isBoundary]

/-- A class of characters that has none of the listed ones has only others. -/
theorem not_mem_of_class {inside : Char → Bool} {character : Char} {listed : List Char}
    (member : inside character = true) (outside : listed.any inside = false) :
    character ∉ listed :=
  fun isListed => List.any_eq_false.mp outside character isListed member

private theorem isQuote_of_mem_boundaryMarks {mark : Char} (ends : mark ∈ boundaryMarks) :
    isQuote mark = false := by
  have plain : boundaryMarks.any isQuote = false := by decide
  simpa using List.any_eq_false.mp plain mark ends

private theorem toLower_of_mem_boundaryMarks {mark : Char} (ends : mark ∈ boundaryMarks) :
    mark.toLower ∉ ['r', 'b', 'f'] := by
  have unmarked : boundaryMarks.any (['r', 'b', 'f'].contains ·.toLower) = false := by decide
  simpa using List.any_eq_false.mp unmarked mark ends

/-- At a boundary, characters are taken as far as they were taken before it. -/
private theorem takeWhile_append_boundary {taken rest : List Char} {takes : Char → Bool}
    (all : ∀ character ∈ taken, takes character = true) (bounded : isBoundary rest = true)
    (stops : boundaryMarks.any takes = false) :
    (taken ++ rest).takeWhile takes = taken := by
  rw [List.takeWhile_append_of_pos all]
  cases rest with
  | nil => simp
  | cons next others =>
      have stopsHere := List.any_eq_false.mp stops next (isBoundary_cons.mp bounded)
      rw [List.takeWhile_cons_of_neg stopsHere, List.append_nil]

/-! ### What begins no string literal -/

/-- Letters that begin otherwise than the marks of a literal open none. -/
theorem quoted?_eq_none {letters rest : List Char} {quote : Char}
    (plain : letters.map Char.toLower ∉ plainMarks)
    (formatted : letters.map Char.toLower ∉ formattedMarks) :
    quoted? letters quote rest = none := by
  simp [quoted?, plain, formatted]

/-- Only a quote and the letters of the marks begin a string literal. -/
theorem literal?_eq_none_of_first {first : Char} (rest : List Char)
    (plain : isQuote first = false) (unmarked : first.toLower ∉ ['r', 'b', 'f']) :
    literal? (first :: rest) = none := by
  have letters : ∃ others, ((first :: rest).take 2).takeWhile (!isQuote ·) = first :: others := by
    rw [List.take_succ_cons, List.takeWhile_cons_of_pos (by simp [plain])]
    exact ⟨_, rfl⟩
  obtain ⟨others, letters⟩ := letters
  rw [literal?, letters]
  simp only [List.mem_cons, List.not_mem_nil, or_false, not_or] at unmarked
  split
  next quote following _ =>
    rw [quoted?_eq_none (by simp [plainMarks, unmarked]) (by simp [formattedMarks, unmarked]),
      ite_self]
  next => rfl

/-- A class of characters without quotes has none. -/
theorem isQuote_eq_false_of_class {inside : Char → Bool} {character : Char}
    (member : inside character = true) (outside : ['"', '\''].any inside = false) :
    isQuote character = false := by
  simpa [isQuote] using not_mem_of_class member outside

/-- Words and numbers begin no literal when a boundary follows them. -/
theorem literal?_eq_none_of_word {first : Char} {more rest : List Char}
    (plain : ∀ character ∈ first :: more, isQuote character = false)
    (bounded : isBoundary rest = true) : literal? (first :: (more ++ rest)) = none := by
  have plainFirst : isQuote first = false := plain first (by simp)
  -- At most two letters stand before a quote, so the length of the word decides.
  match more, rest with
  | [], [] => simp [literal?, plainFirst]
  | [], next :: others =>
      have plainNext := isQuote_of_mem_boundaryMarks (isBoundary_cons.mp bounded)
      have unmarked := toLower_of_mem_boundaryMarks (isBoundary_cons.mp bounded)
      simp only [List.mem_cons, List.not_mem_nil, or_false, not_or] at unmarked
      simp only [literal?, List.nil_append, List.take_succ_cons, List.take_zero,
        List.takeWhile_cons, plainFirst, plainNext, Bool.not_false, if_true, List.takeWhile_nil,
        List.length_cons, List.length_nil, List.drop_succ_cons, List.drop_zero]
      split
      next =>
        rw [quoted?_eq_none (by simp [plainMarks, unmarked])
          (by simp [formattedMarks, unmarked]), ite_self]
      next => rfl
  | second :: others, rest =>
      have plainSecond : isQuote second = false := plain second (by simp)
      simp only [literal?, List.cons_append, List.take_succ_cons, List.take_zero,
        List.takeWhile_cons, plainFirst, plainSecond, Bool.not_false, if_true,
        List.takeWhile_nil, List.length_cons, List.length_nil, List.drop_succ_cons,
        List.drop_zero]
      match others, rest with
      | [], [] => rfl
      | [], next :: _ => simp [isQuote_of_mem_boundaryMarks (isBoundary_cons.mp bounded)]
      | third :: _, _ => simp [plain third (by simp)]

/-! ### Scanning one lexeme -/

/-- Past blanks, line breaks, comments, continuations and literals, a lexeme is a number,
a word or a symbol. -/
theorem scan_of_literal?_eq_none {first : Char} {rest : List Char}
    (notBlank : isInlineBlank first = false) (notSpecial : first ∉ ['\n', '#', '\\'])
    (noLiteral : literal? (first :: rest) = none) :
    scan first rest =
      (number? (first :: rest)).getD
        (if Text.isIdentifierStart first then
          ⟨.word, first :: rest.takeWhile Text.isIdentifierContinue⟩
        else (symbol? (first :: rest)).getD ⟨.stray, [first]⟩) := by
  simp only [List.mem_cons, List.not_mem_nil, or_false, not_or] at notSpecial
  simp only [scan, notBlank, notSpecial, beq_iff_eq, Bool.false_eq_true, if_false, noLiteral,
    Option.none_or]
  cases number? (first :: rest) <;> rfl

/-- A class of characters without blanks, line breaks and the marks of comments and
continuations begins none of these. -/
theorem not_special_of_class {inside : Char → Bool} {first : Char} (member : inside first = true)
    (outside : [' ', '\t', '\r', '\x0c', '\n', '#', '\\'].any inside = false) :
    isInlineBlank first = false ∧ first ∉ ['\n', '#', '\\'] := by
  have excluded := not_mem_of_class member outside
  simp only [List.mem_cons, List.not_mem_nil, or_false, not_or] at excluded
  simp [isInlineBlank, excluded]

/-- A single blank before other text. -/
private theorem split_blank {next : Char} {rest : List Char}
    (notBlank : isInlineBlank next = false) :
    split (' ' :: next :: rest) = ⟨.blank, [' ']⟩ :: split (next :: rest) := by
  have scanned : scan ' ' ([] ++ next :: rest) = ⟨.blank, [' ']⟩ := by
    rw [List.nil_append, scan, if_pos (by decide), List.takeWhile_cons_of_pos (by decide),
      List.takeWhile_cons_of_neg (by simp [notBlank])]
  have cut := split_append scanned
  exact cut

/-- Parentheses and commas with their tokens. -/
def delimiters : List (Char × TokenKind) :=
  [('(', .leftParen), (')', .rightParen), (',', .comma)]

/-- Parentheses and commas are symbols whatever follows them. -/
private theorem split_delimiter {mark : Char} {kind : TokenKind} (rest : List Char)
    (delimits : (mark, kind) ∈ delimiters) :
    split (mark :: rest) = ⟨.symbol kind, [mark]⟩ :: split rest := by
  have scanned : scan mark ([] ++ rest) = ⟨.symbol kind, [mark]⟩ := by
    rw [List.nil_append]
    simp only [delimiters, List.mem_cons, Prod.mk.injEq, List.not_mem_nil, or_false] at delimits
    rcases delimits with ⟨rfl, rfl⟩ | ⟨rfl, rfl⟩ | ⟨rfl, rfl⟩ <;>
    · rw [scan_of_literal?_eq_none (by decide) (by decide)
        (literal?_eq_none_of_first rest (by decide) (by decide))]
      rfl
  have cut := split_append scanned
  exact cut

/-- The signs of sums and products with their tokens. -/
def signs : List (Char × TokenKind) :=
  [('+', .plus), ('-', .minus), ('*', .star), ('/', .slash)]

/-- The signs of sums and products are symbols of their own before a blank. -/
private theorem split_sign {mark : Char} {kind : TokenKind} (rest : List Char)
    (sign : (mark, kind) ∈ signs) :
    split (mark :: ' ' :: rest) = ⟨.symbol kind, [mark]⟩ :: split (' ' :: rest) := by
  have scanned : scan mark ([] ++ ' ' :: rest) = ⟨.symbol kind, [mark]⟩ := by
    rw [List.nil_append]
    simp only [signs, List.mem_cons, Prod.mk.injEq, List.not_mem_nil, or_false] at sign
    rcases sign with ⟨rfl, rfl⟩ | ⟨rfl, rfl⟩ | ⟨rfl, rfl⟩ | ⟨rfl, rfl⟩ <;>
    · rw [scan_of_literal?_eq_none (by decide) (by decide)
        (literal?_eq_none_of_first _ (by decide) (by decide))]
      rfl
  have cut := split_append scanned
  exact cut

end Lexeme

/-! ### Words -/

namespace Text

/-- There are ten decimal digits. -/
theorem mem_of_isDigit {digit : Char} (isDigit : digit.isDigit = true) :
    digit ∈ ['0', '1', '2', '3', '4', '5', '6', '7', '8', '9'] := by
  have bounds : 48 ≤ digit.toNat ∧ digit.toNat ≤ 57 := by
    simpa [Char.isDigit, UInt32.le_iff_toNat_le] using isDigit
  have itself : digit = Char.ofNat digit.toNat := (Char.ofNat_toNat digit).symm
  rw [itself]
  generalize digit.toNat = code at bounds
  have decided : ∀ code < 58, 48 ≤ code →
      Char.ofNat code ∈ ['0', '1', '2', '3', '4', '5', '6', '7', '8', '9'] := by decide
  exact decided code (Nat.lt_succ_of_le bounds.2) bounds.1

theorem isDigit_eq_false_of_isIdentifierStart {first : Char}
    (starts : isIdentifierStart first = true) : first.isDigit = false := by
  by_contra digit
  have listed := mem_of_isDigit (Bool.of_not_eq_false digit)
  exact Lexeme.not_mem_of_class starts (by decide) listed

end Text

namespace Lexeme

/-- The characters form one identifier or reserved word. -/
def isWord : List Char → Bool
  | [] => false
  | first :: more => Text.isIdentifierStart first && more.all Text.isIdentifierContinue

private theorem split_word {first : Char} {more rest : List Char}
    (word : isWord (first :: more) = true) (bounded : isBoundary rest = true) :
    split (first :: (more ++ rest)) = ⟨.word, first :: more⟩ :: split rest := by
  obtain ⟨starts, continues⟩ : Text.isIdentifierStart first = true ∧
      ∀ character ∈ more, Text.isIdentifierContinue character = true := by
    simpa [isWord] using word
  obtain ⟨notBlank, notSpecial⟩ := not_special_of_class starts (by decide)
  have plain : ∀ character ∈ first :: more, isQuote character = false := by
    intro character member
    have inWord : Text.isIdentifierContinue character = true := by
      rcases List.mem_cons.mp member with rfl | later
      · exact Text.isIdentifierContinue_of_isIdentifierStart starts
      · exact continues character later
    exact isQuote_eq_false_of_class inWord (by decide)
  have noPoint : first ≠ '.' := by
    rintro rfl
    exact absurd starts (by decide)
  have noNumber : number? (first :: (more ++ rest)) = none := by
    simp [number?, Text.isDigit_eq_false_of_isIdentifierStart starts,
      noPoint]
  have scanned : scan first (more ++ rest) = ⟨.word, first :: more⟩ := by
    rw [scan_of_literal?_eq_none notBlank notSpecial (literal?_eq_none_of_word plain bounded),
      noNumber, Option.getD_none, if_pos starts,
      takeWhile_append_boundary continues bounded (by decide)]
  exact split_append scanned

end Lexeme

/-! ### Integers -/

namespace Numeral

/-- Digits without separators have separators that fit. -/
private theorem separatorsFit_of_digits {digits : List Char} (afterDigit : Bool)
    (all : ∀ digit ∈ digits, digit.isDigit = true) :
    separatorsFit 10 afterDigit digits = true := by
  induction digits generalizing afterDigit with
  | nil => rfl
  | cons first rest inductionHypothesis =>
      have notSeparator : first ≠ '_' := by
        rintro rfl
        exact absurd (all '_' (by simp)) (by decide)
      rw [separatorsFit, if_neg (by simpa using notSeparator)]
      exact inductionHypothesis _ fun digit member => all digit (by simp [member])

/-- Digits without separators stay as they are. -/
private theorem withoutSeparators_of_digits {digits : List Char}
    (all : ∀ digit ∈ digits, digit.isDigit = true) : withoutSeparators digits = digits := by
  rw [withoutSeparators, List.filter_eq_self]
  intro digit member
  have notSeparator : digit ≠ '_' := by
    rintro rfl
    exact absurd (all '_' member) (by decide)
  simpa using notSeparator

theorem digitValue?_of_isDigit {digit : Char} (isDigit : digit.isDigit = true) :
    Text.digitValue? 10 digit = some (digit.toNat - '0'.toNat) := by
  have bounds : 48 ≤ digit.toNat ∧ digit.toNat ≤ 57 := by
    simpa [Char.isDigit, UInt32.le_iff_toNat_le] using isDigit
  have small : digit.toNat - 48 < 10 := by omega
  simp [Text.digitValue?, isDigit, Option.filter_some, small]

/-- Decimal digits denote the number that they were written for. -/
theorem positionalValue_toDigits (number : Nat) :
    Text.positionalValue 10 (Nat.toDigits 10 number) = number := by
  have digits : ∀ digit ∈ Nat.toDigits 10 number, digit.isDigit = true :=
    fun _ member => Nat.isDigit_of_mem_toDigits (by decide) (by decide) member
  calc Text.positionalValue 10 (Nat.toDigits 10 number)
    _ = (Nat.toDigits 10 number).foldl
          (fun value digit => 10 * value + (digit.toNat - '0'.toNat)) 0 := by
        apply List.foldl_ext
        intro value digit member
        rw [digitValue?_of_isDigit (digits digit member), Option.getD_some, Nat.mul_comm]
    _ = number := by rw [← Nat.ofDigitChars_eq_foldl, Nat.ofDigitChars_ten_toDigits]

/-- Only zero is written with a leading zero. -/
theorem head?_toDigits_ne_zero {number : Nat} (positive : 0 < number) :
    (Nat.toDigits 10 number).head? ≠ some '0' := by
  induction number using Nat.strongRecOn with
  | ind number inductionHypothesis =>
      rcases Nat.lt_or_ge number 10 with small | large
      · rw [Nat.toDigits_of_lt_base small]
        simpa [Nat.digitChar_eq_zero] using Nat.pos_iff_ne_zero.mp positive
      · rw [Nat.toDigits_of_base_le (by decide) large,
          List.head?_append_of_ne_nil _ Nat.toDigits_ne_nil]
        exact inductionHypothesis (number / 10) (by omega) (by omega)

private theorem hasLeadingZero_toDigits (number : Nat) :
    hasLeadingZero (Nat.toDigits 10 number) = false := by
  rcases Nat.eq_zero_or_pos number with rfl | positive
  · decide
  · simp [hasLeadingZero, head?_toDigits_ne_zero positive]

private theorem exists_digits_of_isDigit {characters : List Char}
    (all : ∀ character ∈ characters, character.isDigit = true) :
    ∃ digits, characters.mapM (Text.digitValue? 10) = some digits := by
  induction characters with
  | nil => exact ⟨[], rfl⟩
  | cons first rest inductionHypothesis =>
      obtain ⟨isDigit, others⟩ := List.forall_mem_cons.mp all
      obtain ⟨digits, stand⟩ := inductionHypothesis others
      rw [List.mapM_cons, digitValue?_of_isDigit isDigit, stand]
      exact ⟨_, rfl⟩

/-- The decimal digits of a number are an integer literal of its value. -/
theorem ofDecimal?_toDigits (number : Nat) :
    TokenKind.ofDecimal? (Nat.toDigits 10 number) = some (.ofInteger number) := by
  have all : ∀ digit ∈ Nat.toDigits 10 number, digit.isDigit = true :=
    fun _ member => Nat.isDigit_of_mem_toDigits (by decide) (by decide) member
  obtain ⟨digits, stand⟩ := exists_digits_of_isDigit all
  have found : digits? 10 false (Nat.toDigits 10 number) = some digits := by
    simp [digits?, separatorsFit_of_digits false all, withoutSeparators_of_digits all,
      Nat.toDigits_ne_nil, stand]
  rw [TokenKind.ofDecimal?, hasLeadingZero_toDigits, if_neg Bool.false_ne_true,
    ofInteger?_eq (by decide), found, Option.map_some, ← positionalValue_of_digits stand,
    positionalValue_toDigits]

end Numeral

namespace Lexeme

theorem isDigitOrSeparator_of_isDigit {digit : Char} (isDigit : digit.isDigit = true) :
    isDigitOrSeparator 10 digit = true := by
  simp [isDigitOrSeparator, Text.isRadixDigit, Numeral.digitValue?_of_isDigit isDigit]

/-- Digits up to a boundary have no radix mark. -/
private theorem markedInteger?_of_digits {first : Char} {more rest : List Char}
    (digits : ∀ digit ∈ first :: more, digit.isDigit = true) (bounded : isBoundary rest = true) :
    markedInteger? (first :: (more ++ rest)) = none := by
  have unmarked {second : Char} {others : List Char} (shape : more ++ rest = second :: others) :
      second ∉ ['x', 'X', 'o', 'O', 'b', 'B'] := by
    cases more with
    | nil =>
        obtain rfl : rest = second :: others := shape
        have ends : second ∈ boundaryMarks := isBoundary_cons.mp bounded
        have apart : ['x', 'X', 'o', 'O', 'b', 'B'].any boundaryMarks.contains = false := by decide
        exact not_mem_of_class (List.contains_iff_mem.mpr ends) apart
    | cons digit moreDigits =>
        obtain rfl : digit = second := (List.cons.inj shape).1
        exact not_mem_of_class (digits digit (by simp)) (by decide)
  unfold markedInteger?
  split
  next mark others shape =>
    have outside := unmarked (List.cons.inj shape).2
    simp only [List.mem_cons, List.not_mem_nil, or_false, not_or] at outside
    simp [outside]
  next => rfl

/-- Digits up to a boundary are a decimal integer. -/
private theorem decimalNumber_of_digits {digits rest : List Char}
    (all : ∀ digit ∈ digits, digit.isDigit = true) (bounded : isBoundary rest = true) :
    decimalNumber (digits ++ rest) = ⟨.decimalInteger, digits⟩ := by
  have whole : (digits ++ rest).takeWhile (isDigitOrSeparator 10) = digits :=
    takeWhile_append_boundary (fun digit member => isDigitOrSeparator_of_isDigit (all digit member))
      bounded (by decide)
  rw [decimalNumber, whole, List.drop_left]
  cases rest with
  | nil => rfl
  | cons next others =>
      have ends : next = ' ' ∨ next = ',' ∨ next = '(' ∨ next = ')' := by
        simpa [boundaryMarks] using isBoundary_cons.mp bounded
      rcases ends with rfl | rfl | rfl | rfl <;> rfl

private theorem split_digits {digits rest : List Char} (nonempty : digits ≠ [])
    (all : ∀ digit ∈ digits, digit.isDigit = true) (bounded : isBoundary rest = true) :
    split (digits ++ rest) = ⟨.decimalInteger, digits⟩ :: split rest := by
  obtain ⟨first, more, rfl⟩ := List.exists_cons_of_ne_nil nonempty
  have isDigit : first.isDigit = true := all first (by simp)
  obtain ⟨notBlank, notSpecial⟩ := not_special_of_class isDigit (by decide)
  have plain : ∀ digit ∈ first :: more, isQuote digit = false :=
    fun digit member => isQuote_eq_false_of_class (all digit member) (by decide)
  have isNumber : number? (first :: (more ++ rest)) = some ⟨.decimalInteger, first :: more⟩ := by
    rw [number?, if_pos isDigit, markedInteger?_of_digits all bounded, Option.getD_none]
    exact congrArg some (decimalNumber_of_digits all bounded)
  have scanned : scan first (more ++ rest) = ⟨.decimalInteger, first :: more⟩ := by
    rw [scan_of_literal?_eq_none notBlank notSpecial (literal?_eq_none_of_word plain bounded),
      isNumber, Option.getD_some]
  exact split_append scanned

/-! ### Texts that spell tokens -/

/-- The lexemes stand for the token kinds in their order; blanks stand for none. -/
inductive StandFor : List Lexeme → List TokenKind → Prop where
  | none : StandFor [] []
  | blank {text : List Char} {lexemes : List Lexeme} {kinds : List TokenKind}
      (others : StandFor lexemes kinds) :
      StandFor (⟨.blank, text⟩ :: lexemes) kinds
  | token {lexeme : Lexeme} {kind : TokenKind} {lexemes : List Lexeme} {kinds : List TokenKind}
      (stands : lexeme.token? = .ok (some kind)) (others : StandFor lexemes kinds) :
      StandFor (lexeme :: lexemes) (kind :: kinds)

theorem StandFor.append {first second : List Lexeme} {firstKinds secondKinds : List TokenKind}
    (before : StandFor first firstKinds) (after : StandFor second secondKinds) :
    StandFor (first ++ second) (firstKinds ++ secondKinds) := by
  induction before with
  | none => exact after
  | blank _ inductionHypothesis => exact .blank inductionHypothesis
  | token stands _ inductionHypothesis => exact .token stands inductionHypothesis

/-- Wherever a boundary follows, the text is cut into lexemes of its own that stand for
the token kinds, and neither its first character nor its first lexeme is blank. -/
structure Spells (text : List Char) (kinds : List TokenKind) : Prop where
  start : ∃ first more, text = first :: more ∧ isInlineBlank first = false
  cut : ∀ rest, isBoundary rest = true → ∃ lexeme others, lexeme.kind ≠ .blank ∧
    split (text ++ rest) = lexeme :: (others ++ split rest) ∧ StandFor (lexeme :: others) kinds

namespace Spells

/-- A text that is cut into a single lexeme. -/
private theorem single {first : Char} {more : List Char} {kind : TokenKind} (lexeme : Lexeme)
    (notBlank : isInlineBlank first = false) (visible : lexeme.kind ≠ .blank)
    (stands : lexeme.token? = .ok (some kind))
    (cut : ∀ rest, isBoundary rest = true →
      split (first :: (more ++ rest)) = lexeme :: split rest) :
    Spells (first :: more) [kind] where
  start := ⟨first, more, rfl, notBlank⟩
  cut rest bounded := ⟨lexeme, [], visible, cut rest bounded, .token stands .none⟩

/-- A word spells its token. -/
theorem word {text : List Char} (isWord : isWord text = true) :
    Spells text [.ofWord (String.ofList text)] := by
  obtain ⟨first, more, rfl⟩ : ∃ first more, text = first :: more := by
    cases text with
    | nil => exact absurd isWord (by decide)
    | cons first more => exact ⟨first, more, rfl⟩
  have starts : Text.isIdentifierStart first = true := by
    simp only [Lexeme.isWord, Bool.and_eq_true] at isWord
    exact isWord.1
  exact single ⟨.word, first :: more⟩ (not_special_of_class starts (by decide)).1 (by simp) rfl
    fun rest bounded => split_word isWord bounded

/-- The decimal digits of an integer that fits 64 bits with sign spell its token. -/
theorem integer {number : Nat} (fits : number ≤ smallIntegerLimit) :
    Spells (Nat.toDigits 10 number) [.int number] := by
  have digits : ∀ digit ∈ Nat.toDigits 10 number, digit.isDigit = true :=
    fun _ member => Nat.isDigit_of_mem_toDigits (by decide) (by decide) member
  have value : token? ⟨.decimalInteger, Nat.toDigits 10 number⟩ = .ok (some (.int number)) := by
    simp [token?, Numeral.ofDecimal?_toDigits, numberToken, TokenKind.ofInteger, fits, Except.map]
  obtain ⟨first, more, shape⟩ :=
    List.exists_cons_of_ne_nil (Nat.toDigits_ne_nil : Nat.toDigits 10 number ≠ [])
  rw [shape] at digits value ⊢
  exact single _ (not_special_of_class (digits first (by simp)) (by decide)).1 (by simp) value
    fun rest bounded => split_digits (by simp) digits bounded

/-- Two spellings with a text between them that ends the first and leads to the second. -/
theorem join {left right : List Char} {leftKinds rightKinds kinds : List TokenKind}
    (first : Spells left leftKinds) (second : Spells right rightKinds)
    (between : List Char) (lexemes : List Lexeme)
    (ends : ∀ rest, isBoundary (between ++ rest) = true)
    (leads : ∀ next rest, isInlineBlank next = false →
      split (between ++ next :: rest) = lexemes ++ split (next :: rest))
    (stand : StandFor lexemes kinds) :
    Spells (left ++ (between ++ right)) (leftKinds ++ (kinds ++ rightKinds)) := by
  obtain ⟨start, more, leftShape, notBlank⟩ := first.start
  obtain ⟨next, others, rightShape, nextNotBlank⟩ := second.start
  refine ⟨⟨start, more ++ (between ++ right), by rw [leftShape, List.cons_append], notBlank⟩, ?_⟩
  intro rest bounded
  obtain ⟨leftLexeme, leftOthers, visible, leftCut, leftStand⟩ :=
    first.cut (between ++ (right ++ rest)) (ends _)
  obtain ⟨rightLexeme, rightOthers, _, rightCut, rightStand⟩ := second.cut rest bounded
  have middle : split (between ++ (right ++ rest)) = lexemes ++ split (right ++ rest) := by
    rw [rightShape, List.cons_append]
    exact leads next (others ++ rest) nextNotBlank
  refine ⟨leftLexeme, leftOthers ++ (lexemes ++ rightLexeme :: rightOthers), visible, ?_,
    leftStand.append (stand.append rightStand)⟩
  rw [List.append_assoc, List.append_assoc, leftCut, middle, rightCut]
  simp

/-- An operator of sums or products between blanks. -/
theorem operation {left right : List Char} {leftKinds rightKinds : List TokenKind} {mark : Char}
    {kind : TokenKind} (first : Spells left leftKinds) (second : Spells right rightKinds)
    (sign : (mark, kind) ∈ signs) :
    Spells (left ++ (' ' :: mark :: ' ' :: right)) (leftKinds ++ kind :: rightKinds) := by
  have notBlank : isInlineBlank mark = false := by
    have marks : ∀ pair ∈ signs, isInlineBlank pair.1 = false := by decide
    exact marks _ sign
  refine first.join second [' ', mark, ' ']
    [⟨.blank, [' ']⟩, ⟨.symbol kind, [mark]⟩, ⟨.blank, [' ']⟩]
    (fun rest => isBoundary_cons.mpr (by decide)) ?_ (.blank (.token rfl (.blank .none)))
  intro next rest nextNotBlank
  change split (' ' :: mark :: ' ' :: next :: rest) = _
  rw [split_blank notBlank, split_sign _ sign, split_blank nextNotBlank]
  rfl

/-- A comma and a blank after it. -/
theorem separated {left right : List Char} {leftKinds rightKinds : List TokenKind}
    (first : Spells left leftKinds) (second : Spells right rightKinds) :
    Spells (left ++ (',' :: ' ' :: right)) (leftKinds ++ .comma :: rightKinds) := by
  refine first.join second [',', ' '] [⟨.symbol .comma, [',']⟩, ⟨.blank, [' ']⟩]
    (fun rest => isBoundary_cons.mpr (by decide)) ?_ (.token rfl (.blank .none))
  intro next rest nextNotBlank
  change split (',' :: ' ' :: next :: rest) = _
  have comma : (',', TokenKind.comma) ∈ delimiters := by decide
  rw [split_delimiter _ comma, split_blank nextNotBlank]
  rfl

/-- Texts side by side, with commas and blanks between them. -/
private theorem items {texts : List (List Char)} {kinds : List (List TokenKind)}
    (all : List.Forall₂ Spells texts kinds) (nonempty : texts ≠ []) :
    Spells ([',', ' '].intercalate texts) ([TokenKind.comma].intercalate kinds) := by
  induction all with
  | nil => exact absurd rfl nonempty
  | cons first others inductionHypothesis =>
      cases others with
      | nil => simpa using first
      | cons second rest =>
          have combined := first.separated (inductionHypothesis (by simp))
          simpa [List.intercalate_cons_cons] using combined

/-- A word before parentheses that hold texts with commas between them. -/
theorem call {callee : List Char} {texts : List (List Char)} {kinds : List (List TokenKind)}
    (isWord : Lexeme.isWord callee = true) (all : List.Forall₂ Spells texts kinds) :
    Spells (callee ++ '(' :: ([',', ' '].intercalate texts ++ [')']))
      (.ofWord (String.ofList callee) :: .leftParen ::
        ([TokenKind.comma].intercalate kinds ++ [.rightParen])) := by
  have calleeSpells := word isWord
  obtain ⟨first, more, shape, notBlank⟩ := calleeSpells.start
  refine ⟨⟨first, _, by rw [shape, List.cons_append], notBlank⟩, ?_⟩
  intro rest bounded
  obtain ⟨lexeme, others, visible, calleeCut, calleeStand⟩ :=
    calleeSpells.cut ('(' :: ([',', ' '].intercalate texts ++ ')' :: rest))
      (isBoundary_cons.mpr (by decide))
  have inner : ∃ lexemes, split ([',', ' '].intercalate texts ++ ')' :: rest) =
      lexemes ++ split (')' :: rest) ∧ StandFor lexemes ([TokenKind.comma].intercalate kinds) := by
    cases all with
    | nil => exact ⟨[], rfl, .none⟩
    | cons firstItem otherItems =>
        obtain ⟨itemLexeme, itemOthers, _, itemsCut, itemsStand⟩ :=
          (items (.cons firstItem otherItems) (by simp)).cut (')' :: rest)
            (isBoundary_cons.mpr (by decide))
        exact ⟨itemLexeme :: itemOthers, itemsCut, itemsStand⟩
  obtain ⟨lexemes, itemsCut, itemsStand⟩ := inner
  refine ⟨lexeme, others ++ ⟨.symbol .leftParen, ['(']⟩ ::
    (lexemes ++ [⟨.symbol .rightParen, [')']⟩]), visible, ?_, ?_⟩
  · have text : callee ++ '(' :: ([',', ' '].intercalate texts ++ [')']) ++ rest =
        callee ++ '(' :: ([',', ' '].intercalate texts ++ ')' :: rest) := by simp
    have opening : ('(', TokenKind.leftParen) ∈ delimiters := by decide
    have closing : (')', TokenKind.rightParen) ∈ delimiters := by decide
    rw [text, calleeCut, split_delimiter _ opening, itemsCut, split_delimiter _ closing]
    simp
  · have closing : StandFor [⟨.symbol .rightParen, [')']⟩] [TokenKind.rightParen] :=
      .token rfl .none
    exact calleeStand.append (.token rfl (itemsStand.append closing))

end Spells
end Lexeme

/-! ### From spellings to tokens -/

namespace Layout

/-- The logical line has a token, or has begun without a margin outside all blocks. -/
def IsFlush (state : State) : Prop :=
  state.blocks = [] ∧ ∀ margin ∈ state.margin, margin.width = .ok 0

/-- A lexeme that stands for a token adds it, and the line has a token from then on. -/
theorem step_of_token {state : State} {lexeme : Lexeme} {kind : TokenKind}
    (flush : IsFlush state) (stands : lexeme.token? = .ok (some kind)) (offset : Nat) :
    step state offset lexeme =
      .ok ([⟨kind, ⟨offset, offset + Text.byteLength lexeme.text⟩⟩],
        ⟨depthAfter state.depth kind, none, []⟩) := by
  obtain ⟨depth, margin, blocks⟩ := state
  obtain ⟨rfl, noMargin⟩ : blocks = [] ∧ ∀ start ∈ margin, start.width = .ok 0 := flush
  rw [step]
  simp only [stands]
  split
  case h_1 isKind => simp [Lexeme.token?, isKind] at stands
  case h_2 isKind => simp [Lexeme.token?, isKind] at stands
  case h_3 isKind => simp [Lexeme.token?, isKind] at stands
  case h_4 isKind => simp [Lexeme.token?, isKind] at stands
  case h_5 isKind => simp [Lexeme.token?, isKind] at stands
  case h_6 =>
    cases margin with
    | none => rfl
    | some margin =>
        obtain ⟨start, width⟩ := margin
        obtain rfl : width = .ok 0 := noMargin _ rfl
        rfl

/-- Inside a line, lexemes add the tokens that they stand for. -/
theorem arrange_of_standFor {lexemes : List Lexeme} {kinds : List TokenKind}
    (stand : Lexeme.StandFor lexemes kinds) (depth offset : Nat) :
    ∃ tokens, arrange ⟨depth, none, []⟩ offset lexemes = .ok tokens ∧
      tokens.map (·.kind) = kinds ++ [.newline, .endOfFile] := by
  induction stand generalizing depth offset with
  | none => exact ⟨_, rfl, rfl⟩
  | @blank text lexemes kinds _ inductionHypothesis =>
      obtain ⟨tokens, arranged, shape⟩ := inductionHypothesis depth (offset + Text.byteLength text)
      refine ⟨tokens, ?_, shape⟩
      rw [arrange]
      change (arrange ⟨depth, none, []⟩ (offset + Text.byteLength text) lexemes >>= _) = _
      rw [arranged]
      rfl
  | @token lexeme kind lexemes kinds stands _ inductionHypothesis =>
      obtain ⟨tokens, arranged, shape⟩ := inductionHypothesis (depthAfter depth kind)
        (offset + Text.byteLength lexeme.text)
      refine ⟨⟨kind, ⟨offset, offset + Text.byteLength lexeme.text⟩⟩ :: tokens, ?_,
        by rw [List.map_cons, shape, List.cons_append]⟩
      rw [arrange, step_of_token ⟨rfl, by simp⟩ stands]
      change (arrange ⟨depthAfter depth kind, none, []⟩ _ lexemes >>= _) = _
      rw [arranged]
      rfl

end Layout

/-- A text that spells token kinds is a source of one line with these tokens. -/
theorem tokenize_of_spells {source : String} {kinds : List TokenKind}
    (spells : Lexeme.Spells source.toList kinds)
    (fits : source.utf8ByteSize ≤ Span.offsetLimit) :
    ∃ tokens, tokenize source = .ok tokens ∧
      tokens.map (·.kind) = kinds ++ [.newline, .endOfFile] := by
  obtain ⟨lexeme, others, visible, cut, stand⟩ := spells.cut [] Lexeme.isBoundary_nil
  have lexemes : Lexeme.split source.toList = lexeme :: others := by
    rw [List.append_nil] at cut
    rw [cut]
    exact congrArg (lexeme :: ·) (List.append_nil others)
  cases stand with
  | blank => exact absurd rfl visible
  | @token _ kind _ otherKinds stands otherStand =>
      obtain ⟨tokens, arranged, shape⟩ := Layout.arrange_of_standFor otherStand
        (Layout.depthAfter 0 kind) (0 + Text.byteLength lexeme.text)
      refine ⟨⟨kind, ⟨0, 0 + Text.byteLength lexeme.text⟩⟩ :: tokens, ?_,
        by rw [List.map_cons, shape, List.cons_append]⟩
      have flush : Layout.IsFlush .initial := ⟨rfl, by rintro _ ⟨⟩; rfl⟩
      rw [tokenize_of_small fits, lexemes, Layout.arrange, Layout.step_of_token flush stands]
      change (Layout.arrange ⟨Layout.depthAfter 0 kind, none, []⟩ _ others >>= _) = _
      rw [arranged]
      rfl

end Transpiler
