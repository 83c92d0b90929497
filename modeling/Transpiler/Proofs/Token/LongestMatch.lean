import Transpiler.Proofs.Token.Patterns
import Transpiler.Proofs.Token.QuotedLiteral
import Transpiler.Proofs.Token.Scanning

/-!
Contract: what scanning finds is never shorter than what a pattern matches.

Owns: for each pattern of the table, what is scanned from a text that begins with a match of it,
and that `Fits.outdone` therefore holds of all of them.

A formatted string that is not closed in its line is the one exception. No pattern matches it as a
whole, and the identifier that its letters are is not taken either.
-/

namespace Transpiler
namespace Lexeme

open Pattern

/-- The lexeme is no shorter than a text of some kind, and of that kind if it is as long. -/
structure Outdoes (lexeme : Lexeme) (kind : LexemeKind) (text : List Char) : Prop where
  found : lexeme.kind ≠ .stray
  longer : text.length ≤ lexeme.text.length
  sameKind : text.length = lexeme.text.length → lexeme.kind.withoutText = kind

/-- A formatted string without a closing quote in its line. -/
def UnclosedFormatted (input : List Char) : Prop :=
  ∃ letters quote rest, input = letters ++ quote :: rest ∧ formattedLetters.Matches letters ∧
    isQuote quote = true ∧ ∀ body, (contents quote).Matches body → ¬ body ++ [quote] <+: rest

variable {first quote : Char} {rest text letters body : List Char} {kind : LexemeKind}
  {lexeme : Lexeme}

theorem Outdoes.of_lt (found : lexeme.kind ≠ .stray) (shorter : text.length < lexeme.text.length) :
    Outdoes lexeme kind text :=
  ⟨found, Nat.le_of_lt shorter, fun same => absurd same (Nat.ne_of_lt shorter)⟩

/-! ### Comments and line breaks -/

private theorem outdoes_comment (isMatch : comment.Matches text)
    (isPrefix : text <+: first :: rest) :
    Outdoes (scan first rest) .comment text := by
  obtain ⟨body, rfl, inLine⟩ := matches_seq_only.mp isMatch
  obtain ⟨rfl, after, rfl⟩ := List.cons_prefix_cons.mp isPrefix
  have all : ∀ character ∈ body, (character != '\n') = true := by
    simpa using matches_star_one.mp inLine
  have scanned : scan '#' (body ++ after) =
      ⟨.comment, '#' :: (body ++ after.takeWhile (· != '\n'))⟩ := by
    rw [← List.takeWhile_append_of_pos all]
    rfl
  rw [scanned]
  exact ⟨by simp, by simp, fun _ => rfl⟩

private theorem outdoes_lineBreak (isMatch : (only '\n').Matches text)
    (isPrefix : text <+: first :: rest) :
    Outdoes (scan first rest) .lineBreak text := by
  obtain rfl := matches_only.mp isMatch
  obtain ⟨rfl, _⟩ := List.cons_prefix_cons.mp isPrefix
  have scanned : scan '\n' rest = ⟨.lineBreak, ['\n']⟩ := rfl
  rw [scanned]
  exact ⟨by simp, by simp, fun _ => rfl⟩

private theorem outdoes_continuation (isMatch : continuation.Matches text)
    (isPrefix : text <+: first :: rest) : Outdoes (scan first rest) .continuation text := by
  obtain ⟨_, rfl, margin, ending, rfl, blank, mark, _, rfl, isReturn, isBreak⟩ :=
    matches_seq_only.mp isMatch
  obtain ⟨rfl, after, rfl⟩ := List.cons_prefix_cons.mp isPrefix
  obtain rfl := matches_only.mp isBreak
  have ends : mark ++ ['\n'] = ['\n'] ∨ mark ++ ['\n'] = ['\r', '\n'] := by
    rcases matches_optional.mp isReturn with isReturn | rfl
    · exact .inr (by rw [matches_only.mp isReturn, List.singleton_append])
    · exact .inl rfl
  rw [scan_continuation (matches_star_one.mp blank) ends]
  exact ⟨by simp, Nat.le_refl _, fun _ => rfl⟩

/-! ### Literals -/

theorem literalBody_append (inside : (contents quote).Matches body) (rest : List Char) :
    literalBody quote (body ++ rest) = body ++ literalBody quote rest := by
  obtain ⟨parts, rfl, all⟩ := inside
  induction parts with
  | nil => rfl
  | cons part parts inductionHypothesis =>
      have others := inductionHypothesis fun other member => all other (by simp [member])
      rw [List.flatten_cons, List.append_assoc, List.append_assoc]
      rcases all part (by simp) with ⟨character, plain, rfl⟩ | escaped
      · obtain ⟨notQuote, notMark, notBreak⟩ :
          character ≠ quote ∧ character ≠ '\\' ∧ character ≠ '\n' := by simpa using plain
        rw [List.singleton_append, List.singleton_append, literalBody]
        · simp [notQuote, notMark, notBreak, others]
        · exact fun _ _ isMark => absurd isMark notMark
      · obtain ⟨_, rfl, character, inLine, rfl⟩ := matches_seq_only.mp escaped
        have notBreak : character ≠ '\n' := by simpa using inLine
        simp [literalBody, notBreak, others]

private theorem contents_literalBody (quote : Char) (rest : List Char) :
    (contents quote).Matches (literalBody quote rest) := by
  fun_induction literalBody quote rest with
  | case1 | case3 | case5 => exact star_nil
  | case2 escaped rest inLine inductionHypothesis =>
      have once : (content quote).Matches ['\\', escaped] :=
        .inr (matches_seq_only.mpr ⟨[escaped], rfl, escaped, by simpa using inLine, rfl⟩)
      exact star_cons once inductionHypothesis
  | case4 character rest _ plain inductionHypothesis =>
      have once : (content quote).Matches [character] :=
        .inl ⟨character, by simpa [and_assoc, and_comm] using plain, rfl⟩
      exact star_cons once inductionHypothesis

private theorem literalBody_quote (isQuote : isQuote quote = true) (rest : List Char) :
    literalBody quote (quote :: rest) = [] := by
  rw [literalBody]
  · simp
  · rintro _ _ rfl
    cases isQuote

/-- Whether the text is closed behind the contents that are found. -/
theorem closed_iff (isQuote : isQuote quote = true) :
    (rest.drop (literalBody quote rest).length).head? = some quote ↔
      ∃ body, (contents quote).Matches body ∧ body ++ [quote] <+: rest := by
  constructor
  · intro closed
    refine ⟨_, contents_literalBody quote rest,
      append_isPrefix (literalBody_isPrefix quote rest) ?_⟩
    obtain ⟨others, shape⟩ := List.head?_eq_some_iff.mp closed
    simp [shape]
  · rintro ⟨body, inside, more, rfl⟩
    rw [List.append_assoc, literalBody_append inside, List.singleton_append,
      literalBody_quote isQuote, List.append_nil, List.drop_left]
    rfl

/-- A letter of the marks before a literal. -/
def isMarkLetter (character : Char) : Bool :=
  ['r', 'b', 'f'].contains character.toLower

theorem mem_of_isMarkLetter {character : Char} (isLetter : isMarkLetter character = true) :
    character ∈ ['r', 'R', 'b', 'B', 'f', 'F'] := by
  have ofR := @Text.toLower_eq_iff 'r' 'R' character (by decide) (by decide)
  have ofB := @Text.toLower_eq_iff 'b' 'B' character (by decide) (by decide)
  have ofF := @Text.toLower_eq_iff 'f' 'F' character (by decide) (by decide)
  simpa [isMarkLetter, ofR, ofB, ofF, or_assoc] using isLetter

/-- A class of characters without quotes and the letters of the marks begins no literal. -/
private theorem literal?_eq_none_of_class {inside : Char → Bool} (member : inside first = true)
    (outside : ['"', '\'', 'r', 'R', 'b', 'B', 'f', 'F'].any inside = false) (rest : List Char) :
    literal? (first :: rest) = none := by
  have excluded := not_mem_of_class member outside
  simp only [List.mem_cons, List.not_mem_nil, or_false, not_or] at excluded
  apply literal?_eq_none_of_first
  · simp [isQuote, excluded]
  · intro isLetter
    have listed := mem_of_isMarkLetter (List.contains_iff_mem.mpr isLetter)
    simp [excluded] at listed

/-- The marks of a literal are at most two letters. -/
theorem letters_of_marks (marks : letters.map Char.toLower ∈ plainMarks ++ formattedMarks) :
    letters.length ≤ 2 ∧ ∀ letter ∈ letters, isMarkLetter letter = true := by
  have table : (plainMarks ++ formattedMarks).all (fun marks =>
      decide (marks.length ≤ 2) && marks.all ['r', 'b', 'f'].contains) = true := by decide
  obtain ⟨short, all⟩ := Bool.and_eq_true_iff.mp (List.all_eq_true.mp table _ marks)
  exact ⟨by simpa using short, fun letter member =>
    List.all_eq_true.mp all _ (List.mem_map_of_mem member)⟩

/-- What a literal begins with begins nothing else. -/
theorem scan_quoted {following : List Char} (shape : first :: rest = letters ++ quote :: following)
    (marks : letters.map Char.toLower ∈ plainMarks ++ formattedMarks)
    (isQuote : isQuote quote = true) (found : quoted? letters quote following = some lexeme) :
    scan first rest = lexeme := by
  obtain ⟨short, plain⟩ := letters_of_marks marks
  obtain ⟨notBlank, notSpecial⟩ :
      isInlineBlank first = false ∧ first ∉ ['\n', '#', '\\'] := by
    cases letters with
    | nil =>
        obtain ⟨rfl, _⟩ := List.cons.inj shape
        exact not_special_of_class isQuote (by decide)
    | cons letter letters =>
        obtain ⟨rfl, _⟩ := List.cons.inj shape
        exact not_special_of_class (plain first (by simp)) (by decide)
  have taken :
      ((letters ++ quote :: following).take 2).takeWhile (!Lexeme.isQuote ·) = letters := by
    rw [List.take_append, List.take_of_length_le short]
    apply Text.takeWhile_run
    · intro letter member
      simp [isQuote_eq_false_of_class (plain letter member) (by decide)]
    · intro next member
      have isNext : next = quote := by
        cases left : 2 - letters.length with
        | zero => simp [left] at member
        | succ count => simpa [left, eq_comm] using member
      simp [isNext, isQuote]
  apply scan_of_literal? notBlank notSpecial
  simp only [shape, literal?, taken, List.drop_left, isQuote, if_true, found]

/-- What is found for a string or bytes literal. -/
theorem quoted?_plain (marks : letters.map Char.toLower ∈ plainMarks) (quote : Char)
    (rest : List Char) :
    quoted? letters quote rest =
      some (if (rest.drop (literalBody quote rest).length).head? = some quote then
        ⟨.string, letters ++ quote :: (literalBody quote rest ++ [quote])⟩
      else ⟨.unterminatedString, letters ++ quote :: literalBody quote rest⟩) := by
  simp [quoted?, marks]

theorem quoted?_formatted (marks : letters.map Char.toLower ∈ formattedMarks) (quote : Char)
    (rest : List Char) :
    quoted? letters quote rest =
      some (if (rest.drop (literalBody quote rest).length).head? = some quote then
        ⟨.formattedString, letters ++ quote :: (literalBody quote rest ++ [quote])⟩
      else ⟨.stray, letters ++ quote :: literalBody quote rest⟩) := by
  have table : formattedMarks.all (fun marks => !plainMarks.contains marks) = true := by decide
  have notPlain := List.all_eq_true.mp table _ marks
  simp only [Bool.not_eq_true', List.contains_eq_mem, decide_eq_false_iff_not] at notPlain
  simp [quoted?, notPlain, marks]

/-- A literal that is closed in its line. -/
private theorem outdoes_closed (marks : letters.map Char.toLower ∈ plainMarks ++ formattedMarks)
    (isQuote : isQuote quote = true) (inside : (contents quote).Matches body)
    (found : ∀ rest, (rest.drop (literalBody quote rest).length).head? = some quote →
      quoted? letters quote rest =
        some ⟨kind, letters ++ quote :: (literalBody quote rest ++ [quote])⟩)
    (isLexeme : kind ≠ .stray ∧ kind.withoutText = kind)
    (isPrefix : letters ++ quote :: (body ++ [quote]) <+: first :: rest) :
    Outdoes (scan first rest) kind (letters ++ quote :: (body ++ [quote])) := by
  obtain ⟨after, shape⟩ := isPrefix
  rw [List.append_assoc, List.cons_append, List.append_assoc, List.singleton_append] at shape
  have taken : literalBody quote (body ++ quote :: after) = body := by
    rw [literalBody_append inside, literalBody_quote isQuote, List.append_nil]
  have foundHere := found (body ++ quote :: after) (by rw [taken, List.drop_left]; rfl)
  rw [taken] at foundHere
  rw [scan_quoted shape.symm marks isQuote foundHere]
  exact ⟨isLexeme.1, Nat.le_refl _, fun _ => isLexeme.2⟩

private theorem outdoes_string (isQuote : isQuote quote = true)
    (isMatch : (closed plainLetters quote).Matches text) (isPrefix : text <+: first :: rest) :
    Outdoes (scan first rest) .string text := by
  obtain ⟨letters, body, rfl, isLetters, inside⟩ := matches_closed.mp isMatch
  have marks := matches_plainLetters.mp isLetters
  exact outdoes_closed (List.mem_append_left _ marks) isQuote inside
    (fun rest closed => by rw [quoted?_plain marks, if_pos closed]) ⟨by simp, rfl⟩ isPrefix

private theorem outdoes_formatted (isQuote : isQuote quote = true)
    (isMatch : (closed formattedLetters quote).Matches text) (isPrefix : text <+: first :: rest) :
    Outdoes (scan first rest) .formattedString text := by
  obtain ⟨letters, body, rfl, isLetters, inside⟩ := matches_closed.mp isMatch
  have marks := matches_formattedLetters.mp isLetters
  exact outdoes_closed (List.mem_append_right _ marks) isQuote inside
    (fun rest closed => by rw [quoted?_formatted marks, if_pos closed]) ⟨by simp, rfl⟩ isPrefix

private theorem outdoes_unterminated (isQuote : isQuote quote = true)
    (isMatch : (opened plainLetters quote).Matches text) (isPrefix : text <+: first :: rest) :
    Outdoes (scan first rest) .unterminatedString text := by
  obtain ⟨letters, body, rfl, isLetters, inside⟩ := matches_opened.mp isMatch
  have marks := matches_plainLetters.mp isLetters
  obtain ⟨after, shape⟩ := isPrefix
  rw [List.append_assoc, List.cons_append] at shape
  have found := quoted?_plain marks quote (body ++ after)
  rw [scan_quoted shape.symm (List.mem_append_left _ marks) isQuote found,
    literalBody_append inside]
  split
  · refine .of_lt (by simp) ?_
    simp only [List.length_append, List.length_cons]
    omega
  · exact ⟨by simp, by simp, fun _ => rfl⟩

/-! ### Numbers -/

/-- A digit or the point before one. -/
def beginsNumber (character : Char) : Bool := character.isDigit || character == '.'

/-- A number begins nothing else. -/
theorem scan_number (found : number? (first :: rest) = some lexeme) : scan first rest = lexeme := by
  have starts : beginsNumber first = true := by
    simp only [number?] at found
    split at found
    next isDigit => simp [beginsNumber, isDigit]
    split at found
    next isPoint => simp_all [beginsNumber]
    next => contradiction
  obtain ⟨notBlank, notSpecial⟩ := not_special_of_class starts (by decide)
  rw [scan_of_literal?_eq_none notBlank notSpecial
    (literal?_eq_none_of_class starts (by decide) rest), found, Option.getD_some]

section Exponent

variable {exponent : List Char} (isExponent : Pattern.exponent.Matches exponent)
include isExponent

/-- An exponent begins neither with a digit nor with a point. -/
private theorem head?_exponent (after : List Char) : ∀ next ∈ (exponent ++ after).head?,
    isDigitOrSeparator 10 next = false ∧ next ≠ '.' ∧ (next = 'e' ∨ next = 'E') := by
  obtain ⟨mark, _, _, rfl, isMark, _⟩ := matches_exponent.mp isExponent
  rintro next isHead
  obtain rfl := Option.some.inj isHead
  rcases isMark with rfl | rfl <;> decide

private theorem exponent_isPrefix (after : List Char) :
    exponent <+: exponentPart (exponent ++ after) := by
  obtain ⟨mark, sign, digits, rfl, isMark, isSign, some, all⟩ := matches_exponent.mp isExponent
  obtain ⟨digit, digits, rfl⟩ := List.exists_cons_of_ne_nil some
  have isDigit := all digit (by simp)
  have notSign : digit ≠ '+' ∧ digit ≠ '-' := by
    constructor
    all_goals
      rintro rfl
      contradiction
  have taken : ((sign ++ digit :: (digits ++ after)).take 1).filter
      (fun character => character == '+' || character == '-') = sign := by
    rcases isSign with rfl | rfl | rfl <;> simp [notSign]
  have run : (digit :: (digits ++ after)).takeWhile (isDigitOrSeparator 10) =
      digit :: (digits ++ after.takeWhile (isDigitOrSeparator 10)) :=
    List.takeWhile_append_of_pos all
  rw [List.cons_append, List.append_assoc, List.cons_append, exponentPart]
  simp [taken, isMark, run]

end Exponent

theorem exponent_exponentPart (input : List Char) :
    Pattern.exponent.optional.Matches (exponentPart input) := by
  rw [matches_optional]
  cases input with
  | nil => exact .inr rfl
  | cons mark rest =>
      simp only [exponentPart]
      split
      next isMark =>
        split
        · exact .inr rfl
        next some =>
          refine .inl (matches_exponent.mpr ⟨mark, _, _, rfl, by simpa using isMark, ?_,
            by simpa using some, List.all_eq_true.mp List.all_takeWhile⟩)
          cases rest with
          | nil => simp
          | cons sign others =>
              by_cases isPlus : sign = '+'
              · simp [isPlus]
              · by_cases isMinus : sign = '-'
                · simp [isMinus]
                · simp [isPlus, isMinus]
      next => exact .inr rfl

/-- Digits and perhaps an exponent, against the digits and the exponent that are found. -/
private theorem length_fraction_le {fraction exponent : List Char}
    (digits : ∀ digit ∈ fraction, isDigitOrSeparator 10 digit = true)
    (isExponent : Pattern.exponent.optional.Matches exponent) (after : List Char) :
    (fraction ++ exponent).length ≤
      (pointedNumber (fraction ++ exponent ++ after)).text.tail.length := by
  simp only [pointedNumber, List.tail_cons]
  rcases matches_optional.mp isExponent with isExponent | rfl
  · rw [List.append_assoc, Text.takeWhile_run digits fun next isHead =>
      (head?_exponent isExponent after next isHead).1, List.drop_left]
    simpa using (exponent_isPrefix isExponent after).length_le
  · rw [List.append_nil, List.takeWhile_append_of_pos digits]
    simp only [List.length_append]
    omega

/-- What a decimal number may go on with after its first digit. -/
def continuesDecimal (character : Char) : Bool :=
  isDigitOrSeparator 10 character || character == '.' || character == 'e' || character == 'E'

private theorem markedInteger?_mark {radix : Nat} {mark : Char}
    (isMark : (kind, radix, mark) ∈ Numeral.radixMarks) (rest : List Char) :
    markedInteger? ('0' :: mark :: rest) =
      if (rest.takeWhile (isDigitOrSeparator radix)).isEmpty then none
      else some ⟨kind, '0' :: mark :: rest.takeWhile (isDigitOrSeparator radix)⟩ := by
  simp only [Numeral.radixMarks, List.mem_cons, Prod.mk.injEq, List.not_mem_nil, or_false] at isMark
  obtain ⟨rfl, rfl, rfl⟩ | ⟨rfl, rfl, rfl⟩ | ⟨rfl, rfl, rfl⟩ | ⟨rfl, rfl, rfl⟩ | ⟨rfl, rfl, rfl⟩ |
    ⟨rfl, rfl, rfl⟩ := isMark <;> rfl

/-- An integer with a radix mark goes on where a decimal number does not. -/
private theorem marked_of_markedInteger? (found : markedInteger? (first :: rest) = some lexeme) :
    ∃ mark ∈ rest.head?, continuesDecimal mark = false ∧ 1 < lexeme.text.length ∧
      lexeme.kind ≠ .stray := by
  have apart : ∀ entry ∈ Numeral.radixMarks,
      continuesDecimal entry.2.2 = false ∧ entry.1 ≠ .stray := by decide
  unfold markedInteger? at found
  split at found
  next mark more shape =>
    obtain ⟨rfl, rfl⟩ := List.cons.inj shape
    by_cases marked : ∃ entry ∈ Numeral.radixMarks, mark = entry.2.2
    · obtain ⟨entry, isEntry, rfl⟩ := marked
      have found := (markedInteger?_mark isEntry more).symm.trans found
      split at found
      · cases found
      · obtain rfl := Option.some.inj found
        exact ⟨_, rfl, (apart entry isEntry).1, by simp, (apart entry isEntry).2⟩
    · simp only [Numeral.radixMarks, List.exists_mem_cons_iff, not_or] at marked
      simp [marked] at found
  next => cases found

private theorem number?_digit (isDigit : first.isDigit = true) (rest : List Char) :
    number? (first :: rest) =
      some ((markedInteger? (first :: rest)).getD (decimalNumber (first :: rest))) := by
  rw [number?, if_pos isDigit]

private theorem outdoes_marked {radix : Nat} {small capital : Char}
    (isMark : (kind, radix, small) ∈ Numeral.radixMarks ∧
      (kind, radix, capital) ∈ Numeral.radixMarks)
    (isMatch : (marked small capital radix).Matches text) (isPrefix : text <+: first :: rest) :
    Outdoes (scan first rest) kind text := by
  have kinds : ∀ entry ∈ Numeral.radixMarks, entry.1 ≠ .stray ∧ entry.1.withoutText = entry.1 := by
    decide
  obtain ⟨mark, body, rfl, isLetter, some, all⟩ := matches_marked.mp isMatch
  obtain ⟨rfl, after, rfl⟩ := List.cons_prefix_cons.mp isPrefix
  have listed : (kind, radix, mark) ∈ Numeral.radixMarks := by
    rcases isLetter with rfl | rfl
    · exact isMark.1
    · exact isMark.2
  rw [List.cons_append, scan_number (number?_digit rfl _), markedInteger?_mark listed,
    List.takeWhile_append_of_pos all]
  rw [if_neg (by simp [some]), Option.getD_some]
  exact ⟨(kinds _ listed).1, by simp, fun _ => (kinds _ listed).2⟩

theorem digits_of_whole (isWhole : whole.Matches text) :
    (∃ first more, text = first :: more ∧ first.isDigit = true) ∧
      ∀ digit ∈ text, isDigitOrSeparator 10 digit = true := by
  obtain ⟨first, more, rfl, isDigit, others⟩ := matches_seq_one.mp isWhole
  exact ⟨⟨first, more, rfl, isDigit⟩, List.forall_mem_cons.mpr
    ⟨isDigitOrSeparator_of_isDigit isDigit, matches_star_one.mp others⟩⟩

section Decimal

variable {digits tail : List Char} (isWhole : whole.Matches digits)
include isWhole

/-- For a text that goes on as decimal numbers do, radix marks do not matter. -/
theorem outdoes_of_decimalNumber (continues : ∀ next ∈ tail.head?, continuesDecimal next = true)
    (isPrefix : digits ++ tail <+: first :: rest)
    (outdoes : Outdoes (decimalNumber (first :: rest)) kind (digits ++ tail)) :
    Outdoes (scan first rest) kind (digits ++ tail) := by
  obtain ⟨⟨digit, more, rfl, isDigit⟩, all⟩ := digits_of_whole isWhole
  obtain ⟨rfl, (follows : more ++ tail <+: rest)⟩ := List.cons_prefix_cons.mp isPrefix
  rw [scan_number (number?_digit isDigit rest)]
  cases marked : markedInteger? (digit :: rest) with
  | none => exact outdoes
  | some lexeme =>
      obtain ⟨mark, isHead, isMark, long, found⟩ := marked_of_markedInteger? marked
      have atEnd : more ++ tail = [] := by
        cases shape : more ++ tail with
        | nil => rfl
        | cons next others =>
            have nextContinues : continuesDecimal next = true := by
              cases more with
              | nil => exact continues next (by rw [← List.nil_append tail, shape]; rfl)
              | cons other more =>
                  obtain ⟨rfl, _⟩ := List.cons.inj shape
                  simp [continuesDecimal, all other (by simp)]
            obtain ⟨_, rfl⟩ := List.head?_eq_some_iff.mp isHead
            rw [shape] at follows
            obtain ⟨rfl, _⟩ := List.cons_prefix_cons.mp follows
            rw [nextContinues] at isMark
            cases isMark
      rw [List.cons_append, atEnd]
      exact .of_lt found long

private theorem outdoes_decimal (isPrefix : digits <+: first :: rest) :
    Outdoes (scan first rest) .decimalInteger digits := by
  rw [← List.append_nil digits] at isPrefix ⊢
  refine outdoes_of_decimalNumber isWhole (by simp) isPrefix ?_
  rw [List.append_nil] at isPrefix ⊢
  have longer : digits.length ≤ ((first :: rest).takeWhile (isDigitOrSeparator 10)).length := by
    obtain ⟨after, shape⟩ := isPrefix
    rw [← shape, List.takeWhile_append_of_pos (digits_of_whole isWhole).2]
    simp
  simp only [decimalNumber]
  generalize (first :: rest).takeWhile (isDigitOrSeparator 10) = taken at *
  split
  · refine .of_lt (by simp) ?_
    simp only [List.length_append, List.length_cons]
    omega
  · split
    · exact ⟨by simp, longer, fun _ => rfl⟩
    next some =>
      have := List.length_pos_iff.mpr (by simpa using some)
      refine .of_lt (by simp) ?_
      simp only [List.length_append]
      omega

end Decimal

private theorem outdoes_pointed (isMatch : pointed.Matches text)
    (isPrefix : text <+: first :: rest) :
    Outdoes (scan first rest) .float text := by
  obtain ⟨digits, _, rfl, isWhole, more⟩ := isMatch
  obtain ⟨_, rfl, fraction, exponent, rfl, isFraction, isExponent⟩ := matches_seq_only.mp more
  refine outdoes_of_decimalNumber isWhole ?_ isPrefix ?_
  · intro next isHead
    obtain rfl := Option.some.inj isHead
    rfl
  · obtain ⟨after, shape⟩ := isPrefix
    have longer := length_fraction_le (matches_star_one.mp isFraction) isExponent after
    rw [← shape, List.append_assoc, List.cons_append, decimalNumber,
      Text.takeWhile_run (digits_of_whole isWhole).2 (by simp; rfl), List.drop_left]
    refine ⟨by simp, ?_, fun _ => rfl⟩
    simp only [pointedNumber, List.tail_cons, List.length_append, List.length_cons] at *
    omega

private theorem outdoes_scaled (isMatch : scaled.Matches text) (isPrefix : text <+: first :: rest) :
    Outdoes (scan first rest) .float text := by
  obtain ⟨digits, exponent, rfl, isWhole, isExponent⟩ := isMatch
  refine outdoes_of_decimalNumber isWhole ?_ isPrefix ?_
  · intro next isHead
    obtain ⟨_, _, isMark⟩ := head?_exponent isExponent [] next (by simpa using isHead)
    rcases isMark with rfl | rfl <;> rfl
  · obtain ⟨after, shape⟩ := isPrefix
    have stops := head?_exponent isExponent after
    have longer := (exponent_isPrefix isExponent after).length_le
    have some : exponent ≠ [] := by
      obtain ⟨_, _, _, rfl, _⟩ := matches_exponent.mp isExponent
      simp
    rw [← shape, List.append_assoc, decimalNumber, Text.takeWhile_run (digits_of_whole isWhole).2
      fun next isHead => (stops next isHead).1, List.drop_left]
    split
    next point => exact absurd rfl (stops '.' (by rw [point]; rfl)).2.1
    next =>
      have := List.length_pos_iff.mpr some
      rw [if_neg (by rw [List.isEmpty_iff_length_eq_zero]; omega)]
      refine ⟨by simp, ?_, fun _ => rfl⟩
      simp only [List.length_append]
      omega

private theorem outdoes_fraction (isMatch : Pattern.fraction.Matches text)
    (isPrefix : text <+: first :: rest) : Outdoes (scan first rest) .float text := by
  obtain ⟨_, rfl, fraction, exponent, rfl, isFraction, isExponent⟩ := matches_seq_only.mp isMatch
  obtain ⟨rfl, after, rfl⟩ := List.cons_prefix_cons.mp isPrefix
  obtain ⟨⟨digit, more, shape, isDigit⟩, all⟩ := digits_of_whole isFraction
  have longer := length_fraction_le all isExponent after
  have found : number? ('.' :: (fraction ++ exponent ++ after)) =
      some (pointedNumber (fraction ++ exponent ++ after)) := by
    simp [number?, shape, isDigit]
  rw [scan_number found]
  refine ⟨by simp [pointedNumber], ?_, fun _ => rfl⟩
  simp only [pointedNumber, List.tail_cons, List.length_cons] at *
  omega

/-! ### Symbols -/

def symbolStarts : List Char :=
  symbolTable.filterMap (·.1.toList.head?)

section Symbols

variable {entry : String × TokenKind} (listed : entry ∈ symbolTable)
include listed

/-- The table has longer symbols first and each symbol once, so the first that fits is longest. -/
private theorem outdoes_symbol? {input : List Char} (isPrefix : entry.1.toList <+: input) :
    ∃ lexeme, symbol? input = some lexeme ∧
      Outdoes lexeme (LexemeKind.symbol entry.2).withoutText entry.1.toList := by
  have sorted : symbolTable.Pairwise fun entry other =>
      other.1.toList.length ≤ entry.1.toList.length ∧ entry.1.toList ≠ other.1.toList := by decide
  have fits : entry.1.toList.isPrefixOf input = true := List.isPrefixOf_iff_prefix.mpr isPrefix
  obtain ⟨chosen, found⟩ : ∃ chosen,
      symbolTable.find? (fun listed => listed.1.toList.isPrefixOf input) = some chosen := by
    rw [← Option.isSome_iff_exists, List.find?_isSome]
    exact ⟨entry, listed, fits⟩
  have isSymbol : symbol? input = some ⟨.symbol chosen.2, chosen.1.toList⟩ :=
    congrArg (Option.map fun listed : String × TokenKind =>
      (⟨.symbol listed.2, listed.1.toList⟩ : Lexeme)) found
  refine ⟨_, isSymbol, ?_⟩
  obtain ⟨chosenFits, before, after, shape, earlier⟩ := List.find?_eq_some_iff_append.mp found
  rw [shape] at listed sorted
  rcases List.mem_append.mp listed with isEarlier | isLater
  · simpa [fits] using earlier _ isEarlier
  rcases List.mem_cons.mp isLater with rfl | isLater
  · exact ⟨by simp, Nat.le_refl _, fun _ => rfl⟩
  · obtain ⟨shorter, different⟩ :=
      (List.pairwise_cons.mp (List.pairwise_append.mp sorted).2.1).1 _ isLater
    refine .of_lt (by simp) (Nat.lt_of_le_of_ne shorter fun same => different ?_)
    have nested := List.prefix_of_prefix_length_le (List.isPrefixOf_iff_prefix.mp chosenFits)
      isPrefix (Nat.le_of_eq same.symm)
    exact nested.eq_of_length same.symm

private theorem outdoes_symbol (isPrefix : entry.1.toList <+: first :: rest) :
    Outdoes (scan first rest) (LexemeKind.symbol entry.2).withoutText entry.1.toList := by
  have table : symbolTable.all (fun entry =>
      !entry.1.toList.isEmpty && !entry.1.toList.any Char.isDigit) = true := by decide
  have noName : symbolStarts.any Text.isIdentifierStart = false := by decide
  obtain ⟨lexeme, found, outdoes⟩ := outdoes_symbol? listed isPrefix
  have plain := List.all_eq_true.mp table _ listed
  obtain ⟨start, more, shape⟩ := List.exists_cons_of_ne_nil
    (show entry.1.toList ≠ [] by simpa using (Bool.and_eq_true_iff.mp plain).1)
  rw [shape] at outdoes isPrefix plain ⊢
  have digits : ∀ character ∈ start :: more, character.isDigit = false := by simpa using plain
  obtain ⟨rfl, follows⟩ := List.cons_prefix_cons.mp isPrefix
  have isStart : start ∈ symbolStarts := List.mem_filterMap.mpr ⟨_, listed, by simp [shape]⟩
  have starts := List.contains_iff_mem.mpr isStart
  obtain ⟨notBlank, notSpecial⟩ := not_special_of_class starts (by decide)
  rw [scan_of_literal?_eq_none notBlank notSpecial
    (literal?_eq_none_of_class starts (by decide) rest),
    if_neg (List.any_eq_false.mp noName start isStart), found, Option.getD_some]
  cases isNumber : number? (start :: rest) with
  | none => exact outdoes
  | some number =>
      -- Only a point begins numbers, and no symbol goes on with the digit behind it.
      simp only [number?, digits start (by simp), Bool.false_eq_true, if_false] at isNumber
      split at isNumber
      next isPoint =>
        obtain rfl := Option.some.inj isNumber
        have isDigit := (Bool.and_eq_true_iff.mp isPoint).2
        cases rest with
        | nil => cases isDigit
        | cons digit others =>
            have single : more = [] := by
              cases more with
              | nil => rfl
              | cons next more =>
                  obtain ⟨rfl, _⟩ := List.cons_prefix_cons.mp follows
                  exact absurd isDigit (by simp [digits next])
            refine .of_lt (by simp [pointedNumber]) ?_
            simp [single, pointedNumber, isDigitOrSeparator_of_isDigit isDigit]
      next => cases isNumber

end Symbols

/-! ### Words -/

/-- The letters, the quote and what follows them, where a literal is found. -/
private theorem exists_of_literal? {input : List Char} (found : literal? input = some lexeme) :
    ∃ letters quote rest, input = letters ++ quote :: rest ∧ isQuote quote = true ∧
      letters.map Char.toLower ∈ plainMarks ++ formattedMarks ∧
      quoted? letters quote rest = some lexeme := by
  have isFront : (input.take 2).takeWhile (!isQuote ·) <+: input :=
    (List.takeWhile_prefix _).trans (List.take_prefix 2 input)
  unfold literal? at found
  generalize (input.take 2).takeWhile (!isQuote ·) = letters at found isFront
  obtain ⟨others, rfl⟩ := isFront
  simp only [List.drop_left] at found
  cases others with
  | nil => cases found
  | cons quote rest =>
      dsimp only at found
      split at found
      next isQuote =>
        refine ⟨letters, quote, rest, rfl, isQuote, ?_, found⟩
        by_contra unmarked
        simp only [List.mem_append, not_or] at unmarked
        simp [quoted?, unmarked] at found
      next => cases found

theorem eq_of_isQuote (isQuote : isQuote quote = true) : quote = '"' ∨ quote = '\'' := by
  simpa [Lexeme.isQuote] using isQuote

/-- A literal is matched by a pattern and longer than its letters, or it is a formatted string that
is not closed. -/
theorem fits_of_literal? {input : List Char} (found : literal? input = some lexeme) :
    lexeme.kind ≠ .stray ∧ Fits lexeme.kind lexeme.text ∧
        (∃ letters quote rest, input = letters ++ quote :: rest ∧ isQuote quote = true ∧
          letters.length < lexeme.text.length) ∨
      lexeme.kind = .stray ∧ UnclosedFormatted input := by
  obtain ⟨letters, quote, rest, rfl, isQuote, marks, found⟩ := exists_of_literal? found
  have inside := contents_literalBody quote rest
  have behind {text : List Char} : letters.length < (letters ++ quote :: text).length := by simp
  rcases List.mem_append.mp marks with plain | formatted
  · have isLetters := matches_plainLetters.mpr plain
    rw [quoted?_plain plain, Option.some.injEq] at found
    subst found
    split
    · refine .inl ⟨by simp, ⟨closed plainLetters quote, ?_, matches_closed.mpr
        ⟨letters, _, rfl, isLetters, inside⟩⟩, letters, quote, rest, rfl, isQuote, behind⟩
      rcases eq_of_isQuote isQuote with rfl | rfl <;> simp [patternTable]
    · refine .inl ⟨by simp, ⟨opened plainLetters quote, ?_, matches_opened.mpr
        ⟨letters, _, rfl, isLetters, inside⟩⟩, letters, quote, rest, rfl, isQuote, behind⟩
      rcases eq_of_isQuote isQuote with rfl | rfl <;> simp [patternTable]
  · have isLetters := matches_formattedLetters.mpr formatted
    rw [quoted?_formatted formatted, Option.some.injEq] at found
    subst found
    split
    · refine .inl ⟨by simp, ⟨closed formattedLetters quote, ?_, matches_closed.mpr
        ⟨letters, _, rfl, isLetters, inside⟩⟩, letters, quote, rest, rfl, isQuote, behind⟩
      rcases eq_of_isQuote isQuote with rfl | rfl <;> simp [patternTable]
    next unclosed =>
      rw [closed_iff isQuote] at unclosed
      exact .inr ⟨rfl, letters, quote, rest, rfl, isLetters, isQuote,
        fun body isBody closed => unclosed ⟨body, isBody, closed⟩⟩

/-- A name ends before the first quote. -/
theorem length_le_of_isQuote {front : List Char} (isQuote : isQuote quote = true)
    (isMatch : identifier.Matches text) (isPrefix : text <+: front ++ quote :: rest) :
    text.length ≤ front.length := by
  obtain ⟨start, more, rfl, starts, continues⟩ := matches_seq_one.mp isMatch
  have all : ∀ character ∈ start :: more, Text.isIdentifierContinue character = true :=
    List.forall_mem_cons.mpr
      ⟨Text.isIdentifierContinue_of_isIdentifierStart starts, matches_star_one.mp continues⟩
  by_contra longer
  have beyond : front ++ [quote] <+: start :: more := by
    refine List.prefix_of_prefix_length_le ?_ isPrefix ?_
    · exact (List.prefix_append_right_inj front).mpr (by simp)
    · simp only [List.length_append, List.length_singleton]
      omega
  have inside := all quote (beyond.subset (by simp))
  rcases eq_of_isQuote isQuote with rfl | rfl <;> exact absurd inside (by decide)

private theorem outdoes_word (isMatch : identifier.Matches text)
    (isPrefix : text <+: first :: rest) :
    Outdoes (scan first rest) .word text ∨ UnclosedFormatted (first :: rest) := by
  have short {front rest quote} := @length_le_of_isQuote quote rest text front
  obtain ⟨start, more, rfl, starts, continues⟩ := matches_seq_one.mp isMatch
  obtain ⟨rfl, after, shape⟩ := List.cons_prefix_cons.mp isPrefix
  obtain ⟨notBlank, notSpecial⟩ := not_special_of_class starts (by decide)
  cases found : literal? (start :: rest) with
  | none =>
      have noPoint : start ≠ '.' := by
        rintro rfl
        cases starts
      have noNumber : number? (start :: rest) = none := by
        simp [number?, Text.isDigit_eq_false_of_isIdentifierStart starts, noPoint]
      rw [scan_of_literal?_eq_none notBlank notSpecial found, noNumber, Option.getD_none,
        if_pos starts, ← shape, List.takeWhile_append_of_pos (matches_star_one.mp continues)]
      exact .inl ⟨by simp, by simp, fun _ => rfl⟩
  | some lexeme =>
      rw [scan_of_literal? notBlank notSpecial found]
      rcases fits_of_literal? found with ⟨isLexeme, _, front, quote, rest, input, isQuote, longer⟩ |
        ⟨_, unclosed⟩
      · exact .inl (.of_lt isLexeme
          (Nat.lt_of_le_of_lt (short isQuote isMatch (input ▸ isPrefix)) longer))
      · exact .inr unclosed

/-- Whatever a pattern matches, scanning finds no less, except before an unclosed formatted
string. -/
theorem Fits.outdone (fits : Fits kind text) (isPrefix : text <+: first :: rest) :
    Outdoes (scan first rest) kind text ∨
      kind = .word ∧ identifier.Matches text ∧ UnclosedFormatted (first :: rest) := by
  obtain ⟨pattern, listed, isMatch⟩ := fits
  rcases List.mem_append.mp listed with isClass | isSymbol
  · simp only [List.mem_cons, Prod.mk.injEq, List.not_mem_nil, or_false] at isClass
    obtain ⟨rfl, rfl⟩ | ⟨rfl, rfl⟩ | ⟨rfl, rfl⟩ | ⟨rfl, rfl⟩ | ⟨rfl, rfl⟩ | ⟨rfl, rfl⟩ |
      ⟨rfl, rfl⟩ | ⟨rfl, rfl⟩ | ⟨rfl, rfl⟩ | ⟨rfl, rfl⟩ | ⟨rfl, rfl⟩ | ⟨rfl, rfl⟩ | ⟨rfl, rfl⟩ |
      ⟨rfl, rfl⟩ | ⟨rfl, rfl⟩ | ⟨rfl, rfl⟩ | ⟨rfl, rfl⟩ | ⟨rfl, rfl⟩ := isClass
    · exact .inl (outdoes_comment isMatch isPrefix)
    · exact .inl (outdoes_lineBreak isMatch isPrefix)
    · exact .inl (outdoes_continuation isMatch isPrefix)
    · obtain ⟨entry, inTable, rfl, sameKind⟩ := symbol_of_matches_augmented isMatch
      exact .inl (sameKind ▸ outdoes_symbol inTable isPrefix)
    · exact .inl (outdoes_marked (by decide) isMatch isPrefix)
    · exact .inl (outdoes_marked (by decide) isMatch isPrefix)
    · exact .inl (outdoes_marked (by decide) isMatch isPrefix)
    · exact .inl (outdoes_decimal isMatch isPrefix)
    · exact .inl (outdoes_pointed isMatch isPrefix)
    · exact .inl (outdoes_fraction isMatch isPrefix)
    · exact .inl (outdoes_scaled isMatch isPrefix)
    · exact .inl (outdoes_string rfl isMatch isPrefix)
    · exact .inl (outdoes_string rfl isMatch isPrefix)
    · exact .inl (outdoes_unterminated rfl isMatch isPrefix)
    · exact .inl (outdoes_unterminated rfl isMatch isPrefix)
    · exact .inl (outdoes_formatted rfl isMatch isPrefix)
    · exact .inl (outdoes_formatted rfl isMatch isPrefix)
    · exact (outdoes_word isMatch isPrefix).imp_right fun unclosed => ⟨rfl, isMatch, unclosed⟩
  · obtain ⟨⟨token, texts⟩, isToken, shape⟩ := List.mem_map.mp isSymbol
    obtain ⟨rfl, rfl⟩ := Prod.mk.inj shape
    obtain ⟨entry, inTable, rfl, sameKind⟩ := symbol_of_matches isToken isMatch
    exact .inl (sameKind ▸ outdoes_symbol inTable isPrefix)

end Lexeme
end Transpiler
