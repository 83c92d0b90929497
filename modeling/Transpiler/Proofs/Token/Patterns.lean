import Transpiler.Proofs.Token.IntegerLiteral

/-!
Contract: the table of patterns that lexemes are defined by.

Owns: regular expressions over characters and the texts they match, the pattern of every kind of
lexeme, and what the texts of the compound patterns are made of.

Does not own: which lexeme is taken where several patterns match.
-/

namespace Transpiler

/-- A regular expression over characters. -/
inductive Pattern where
  | anyOf (texts : List String)
  | one (allowed : Char → Bool)
  | seq (first second : Pattern)
  | alt (first second : Pattern)
  | star (repeated : Pattern)

/-- A kind without the text that some symbols carry. -/
def LexemeKind.withoutText : LexemeKind → LexemeKind
  | .symbol (.augmented _) => .symbol (.augmented "")
  | .symbol (.comparison _) => .symbol (.comparison "")
  | .symbol (.unsupported _) => .symbol (.unsupported "")
  | kind => kind

namespace Pattern

open Lexeme

/-- The text as a whole is one that the pattern describes. -/
def Matches : Pattern → List Char → Prop
  | anyOf texts, input => ∃ characters ∈ texts, input = characters.toList
  | one allowed, input => ∃ character, allowed character = true ∧ input = [character]
  | seq first second, input =>
      ∃ front back, input = front ++ back ∧ first.Matches front ∧ second.Matches back
  | alt first second, input => first.Matches input ∨ second.Matches input
  | star repeated, input =>
      ∃ parts : List (List Char), input = parts.flatten ∧ ∀ part ∈ parts, repeated.Matches part

/-! ### The table -/

def optional (pattern : Pattern) : Pattern := alt pattern (anyOf [""])

def plus (pattern : Pattern) : Pattern := seq pattern (star pattern)

def only (character : Char) : Pattern := one (· == character)

/-- All characters but the listed ones. -/
def except (listed : List Char) : Pattern := one fun character => !listed.contains character

/-- A letter in either case. -/
def letter (small capital : Char) : Pattern :=
  one fun character => character == small || character == capital

def comment : Pattern := seq (only '#') (star (except ['\n']))

def continuation : Pattern :=
  seq (only '\\') (seq (star (one isSpaceOrTab)) (seq (optional (only '\r')) (only '\n')))

/-- The operators that an equals sign turns into an assignment. -/
def augmentable : List String :=
  ["+", "-", "**", "*", "//", "/", "%", "@", "<<", ">>", "&", "|", "^"]

def augmented : Pattern := seq (anyOf augmentable) (only '=')

/-- A digit of the radix or a separator. -/
def digit (radix : Nat) : Pattern := one (isDigitOrSeparator radix)

/-- Digits behind the mark of their radix. -/
def marked (small capital : Char) (radix : Nat) : Pattern :=
  seq (only '0') (seq (letter small capital) (plus (digit radix)))

def whole : Pattern := seq (one Char.isDigit) (star (digit 10))

def exponent : Pattern :=
  seq (letter 'e' 'E')
    (seq (optional (one fun sign => sign == '+' || sign == '-')) (plus (digit 10)))

def pointed : Pattern := seq whole (seq (only '.') (seq (star (digit 10)) (optional exponent)))

def fraction : Pattern := seq (only '.') (seq whole (optional exponent))

def scaled : Pattern := seq whole exponent

/-- What may stand before the opening quote of a string or bytes literal. -/
def plainLetters : Pattern :=
  let r := letter 'r' 'R'
  let b := letter 'b' 'B'
  optional (alt r (alt b (alt (seq r b) (seq b r))))

/-- What stands before the opening quote of a formatted string. -/
def formattedLetters : Pattern :=
  let r := letter 'r' 'R'
  let f := letter 'f' 'F'
  alt f (alt (seq f r) (seq r f))

/-- A character between quotes, or a backslash with the character it takes along. -/
def content (quote : Char) : Pattern :=
  alt (except [quote, '\\', '\n']) (seq (only '\\') (except ['\n']))

def contents (quote : Char) : Pattern := star (content quote)

def opened (letters : Pattern) (quote : Char) : Pattern :=
  seq letters (seq (only quote) (contents quote))

def closed (letters : Pattern) (quote : Char) : Pattern :=
  seq (opened letters quote) (only quote)

def identifier : Pattern := seq (one Text.isIdentifierStart) (star (one Text.isIdentifierContinue))

end Pattern

namespace Lexeme

open Pattern

/-- Symbols with the ways to write them. -/
def symbolTexts : List (TokenKind × List String) :=
  [(.plus, ["+"]), (.minus, ["-"]), (.star, ["*"]), (.slash, ["/"]), (.doubleStar, ["**"]),
    (.doubleSlash, ["//"]), (.percent, ["%"]), (.atSign, ["@"]), (.shiftLeft, ["<<"]),
    (.shiftRight, [">>"]), (.ampersand, ["&"]), (.bar, ["|"]), (.caret, ["^"]), (.tilde, ["~"]),
    (.leftParen, ["("]), (.rightParen, [")"]), (.leftBracket, ["["]), (.rightBracket, ["]"]),
    (.leftBrace, ["\x7b"]), (.rightBrace, ["\x7d"]), (.comma, [","]), (.colon, [":"]),
    (.equals, ["="]), (.dot, ["."]), (.semicolon, [";"]),
    (.comparison "", ["==", "!=", "<", ">", "<=", ">="]), (.ellipsis, ["..."]),
    (.unsupported "", ["->", ":="])]

/-- The patterns of lexemes with the kinds they stand for. -/
def patternTable : List (LexemeKind × Pattern) :=
  [(.comment, comment), (.lineBreak, only '\n'), (.continuation, continuation),
    (.symbol (.augmented ""), augmented), (.hexInteger, marked 'x' 'X' 16),
    (.octalInteger, marked 'o' 'O' 8), (.binaryInteger, marked 'b' 'B' 2),
    (.decimalInteger, whole), (.float, pointed), (.float, fraction), (.float, scaled),
    (.string, closed plainLetters '"'), (.string, closed plainLetters '\''),
    (.unterminatedString, opened plainLetters '"'),
    (.unterminatedString, opened plainLetters '\''),
    (.formattedString, closed formattedLetters '"'),
    (.formattedString, closed formattedLetters '\''), (.word, identifier)] ++
  symbolTexts.map fun (token, texts) => (.symbol token, anyOf texts)

/-- The text is matched by a pattern of the kind. -/
def Fits (kind : LexemeKind) (text : List Char) : Prop :=
  ∃ pattern, (kind, pattern) ∈ patternTable ∧ pattern.Matches text

end Lexeme

/-! ### Texts of patterns -/

theorem Text.toLower_eq_iff {small capital character : Char}
    (codes : capital.toNat + 32 = small.toNat)
    (isCapital : 65 ≤ capital.toNat ∧ capital.toNat ≤ 90) :
    character.toLower = small ↔ character = small ∨ character = capital := by
  rw [← Char.toNat_inj, ← Char.toNat_inj, ← Char.toNat_inj]
  delta Char.toLower
  split
  next inCapitals =>
    rw [ge_iff_le, UInt32.le_iff_toNat_le, UInt32.le_iff_toNat_le] at inCapitals
    have bounds : 65 ≤ character.toNat ∧ character.toNat ≤ 90 := inCapitals
    have lowered : (character.val + ('a'.val - 'A'.val)).toNat = character.toNat + 32 := by
      rw [UInt32.toNat_add]
      exact Nat.mod_eq_of_lt (show character.toNat + 32 < 2 ^ 32 by omega)
    show (character.val + ('a'.val - 'A'.val)).toNat = small.toNat ↔ _
    omega
  next notInCapitals =>
    rw [ge_iff_le, UInt32.le_iff_toNat_le, UInt32.le_iff_toNat_le] at notInCapitals
    have bounds : ¬ (65 ≤ character.toNat ∧ character.toNat ≤ 90) := notInCapitals
    omega

namespace Pattern

open Lexeme

variable {pattern : Pattern} {text : List Char}

theorem matches_optional : pattern.optional.Matches text ↔ pattern.Matches text ∨ text = [] := by
  simp [optional, Matches]

theorem star_nil : (star pattern).Matches [] := ⟨[], rfl, by simp⟩

theorem star_cons {front : List Char} (once : pattern.Matches front)
    (others : (star pattern).Matches text) : (star pattern).Matches (front ++ text) := by
  obtain ⟨parts, rfl, all⟩ := others
  exact ⟨front :: parts, rfl, by simpa using ⟨once, all⟩⟩

/-- A repeated class of characters. -/
theorem matches_star_one {allowed : Char → Bool} :
    (star (one allowed)).Matches text ↔ ∀ character ∈ text, allowed character = true := by
  constructor
  · rintro ⟨parts, rfl, all⟩ character member
    obtain ⟨part, isPart, inPart⟩ := List.mem_flatten.mp member
    obtain ⟨only, isAllowed, rfl⟩ := all part isPart
    rwa [List.mem_singleton.mp inPart]
  · intro all
    induction text with
    | nil => exact star_nil
    | cons character rest inductionHypothesis =>
        have once : (one allowed).Matches [character] := ⟨character, all character (by simp), rfl⟩
        exact star_cons once (inductionHypothesis fun other member => all other (by simp [member]))

theorem matches_seq_one {allowed : Char → Bool} :
    (seq (one allowed) pattern).Matches text ↔
      ∃ first more, text = first :: more ∧ allowed first = true ∧ pattern.Matches more := by
  constructor
  · rintro ⟨_, more, rfl, ⟨first, isAllowed, rfl⟩, others⟩
    exact ⟨first, more, rfl, isAllowed, others⟩
  · rintro ⟨first, more, rfl, isAllowed, others⟩
    exact ⟨[first], more, rfl, ⟨first, isAllowed, rfl⟩, others⟩

theorem matches_only {character : Char} : (only character).Matches text ↔ text = [character] := by
  simp [only, Matches]

theorem matches_seq_only {character : Char} : (seq (only character) pattern).Matches text ↔
    ∃ more, text = character :: more ∧ pattern.Matches more := by
  rw [only, matches_seq_one]
  simp

private theorem matches_plus_digit {radix : Nat} : (plus (digit radix)).Matches text ↔
    text ≠ [] ∧ ∀ character ∈ text, isDigitOrSeparator radix character = true := by
  rw [plus, digit, matches_seq_one]
  cases text <;> simp [matches_star_one]

theorem matches_marked {small capital : Char} {radix : Nat} :
    (marked small capital radix).Matches text ↔
      ∃ mark body, text = '0' :: mark :: body ∧ (mark = small ∨ mark = capital) ∧ body ≠ [] ∧
        ∀ character ∈ body, isDigitOrSeparator radix character = true := by
  simp only [marked, letter, matches_seq_only, matches_seq_one, matches_plus_digit,
    Bool.or_eq_true, beq_iff_eq]
  constructor
  · rintro ⟨_, rfl, mark, body, rfl, isMark, digits⟩
    exact ⟨mark, body, rfl, isMark, digits⟩
  · rintro ⟨mark, body, rfl, isMark, digits⟩
    exact ⟨_, rfl, mark, body, rfl, isMark, digits⟩

/-- An exponent: its mark, perhaps a sign, and digits or separators. -/
theorem matches_exponent : exponent.Matches text ↔
    ∃ mark sign digits, text = mark :: (sign ++ digits) ∧ (mark = 'e' ∨ mark = 'E') ∧
      (sign = ['+'] ∨ sign = ['-'] ∨ sign = []) ∧ digits ≠ [] ∧
      ∀ digit ∈ digits, isDigitOrSeparator 10 digit = true := by
  have signs (sign : List Char) : (∃ mark, (mark = '+' ∨ mark = '-') ∧ sign = [mark]) ∨ sign = [] ↔
      sign = ['+'] ∨ sign = ['-'] ∨ sign = [] := by
    simp [or_and_right, exists_or, or_assoc]
  simp only [exponent, letter, matches_seq_one, Matches, matches_optional, matches_plus_digit,
    Bool.or_eq_true, beq_iff_eq, signs]
  constructor
  · rintro ⟨mark, _, rfl, isMark, sign, digits, rfl, all⟩
    exact ⟨mark, sign, digits, rfl, isMark, all⟩
  · rintro ⟨mark, sign, digits, rfl, isMark, all⟩
    exact ⟨mark, _, rfl, isMark, sign, digits, rfl, all⟩

private theorem matches_letter {small capital : Char} (codes : capital.toNat + 32 = small.toNat)
    (isCapital : 65 ≤ capital.toNat ∧ capital.toNat ≤ 90) {text : List Char} :
    (letter small capital).Matches text ↔ text.map Char.toLower = [small] := by
  simp only [letter, Matches, List.map_eq_singleton_iff, Text.toLower_eq_iff codes isCapital,
    Bool.or_eq_true, beq_iff_eq, and_comm]

/-- Letters one after the other, in any case. -/
private theorem matches_seq_lowered {first second : Pattern} {front back : List Char}
    (matchesFront : ∀ {text}, first.Matches text ↔ text.map Char.toLower = front)
    (matchesBack : ∀ {text}, second.Matches text ↔ text.map Char.toLower = back) :
    (seq first second).Matches text ↔ text.map Char.toLower = front ++ back := by
  simp only [Matches, matchesFront, matchesBack, List.map_eq_append_iff]

theorem matches_plainLetters :
    plainLetters.Matches text ↔ text.map Char.toLower ∈ plainMarks := by
  have ofR {text} := @matches_letter 'r' 'R' (by decide) (by decide) text
  have ofB {text} := @matches_letter 'b' 'B' (by decide) (by decide) text
  rw [plainLetters, matches_optional, Matches, Matches, Matches, ofR, ofB,
    matches_seq_lowered ofR ofB, matches_seq_lowered ofB ofR]
  simp [plainMarks, or_comm]

theorem matches_formattedLetters :
    formattedLetters.Matches text ↔ text.map Char.toLower ∈ formattedMarks := by
  have ofR {text} := @matches_letter 'r' 'R' (by decide) (by decide) text
  have ofF {text} := @matches_letter 'f' 'F' (by decide) (by decide) text
  rw [formattedLetters, Matches, Matches, ofF, matches_seq_lowered ofF ofR,
    matches_seq_lowered ofR ofF]
  simp [formattedMarks]

theorem matches_opened {quote : Char} : (opened pattern quote).Matches text ↔
    ∃ letters body, text = letters ++ quote :: body ∧ pattern.Matches letters ∧
      (contents quote).Matches body := by
  rw [opened, Matches]
  simp only [matches_seq_only]
  constructor
  · rintro ⟨letters, _, rfl, isLetters, body, rfl, inside⟩
    exact ⟨letters, body, rfl, isLetters, inside⟩
  · rintro ⟨letters, body, rfl, isLetters, inside⟩
    exact ⟨letters, _, rfl, isLetters, body, rfl, inside⟩

theorem matches_closed {quote : Char} : (closed pattern quote).Matches text ↔
    ∃ letters body, text = letters ++ quote :: (body ++ [quote]) ∧ pattern.Matches letters ∧
      (contents quote).Matches body := by
  rw [closed, Matches]
  simp only [matches_opened, matches_only]
  constructor
  · rintro ⟨_, _, rfl, ⟨letters, body, rfl, isLetters, inside⟩, rfl⟩
    exact ⟨letters, body, by simp, isLetters, inside⟩
  · rintro ⟨letters, body, rfl, isLetters, inside⟩
    exact ⟨letters ++ quote :: body, [quote], by simp, ⟨letters, body, rfl, isLetters, inside⟩, rfl⟩

end Pattern

namespace Lexeme

/-- The patterns of symbols against the table that symbols are looked up in. -/
theorem symbol_of_matches {token : TokenKind} {texts : List String} {text : List Char}
    (listed : (token, texts) ∈ symbolTexts) (isMatch : (Pattern.anyOf texts).Matches text) :
    ∃ entry ∈ symbolTable, entry.1.toList = text ∧
      (LexemeKind.symbol entry.2).withoutText = .symbol token := by
  have table : ∀ symbol ∈ symbolTexts, ∀ characters ∈ symbol.2, ∃ entry ∈ symbolTable,
      entry.1 = characters ∧ (LexemeKind.symbol entry.2).withoutText = .symbol symbol.1 := by decide
  obtain ⟨characters, isText, rfl⟩ := isMatch
  obtain ⟨entry, inTable, rfl, sameKind⟩ := table _ listed characters isText
  exact ⟨entry, inTable, rfl, sameKind⟩

theorem symbol_of_matches_augmented {text : List Char} (isMatch : Pattern.augmented.Matches text) :
    ∃ entry ∈ symbolTable, entry.1.toList = text ∧
      (LexemeKind.symbol entry.2).withoutText = .symbol (.augmented "") := by
  have table : ∀ sign ∈ Pattern.augmentable,
      ∃ entry ∈ symbolTable, entry.1.toList = sign.toList ++ ['='] ∧
        (LexemeKind.symbol entry.2).withoutText = .symbol (.augmented "") := by decide
  obtain ⟨_, _, rfl, ⟨sign, isSign, rfl⟩, isEquals⟩ := isMatch
  rw [Pattern.matches_only.mp isEquals]
  exact table sign isSign

theorem fits_symbol : ∀ entry ∈ symbolTable,
    Fits (LexemeKind.symbol entry.2).withoutText entry.1.toList := by
  have table : ∀ entry ∈ symbolTable,
      (∃ symbol ∈ symbolTexts, entry.1 ∈ symbol.2 ∧
        LexemeKind.symbol symbol.1 = (LexemeKind.symbol entry.2).withoutText) ∨
      ∃ sign ∈ Pattern.augmentable,
        entry.1.toList = sign.toList ++ ['='] ∧
          (LexemeKind.symbol entry.2).withoutText = .symbol (.augmented "") := by decide
  intro entry inTable
  rcases table entry inTable with ⟨symbol, listed, isText, sameKind⟩ | ⟨sign, isSign, shape, isKind⟩
  · rw [← sameKind]
    exact ⟨_, List.mem_append_right _ (List.mem_map.mpr ⟨symbol, listed, rfl⟩), _, isText, rfl⟩
  · rw [isKind, shape]
    exact ⟨Pattern.augmented, by simp [patternTable], _, _, rfl, ⟨sign, isSign, rfl⟩,
      Pattern.matches_only.mpr rfl⟩

end Lexeme
end Transpiler
