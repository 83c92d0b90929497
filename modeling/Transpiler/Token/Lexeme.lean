import Transpiler.Text.Identifier
import Transpiler.Token.Basic

/-!
Contract: cutting source text into lexemes.

Every text is the concatenation of its lexemes: runs of blanks, comments, line
breaks, line continuations, numbers, string literals, words and symbols. At each
place the longest lexeme that can begin there is taken. Text that begins no lexeme
is a lexeme of its own, of kind `stray`.
-/

namespace Transpiler

inductive LexemeKind where
  /-- Spaces, tabs, carriage returns and form feeds. -/
  | blank
  /-- A number sign and the rest of its line. -/
  | comment
  /-- A line feed. -/
  | lineBreak
  /-- A backslash at the end of a line, with its line break. -/
  | continuation
  /-- An operator or delimiter. -/
  | symbol (token : TokenKind)
  | decimalInteger
  | hexInteger
  | octalInteger
  | binaryInteger
  | float
  /-- A string or bytes literal. -/
  | string
  /-- A string or bytes literal without its closing quote. -/
  | unterminatedString
  | formattedString
  /-- An identifier or reserved word. -/
  | word
  /-- Text that begins no lexeme. -/
  | stray
deriving DecidableEq, Repr

structure Lexeme where
  kind : LexemeKind
  text : List Char
deriving DecidableEq, Repr

namespace Lexeme

/-- A blank within a line. -/
def isInlineBlank (character : Char) : Bool :=
  character == ' ' || character == '\t' || character == '\r' || character == '\x0c'

def isSpaceOrTab (character : Char) : Bool :=
  character == ' ' || character == '\t'

/-! ### Symbols -/

/-- Operators and delimiters, longer ones first, so that the first that fits is the
longest that fits. -/
def symbolTable : List (String × TokenKind) :=
  [("**=", .augmented "**"), ("//=", .augmented "//"), ("<<=", .augmented "<<"),
    (">>=", .augmented ">>"), ("...", .ellipsis),
    ("+=", .augmented "+"), ("-=", .augmented "-"), ("*=", .augmented "*"),
    ("/=", .augmented "/"), ("%=", .augmented "%"), ("@=", .augmented "@"),
    ("&=", .augmented "&"), ("|=", .augmented "|"), ("^=", .augmented "^"),
    ("**", .doubleStar), ("//", .doubleSlash), ("<<", .shiftLeft), (">>", .shiftRight),
    ("==", .comparison "=="), ("!=", .comparison "!="), ("<=", .comparison "<="),
    (">=", .comparison ">="), ("->", .unsupported "->"), (":=", .unsupported ":="),
    ("+", .plus), ("-", .minus), ("*", .star), ("/", .slash), ("%", .percent), ("@", .atSign),
    ("&", .ampersand), ("|", .bar), ("^", .caret), ("~", .tilde),
    ("<", .comparison "<"), (">", .comparison ">"), ("=", .equals),
    ("(", .leftParen), (")", .rightParen), ("[", .leftBracket), ("]", .rightBracket),
    ("\x7b", .leftBrace), ("\x7d", .rightBrace), (",", .comma), (":", .colon), (".", .dot),
    (";", .semicolon)]

/-- The longest operator or delimiter at the start of the input. -/
def symbol? (input : List Char) : Option Lexeme :=
  (symbolTable.find? fun (text, _) => text.toList.isPrefixOf input).map fun (text, token) =>
    ⟨.symbol token, text.toList⟩

/-! ### Numbers -/

/-- A digit of the radix or a digit separator. -/
def isDigitOrSeparator (radix : Nat) (character : Char) : Bool :=
  Text.isRadixDigit radix character || character == '_'

/-- An exponent at the start of the input: its mark, an optional sign and at least one
digit or separator. Without all of these it is empty. -/
def exponentPart (input : List Char) : List Char :=
  match input with
  | mark :: rest =>
      if mark == 'e' || mark == 'E' then
        let sign := rest.take 1 |>.filter fun character => character == '+' || character == '-'
        let digits := (rest.drop sign.length).takeWhile (isDigitOrSeparator 10)
        if digits.isEmpty then [] else mark :: (sign ++ digits)
      else []
  | [] => []

/-- An integer in a radix other than ten, when at least one digit or separator follows
its mark. -/
def markedInteger? (input : List Char) : Option Lexeme :=
  match input with
  | '0' :: mark :: rest =>
      let ofRadix (kind : LexemeKind) (radix : Nat) : Option Lexeme :=
        let digits := rest.takeWhile (isDigitOrSeparator radix)
        if digits.isEmpty then none else some ⟨kind, '0' :: mark :: digits⟩
      if mark == 'x' || mark == 'X' then ofRadix .hexInteger 16
      else if mark == 'o' || mark == 'O' then ofRadix .octalInteger 8
      else if mark == 'b' || mark == 'B' then ofRadix .binaryInteger 2
      else none
  | _ => none

/-- A decimal number that starts with a digit: an integer, or a number with a point or
an exponent. -/
def decimalNumber (input : List Char) : Lexeme :=
  let whole := input.takeWhile (isDigitOrSeparator 10)
  match input.drop whole.length with
  | '.' :: rest =>
      let fraction := rest.takeWhile (isDigitOrSeparator 10)
      ⟨.float, whole ++ '.' :: (fraction ++ exponentPart (rest.drop fraction.length))⟩
  | rest =>
      let exponent := exponentPart rest
      if exponent.isEmpty then ⟨.decimalInteger, whole⟩ else ⟨.float, whole ++ exponent⟩

/-- A decimal number that starts with its point, given what follows the point. -/
def pointedNumber (rest : List Char) : Lexeme :=
  let fraction := rest.takeWhile (isDigitOrSeparator 10)
  ⟨.float, '.' :: (fraction ++ exponentPart (rest.drop fraction.length))⟩

/-- A number at the start of the input. -/
def number? (input : List Char) : Option Lexeme :=
  match input with
  | first :: rest =>
      if first.isDigit then some ((markedInteger? input).getD (decimalNumber input))
      else if first == '.' && (rest.head?.map Char.isDigit).getD false then
        some (pointedNumber rest)
      else none
  | [] => none

/-! ### String literals -/

def isQuote (character : Char) : Bool :=
  character == '"' || character == '\''

/-- The letters that may stand before the opening quote of a string or bytes literal. -/
def plainMarks : List (List Char) := [[], ['r'], ['b'], ['r', 'b'], ['b', 'r']]

/-- The letters that may stand before the opening quote of a formatted string. -/
def formattedMarks : List (List Char) := [['f'], ['f', 'r'], ['r', 'f']]

/-- The contents of a literal after its opening quote: everything up to the closing
quote or the end of the line, where a backslash takes the next character with it.
A backslash at the end of the line is not part of the contents. -/
def literalBody (quote : Char) : List Char → List Char
  | '\\' :: escaped :: rest =>
      if escaped == '\n' then [] else '\\' :: escaped :: literalBody quote rest
  | character :: rest =>
      if character == quote || character == '\n' || character == '\\' then []
      else character :: literalBody quote rest
  | [] => []

/-- A literal whose letters, in lower case, and opening quote have been seen. A formatted
string must be closed. -/
def quoted? (letters : List Char) (quote : Char) (rest : List Char) : Option Lexeme :=
  let body := literalBody quote rest
  let opened := letters ++ quote :: body
  let closed := (rest.drop body.length).head? == some quote
  let lowered := letters.map Char.toLower
  if plainMarks.contains lowered then
    some (if closed then ⟨.string, opened ++ [quote]⟩ else ⟨.unterminatedString, opened⟩)
  else if formattedMarks.contains lowered then
    some (if closed then ⟨.formattedString, opened ++ [quote]⟩ else ⟨.stray, opened⟩)
  else none

/-- A string literal at the start of the input, with up to two letters before its
opening quote. -/
def literal? (input : List Char) : Option Lexeme :=
  let letters := (input.take 2).takeWhile (!isQuote ·)
  match input.drop letters.length with
  | quote :: rest => if isQuote quote then quoted? letters quote rest else none
  | [] => none

/-! ### All lexemes -/

/-- A backslash: a line continuation if only spaces, tabs and one carriage return stand
between it and the line break. -/
def backslash (rest : List Char) : Lexeme :=
  let margin := rest.takeWhile isSpaceOrTab
  match rest.drop margin.length with
  | '\n' :: _ => ⟨.continuation, '\\' :: (margin ++ ['\n'])⟩
  | '\r' :: '\n' :: _ => ⟨.continuation, '\\' :: (margin ++ ['\r', '\n'])⟩
  | _ => ⟨.stray, '\\' :: margin⟩

/-- The longest lexeme at the start of an input that begins with `first`. -/
def scan (first : Char) (rest : List Char) : Lexeme :=
  let input := first :: rest
  if isInlineBlank first then ⟨.blank, input.takeWhile isInlineBlank⟩
  else if first == '\n' then ⟨.lineBreak, ['\n']⟩
  else if first == '#' then ⟨.comment, input.takeWhile (· != '\n')⟩
  else if first == '\\' then backslash rest
  else
    match (literal? input).or (number? input) with
    | some lexeme => lexeme
    | none =>
        if Text.isIdentifierStart first then
          ⟨.word, first :: rest.takeWhile Text.isIdentifierContinue⟩
        else (symbol? input).getD ⟨.stray, [first]⟩

/-- The lexemes of a text, after `covered` characters that belong to the lexeme before. -/
def splitFrom (covered : Nat) : List Char → List Lexeme
  | [] => []
  | first :: rest =>
      match covered with
      | left + 1 => splitFrom left rest
      | 0 =>
          let lexeme := scan first rest
          lexeme :: splitFrom (lexeme.text.length - 1) rest

/-- The lexemes of a text. -/
def split (text : List Char) : List Lexeme :=
  splitFrom 0 text

end Lexeme
end Transpiler
