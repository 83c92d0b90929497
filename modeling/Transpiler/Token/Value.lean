import Transpiler.Token.Error
import Transpiler.Token.Lexeme
import Transpiler.Token.Numeral

/-!
Contract: the token that a lexeme stands for.

Numbers and strings are decoded, and reserved words are told from identifiers.
Blanks, comments, line breaks and continuations stand for no token of their own;
what they mean for lines and blocks is decided by the layout.
-/

namespace Transpiler

/-- The reserved words that have no token kind of their own. -/
def reservedWords : List String :=
  ["and", "as", "assert", "async", "await", "break", "class", "continue", "def", "del", "elif",
    "else", "except", "finally", "for", "from", "global", "if", "import", "in", "is", "lambda",
    "nonlocal", "or", "raise", "return", "try", "while", "with", "yield"]

/-- The token of a word. -/
def TokenKind.ofWord (word : String) : TokenKind :=
  match word with
  | "True" => .trueWord
  | "False" => .falseWord
  | "None" => .noneWord
  | "pass" => .passWord
  | "not" => .notWord
  | _ => if reservedWords.contains word then .keyword word else .ident word

/-- The token of an integer in a radix, without its mark: its value if that fits 64 bits
with sign, else its decimal digits. -/
def TokenKind.ofInteger? (radix : Nat) (marked : Bool) (body : List Char) : Option TokenKind :=
  match Numeral.smallInteger? radix marked body with
  | some value => some (.int value)
  | none => (Numeral.decimalDigits? radix marked body).map .bigInt

/-- The token of a decimal integer. -/
def TokenKind.ofDecimal? (text : List Char) : Option TokenKind :=
  if Numeral.hasLeadingZero text then none else ofInteger? 10 false text

/-- The token of an integer with a radix mark. -/
def TokenKind.ofMarked? (radix : Nat) (text : List Char) : Option TokenKind :=
  ofInteger? radix true (text.drop 2)

namespace Lexeme

/-- The letters before the opening quote of a literal, and its contents. -/
def literalParts (text : List Char) : List Char × List Char :=
  let letters := text.takeWhile (!isQuote ·)
  (letters, (text.drop (letters.length + 1)).dropLast)

/-- The token of a string or bytes literal. -/
def literalToken (text : List Char) : Except LexErrorKind TokenKind :=
  let (letters, body) := literalParts text
  let lowered := letters.map Char.toLower
  let isRaw := lowered.contains 'r'
  if lowered.contains 'b' then
    match body.find? (128 ≤ ·.toNat) with
    | some found => .error (.nonAsciiBytes found)
    | none =>
        if isRaw then .ok (.bytes (body.map Escape.asciiByte))
        else ((Escape.decodeBytes body).mapError .invalidEscape).map .bytes
  else if isRaw then .ok (.str (String.ofList body))
  else ((Escape.decodeString body).mapError .invalidEscape).map fun text =>
    .str (String.ofList text)

/-- The token of a number with the given value; without a value the number is wrong. -/
def numberToken {α : Type} (text : List Char) (token : α → TokenKind) (value : Option α) :
    Except LexErrorKind TokenKind :=
  match value with
  | some value => .ok (token value)
  | none => .error (.invalidNumber (String.ofList text))

/-- The token of a lexeme; blanks and the like have none. -/
def token? (lexeme : Lexeme) : Except LexErrorKind (Option TokenKind) :=
  let text := lexeme.text
  match lexeme.kind with
  | .blank | .comment | .lineBreak | .continuation => .ok none
  | .symbol token => .ok (some token)
  | .decimalInteger => (numberToken text id (TokenKind.ofDecimal? text)).map some
  | .hexInteger => (numberToken text id (TokenKind.ofMarked? 16 text)).map some
  | .octalInteger => (numberToken text id (TokenKind.ofMarked? 8 text)).map some
  | .binaryInteger => (numberToken text id (TokenKind.ofMarked? 2 text)).map some
  | .float => (numberToken text .float (Numeral.floatValue? text)).map some
  | .string => (literalToken text).map some
  | .unterminatedString => .error .unterminatedString
  | .formattedString => .ok (some .formattedString)
  | .word => .ok (some (.ofWord (String.ofList text)))
  | .stray => .error (.invalidCharacter (text.headD '\x00'))

end Lexeme
end Transpiler
