import Transpiler.Decimal.Binary64
import Transpiler.Source.Span

/-!
Contract: tokens.

Literal tokens carry their decoded values. Logical lines end with a `newline` token,
and blocks are marked by `indent` and `dedent`.
-/

namespace Transpiler

inductive TokenKind where
  /-- An integer literal that fits 64 bits with sign. -/
  | int (value : Int)
  /-- A larger integer literal, by its decimal digits. -/
  | bigInt (digits : String)
  | float (number : Binary64)
  | str (text : String)
  | bytes (content : List UInt8)
  /-- A string with replacement fields; its contents are not decoded. -/
  | formattedString
  | ident (name : String)
  | trueWord
  | falseWord
  | noneWord
  | passWord
  | notWord
  /-- Any other reserved word. -/
  | keyword (word : String)
  | plus
  | minus
  | star
  | slash
  | doubleStar
  | doubleSlash
  | percent
  | atSign
  | shiftLeft
  | shiftRight
  | ampersand
  | bar
  | caret
  | tilde
  /-- An augmented assignment sign, by its symbol without the `=`. -/
  | augmented (symbol : String)
  | comparison (symbol : String)
  | ellipsis
  /-- An operator with no place in the grammar. -/
  | unsupported (symbol : String)
  | leftParen
  | rightParen
  | leftBracket
  | rightBracket
  | leftBrace
  | rightBrace
  | comma
  | colon
  | equals
  | dot
  | semicolon
  /-- The end of a logical line. -/
  | newline
  /-- The next logical line is indented deeper than the block around it. -/
  | indent
  /-- The innermost block ends. -/
  | dedent
  | endOfFile
deriving DecidableEq, Repr

namespace TokenKind

/-- The source text of tokens that are always written the same way. -/
def symbol : TokenKind → String
  | .trueWord => "True"
  | .falseWord => "False"
  | .noneWord => "None"
  | .passWord => "pass"
  | .notWord => "not"
  | .keyword word => word
  | .plus => "+"
  | .minus => "-"
  | .star => "*"
  | .slash => "/"
  | .doubleStar => "**"
  | .doubleSlash => "//"
  | .percent => "%"
  | .atSign => "@"
  | .shiftLeft => "<<"
  | .shiftRight => ">>"
  | .ampersand => "&"
  | .bar => "|"
  | .caret => "^"
  | .tilde => "~"
  | .augmented symbol => symbol
  | .comparison symbol => symbol
  | .unsupported symbol => symbol
  | .ellipsis => "..."
  | .leftParen => "("
  | .rightParen => ")"
  | .leftBracket => "["
  | .rightBracket => "]"
  | .leftBrace => "\x7b"
  | .rightBrace => "\x7d"
  | .comma => ","
  | .colon => ":"
  | .equals => "="
  | .dot => "."
  | .semicolon => ";"
  | .int _ | .bigInt _ | .float _ | .str _ | .bytes _ | .formattedString | .ident _
  | .newline | .indent | .dedent | .endOfFile => ""

/-- The token as messages name it. -/
def describe : TokenKind → String
  | .int value => "integer `" ++ toString value ++ "`"
  | .bigInt digits => "integer `" ++ digits ++ "`"
  | .formattedString => "f-string"
  | .float _ => "float literal"
  | .str _ => "string literal"
  | .bytes _ => "bytes literal"
  | .ident name => "identifier `" ++ name ++ "`"
  | .keyword word => "keyword `" ++ word ++ "`"
  | .augmented symbol => "`" ++ symbol ++ "=`"
  | .newline => "end of line"
  | .indent => "indent"
  | .dedent => "dedent"
  | .endOfFile => "end of file"
  | other => "`" ++ other.symbol ++ "`"

end TokenKind

/-- A token with its place in the source. -/
structure Token where
  kind : TokenKind
  span : Span
deriving DecidableEq, Repr

end Transpiler
