import Transpiler.Syntax.Inspect
import Transpiler.Token.Basic

/-!
Contract: tokens on one line, with their locations.
-/

namespace Transpiler

open Inspect

namespace TokenKind

/-- The name of the token's kind. -/
def kindName : TokenKind → String
  | .int _ => "Int"
  | .bigInt _ => "BigInt"
  | .float _ => "Float"
  | .str _ => "Str"
  | .bytes _ => "Bytes"
  | .formattedString => "FString"
  | .ident _ => "Ident"
  | .trueWord => "True"
  | .falseWord => "False"
  | .noneWord => "None"
  | .passWord => "Pass"
  | .notWord => "Not"
  | .keyword _ => "Keyword"
  | .plus => "Plus"
  | .minus => "Minus"
  | .star => "Star"
  | .slash => "Slash"
  | .doubleStar => "DoubleStar"
  | .doubleSlash => "DoubleSlash"
  | .percent => "Percent"
  | .atSign => "At"
  | .shiftLeft => "Shl"
  | .shiftRight => "Shr"
  | .ampersand => "Amp"
  | .bar => "Pipe"
  | .caret => "Caret"
  | .tilde => "Tilde"
  | .augmented _ => "AugAssign"
  | .comparison _ => "CompareOp"
  | .ellipsis => "Ellipsis"
  | .unsupported _ => "Unsupported"
  | .leftParen => "LParen"
  | .rightParen => "RParen"
  | .leftBracket => "LBracket"
  | .rightBracket => "RBracket"
  | .leftBrace => "LBrace"
  | .rightBrace => "RBrace"
  | .comma => "Comma"
  | .colon => "Colon"
  | .equals => "Eq"
  | .dot => "Dot"
  | .semicolon => "Semicolon"
  | .newline => "Newline"
  | .indent => "Indent"
  | .dedent => "Dedent"
  | .endOfFile => "Eof"

def inspect (kind : TokenKind) : String :=
  match kind with
  | .int value => wrapped kind.kindName (toString value)
  | .float number => wrapped kind.kindName (toString number.bits.toNat)
  | .bytes content => wrapped kind.kindName (byteSequence content)
  | .bigInt text | .str text | .ident text | .keyword text | .augmented text | .comparison text
  | .unsupported text => wrapped kind.kindName (Text.quoteString text)
  | _ => kind.kindName

end TokenKind

def Token.inspect (token : Token) : String :=
  located token.kind.inspect token.span

end Transpiler
