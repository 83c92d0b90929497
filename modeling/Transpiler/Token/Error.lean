import Transpiler.Diagnostic.Basic
import Transpiler.Text.Quoted
import Transpiler.Token.Escape

/-!
Contract: why a source cannot be cut into tokens, in words and as a diagnostic.
-/

namespace Transpiler

inductive LexErrorKind where
  | invalidCharacter (found : Char)
  | unterminatedString
  | nonAsciiBytes (found : Char)
  | invalidEscape (cause : EscapeError)
  | invalidNumber (text : String)
  | inconsistentDedent
  | sourceTooLarge
deriving DecidableEq, Repr

structure LexError where
  kind : LexErrorKind
  span : Span
deriving DecidableEq, Repr

namespace LexErrorKind

def message : LexErrorKind → String
  | .invalidCharacter found => "invalid character " ++ Text.quoteChar found ++ " in source"
  | .unterminatedString => "unterminated string literal"
  | .nonAsciiBytes found =>
      "bytes can only contain ASCII literal characters, found " ++ Text.quoteChar found
  | .invalidEscape cause => cause.message
  | .invalidNumber text => "invalid number literal `" ++ text ++ "`"
  | .inconsistentDedent => "unindent does not match any outer indentation level"
  | .sourceTooLarge => "source is larger than 4 GiB"

def code : LexErrorKind → ErrorCode
  | .invalidCharacter _ | .nonAsciiBytes _ => .invalidCharacter
  | .unterminatedString => .unterminatedString
  | .invalidNumber _ => .invalidNumber
  | .inconsistentDedent => .inconsistentDedent
  | .invalidEscape _ => .invalidEscape
  | .sourceTooLarge => .internal

/-- What the label at the place of the error says. -/
def labelMessage : LexErrorKind → String
  | .unterminatedString => "string starts here"
  | .inconsistentDedent => "dedent to an unknown level"
  | .invalidEscape _ => "in this literal"
  | _ => "here"

end LexErrorKind

def LexError.message (error : LexError) : String :=
  error.kind.message

def LexError.diagnostic (error : LexError) : Diagnostic :=
  (Diagnostic.error error.kind.code error.message).withLabel error.span error.kind.labelMessage

end Transpiler
