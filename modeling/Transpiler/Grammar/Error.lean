import Transpiler.Token.Error
import Transpiler.Token.Basic

/-!
Contract: why tokens form no module, in words and as a diagnostic.
-/

namespace Transpiler

inductive ParseErrorKind where
  /-- The source could not be cut into tokens. -/
  | lexical (cause : LexError)
  | unexpectedToken (found expected : String)
  | expectedExpression (found : String)
  | unclosedDelimiter (opening : String) (openedAt : Span)
  /-- A construct that the tree has no node for. -/
  | unsupportedSyntax (construct : String)
  | unexpectedIndent
  | expectedIndentedBlock
  | invalidTarget (found : String)
  | invalidAnnotationTarget (found : String)
  | invalidAugmentedTarget (found : String)
  | mixedLiterals
  | nestingTooDeep
deriving DecidableEq, Repr

structure ParseError where
  kind : ParseErrorKind
  span : Span
deriving DecidableEq, Repr

namespace ParseErrorKind

def message : ParseErrorKind → String
  | .lexical cause => cause.message
  | .unexpectedToken found expected => "expected " ++ expected ++ ", found " ++ found
  | .expectedExpression found => "expected an expression, found " ++ found
  | .unclosedDelimiter opening _ => "unclosed delimiter `" ++ opening ++ "`"
  | .unsupportedSyntax construct => construct ++ " is not supported"
  | .unexpectedIndent => "unexpected indent"
  | .expectedIndentedBlock => "expected an indented block"
  | .invalidTarget found => "cannot assign to " ++ found
  | .invalidAnnotationTarget found =>
      "only single target (not " ++ found ++ ") can be annotated"
  | .invalidAugmentedTarget found =>
      "'" ++ found ++ "' is an illegal expression for augmented assignment"
  | .mixedLiterals => "cannot mix bytes and nonbytes literals"
  | .nestingTooDeep => "expression nested too deeply"

def code : ParseErrorKind → ErrorCode
  | .lexical cause => cause.kind.code
  | .unexpectedToken .. | .invalidTarget _ | .invalidAnnotationTarget _
  | .invalidAugmentedTarget _ | .mixedLiterals | .nestingTooDeep => .unexpectedToken
  | .expectedExpression _ => .expectedExpression
  | .unclosedDelimiter .. => .unclosedDelimiter
  | .unsupportedSyntax _ => .unsupportedSyntax
  | .unexpectedIndent | .expectedIndentedBlock => .indentation

end ParseErrorKind

namespace ParseError

def message (error : ParseError) : String :=
  error.kind.message

def code (error : ParseError) : ErrorCode :=
  error.kind.code

def diagnostic (error : ParseError) : Diagnostic :=
  let plain := Diagnostic.error error.code error.message
  match error.kind with
  | .lexical cause => cause.diagnostic
  | .unclosedDelimiter opening openedAt =>
      (plain.withLabel error.span "expected a closing delimiter").withSecondaryLabel openedAt
        ("`" ++ opening ++ "` opened here")
  | .unexpectedIndent =>
      (plain.withLabel error.span "this line is indented").withNote
        "only the body of a compound statement may be indented"
  | .expectedIndentedBlock => plain.withLabel error.span "the block should start here"
  | .unsupportedSyntax _ => plain.withLabel error.span "not in the supported subset"
  | _ => plain.withLabel error.span "here"

/-- A token where the grammar expects something else. Operators that have no place in
the grammar at all are reported as unsupported. -/
def unexpected (found : Token) (expected : String) : ParseError :=
  match found.kind with
  | .unsupported symbol => ⟨.unsupportedSyntax ("`" ++ symbol ++ "`"), found.span⟩
  | kind => ⟨.unexpectedToken kind.describe expected, found.span⟩

/-- A token where an expression should begin. -/
def noExpression (found : Token) : ParseError :=
  match found.kind with
  | .unsupported symbol => ⟨.unsupportedSyntax ("`" ++ symbol ++ "`"), found.span⟩
  | kind => ⟨.expectedExpression kind.describe, found.span⟩

end ParseError
end Transpiler
