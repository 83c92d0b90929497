/-!
Contract: the codes that diagnostics carry.

The first digit of a code names the phase that reports it.
-/

namespace Transpiler

/-- What a diagnostic is about. -/
inductive ErrorCode where
  | invalidCharacter
  | unterminatedString
  | invalidNumber
  | inconsistentDedent
  | invalidEscape
  | unexpectedToken
  | expectedExpression
  | unclosedDelimiter
  | unsupportedSyntax
  | indentation
  | unsupportedFeature
  | malformedConstruct
  | fileAccess
  | unknownFormat
  | invalidArguments
  | internal
  | tooManyErrors
deriving DecidableEq, Repr

/-- The phases of a run that report diagnostics. -/
inductive Phase where
  | lexing
  | parsing
  | generation
  | command
  | internal
deriving DecidableEq, Repr

namespace ErrorCode

/-- All codes, in the order of their numbers. -/
def all : List ErrorCode :=
  [.invalidCharacter, .unterminatedString, .invalidNumber, .inconsistentDedent, .invalidEscape,
    .unexpectedToken, .expectedExpression, .unclosedDelimiter, .unsupportedSyntax, .indentation,
    .unsupportedFeature, .malformedConstruct, .fileAccess, .unknownFormat, .invalidArguments,
    .internal, .tooManyErrors]

/-- The code as it is printed. -/
def text : ErrorCode → String
  | .invalidCharacter => "E0001"
  | .unterminatedString => "E0002"
  | .invalidNumber => "E0003"
  | .inconsistentDedent => "E0004"
  | .invalidEscape => "E0005"
  | .unexpectedToken => "E1001"
  | .expectedExpression => "E1002"
  | .unclosedDelimiter => "E1003"
  | .unsupportedSyntax => "E1004"
  | .indentation => "E1005"
  | .unsupportedFeature => "E5001"
  | .malformedConstruct => "E5002"
  | .fileAccess => "E8001"
  | .unknownFormat => "E8002"
  | .invalidArguments => "E8003"
  | .internal => "E9001"
  | .tooManyErrors => "E9002"

/-- A short explanation. -/
def description : ErrorCode → String
  | .invalidCharacter => "invalid character in source"
  | .unterminatedString => "unterminated string literal"
  | .invalidNumber => "invalid number literal"
  | .inconsistentDedent => "inconsistent dedent"
  | .invalidEscape => "invalid escape sequence"
  | .unexpectedToken => "unexpected token"
  | .expectedExpression => "expected expression"
  | .unclosedDelimiter => "unclosed delimiter"
  | .unsupportedSyntax => "unsupported syntax"
  | .indentation => "indentation error"
  | .unsupportedFeature => "feature not yet supported by the code generator"
  | .malformedConstruct => "malformed construct"
  | .fileAccess => "file could not be read or written"
  | .unknownFormat => "unknown output format"
  | .invalidArguments => "invalid command line"
  | .internal => "internal error"
  | .tooManyErrors => "too many errors"

def phase : ErrorCode → Phase
  | .invalidCharacter | .unterminatedString | .invalidNumber | .inconsistentDedent
  | .invalidEscape => .lexing
  | .unexpectedToken | .expectedExpression | .unclosedDelimiter | .unsupportedSyntax
  | .indentation => .parsing
  | .unsupportedFeature | .malformedConstruct => .generation
  | .fileAccess | .unknownFormat | .invalidArguments => .command
  | .internal | .tooManyErrors => .internal

end ErrorCode
end Transpiler
