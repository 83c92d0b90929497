import Transpiler.Diagnostic.Code
import Transpiler.Source.Span

/-!
Contract: diagnostics as data.

A diagnostic has a code, a severity, a message, labels that point into the source
and notes. How it looks on a terminal is not decided here.
-/

namespace Transpiler

inductive Severity where
  | error
  | warning
  | note
deriving DecidableEq, Repr

def Severity.text : Severity → String
  | .error => "error"
  | .warning => "warning"
  | .note => "note"

/-- A message at a place in the source. Primary labels show where the problem is,
secondary ones give related places. -/
structure Label where
  span : Span
  message : String
  isPrimary : Bool
deriving DecidableEq, Repr

structure Diagnostic where
  code : ErrorCode
  severity : Severity
  message : String
  labels : List Label
  notes : List String
deriving DecidableEq, Repr

namespace Diagnostic

def error (code : ErrorCode) (message : String) : Diagnostic :=
  ⟨code, .error, message, [], []⟩

def warning (code : ErrorCode) (message : String) : Diagnostic :=
  ⟨code, .warning, message, [], []⟩

def withLabel (diagnostic : Diagnostic) (span : Span) (message : String) : Diagnostic :=
  { diagnostic with labels := diagnostic.labels ++ [⟨span, message, true⟩] }

def withSecondaryLabel (diagnostic : Diagnostic) (span : Span) (message : String) : Diagnostic :=
  { diagnostic with labels := diagnostic.labels ++ [⟨span, message, false⟩] }

def withNote (diagnostic : Diagnostic) (note : String) : Diagnostic :=
  { diagnostic with notes := diagnostic.notes ++ [note] }

/-- The place of the first primary label. -/
def primarySpan? (diagnostic : Diagnostic) : Option Span :=
  (diagnostic.labels.find? (·.isPrimary)).map (·.span)

def isError (diagnostic : Diagnostic) : Bool :=
  diagnostic.severity == .error

/-- The first line of a diagnostic. -/
def headline (diagnostic : Diagnostic) : String :=
  diagnostic.severity.text ++ "[" ++ diagnostic.code.text ++ "]: " ++ diagnostic.message

end Diagnostic
end Transpiler
