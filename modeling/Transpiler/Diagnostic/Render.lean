import Transpiler.Diagnostic.Basic
import Transpiler.Diagnostic.Style
import Transpiler.Source.LineTable

/-!
Contract: diagnostics as terminal text.

With a source at hand, a label shows the path, line and column of its place, the line
itself and a marker under the labelled characters. Without a source it shows the byte
range only. A marker never leaves the line that it is under.
-/

namespace Transpiler

/-- A source text with the path that it is shown under. -/
structure SourceFile where
  path : String
  lines : LineTable
deriving DecidableEq, Repr

def SourceFile.ofText (path text : String) : SourceFile :=
  ⟨path, .ofText text⟩

def Severity.style : Severity → Style
  | .error => .error
  | .warning => .warning
  | .note => .note

def Label.style (label : Label) : Style :=
  if label.isPrimary then .error else .secondary

/-- A text repeated without separators. -/
def repeated (count : Nat) (character : Char) : String :=
  String.ofList (List.replicate count character)

namespace Label

/-- A label when no source is at hand. -/
def bareSegments (label : Label) : List Segment :=
  let arrow := if label.isPrimary then "-->" else "   "
  [.plain ("  " ++ arrow ++ " " ++ label.span.render ++ ": "), .styled label.style label.message,
    .plain "\n"]

/-- The number of characters to mark: those of the label's range, but at least one and no
further than the end of the line. -/
def markerWidth (label : Label) (lines : LineTable) (lineLength column : Nat) : Nat :=
  let available := lineLength - (column - 1)
  let labelled := ((Text.slice? lines.text label.span.start label.span.stop).map List.length).getD 1
  max 1 (min labelled (max 1 available))

/-- A label shown under its line of the source. -/
def sourceSegments (label : Label) (file : SourceFile) : List Segment :=
  let position := file.lines.position label.span.start
  let lineText := (file.lines.lineText? position.line).getD []
  let lineNumber := toString position.line
  let gutter := repeated lineNumber.length ' '
  let arrow := if label.isPrimary then "-->" else ":::"
  let sign := if label.isPrimary then '^' else '-'
  let marker :=
    repeated (label.markerWidth file.lines lineText.length position.column) sign
  let message :=
    if label.message.isEmpty then [] else [.plain " ", .styled label.style label.message]
  [.plain (gutter ++ arrow ++ " " ++ file.path ++ ":" ++ lineNumber ++ ":"
      ++ toString position.column ++ "\n"),
    .plain (gutter ++ " |\n"),
    .plain (lineNumber ++ " | " ++ String.ofList lineText ++ "\n"),
    .plain (gutter ++ " | " ++ repeated (position.column - 1) ' '),
    .styled label.style marker] ++ message ++ [.plain "\n"]

def segments (label : Label) : Option SourceFile → List Segment
  | some file => label.sourceSegments file
  | none => label.bareSegments

end Label

namespace Diagnostic

def noteSegments (note : String) : List Segment :=
  [.plain "  = ", .styled .bold "note", .plain (": " ++ note ++ "\n")]

def segments (source : Option SourceFile) (diagnostic : Diagnostic) : List Segment :=
  [.styled diagnostic.severity.style diagnostic.severity.text,
    .styled .bold ("[" ++ diagnostic.code.text ++ "]"),
    .plain (": " ++ diagnostic.message ++ "\n")]
  ++ diagnostic.labels.flatMap (·.segments source)
  ++ diagnostic.notes.flatMap noteSegments
  ++ [.plain "\n"]

end Diagnostic

/-- A count with its noun, in the plural unless the count is one. -/
def counted (count : Nat) (noun : String) : String :=
  toString count ++ " " ++ noun ++ (if count = 1 then "" else "s")

/-- The line that sums up the errors and warnings of a run; nothing if there are none. -/
def summarySegments (errors warnings : Nat) : List Segment :=
  if 0 < errors then
    let cause := if errors = 1 then "previous error" else toString errors ++ " previous errors"
    let more := if 0 < warnings then "; " ++ counted warnings "warning" ++ " emitted" else ""
    [.styled .error "error", .plain (": aborting due to " ++ cause ++ more ++ "\n")]
  else if 0 < warnings then
    [.styled .warning "warning", .plain (": " ++ counted warnings "warning" ++ " emitted\n")]
  else []

/-- Where diagnostics are shown: with or without colours, and with the source if it is at
hand. -/
structure Terminal where
  useColors : Bool
  source : Option SourceFile
deriving DecidableEq, Repr

namespace Terminal

def render (terminal : Terminal) (diagnostic : Diagnostic) : String :=
  renderSegments terminal.useColors (diagnostic.segments terminal.source)

def renderAll (terminal : Terminal) (diagnostics : List Diagnostic) : String :=
  String.join (diagnostics.map terminal.render)

def summary (terminal : Terminal) (errors warnings : Nat) : String :=
  renderSegments terminal.useColors (summarySegments errors warnings)

end Terminal
end Transpiler
