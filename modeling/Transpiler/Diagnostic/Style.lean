/-!
Contract: text with styles, and its two renderings.

Output is first built as segments of text, some of them styled. Without colours the
styles are dropped; with colours each styled segment stands between the sequences
that switch its style on and off.
-/

namespace Transpiler

inductive Style where
  | error
  | warning
  | note
  | bold
  | secondary
deriving DecidableEq, Repr

/-- The control sequence that switches a style on. -/
def Style.start : Style → String
  | .error => "\x1b[1;31m"
  | .warning => "\x1b[1;33m"
  | .note => "\x1b[1;36m"
  | .bold => "\x1b[1m"
  | .secondary => "\x1b[1;34m"

/-- The control sequence that switches every style off. -/
def Style.reset : String := "\x1b[0m"

/-- A piece of text in one style or none. -/
structure Segment where
  style : Option Style
  text : String
deriving DecidableEq, Repr

namespace Segment

def plain (text : String) : Segment := ⟨none, text⟩

def styled (style : Style) (text : String) : Segment := ⟨some style, text⟩

def render (useColors : Bool) (segment : Segment) : String :=
  match segment.style with
  | some style => if useColors then style.start ++ segment.text ++ Style.reset else segment.text
  | none => segment.text

end Segment

/-- The text of segments, one after the other. -/
def renderSegments (useColors : Bool) (segments : List Segment) : String :=
  String.join (segments.map (Segment.render useColors))

/-- When to use colours. -/
inductive ColorMode where
  /-- Only on a terminal. -/
  | auto
  | always
  | never
deriving DecidableEq, Repr

def ColorMode.useColors (mode : ColorMode) (isTerminal : Bool) : Bool :=
  match mode with
  | .auto => isTerminal
  | .always => true
  | .never => false

end Transpiler
