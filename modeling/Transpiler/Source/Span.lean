import Transpiler.Source.Counter
import Transpiler.Text.Radix

/-!
Contract: source locations as ranges of byte offsets.

Owns: the range type, covering two ranges by one, and the check that a range fits
the 32-bit offsets that locations are limited to.
-/

namespace Transpiler

/-- A range of byte offsets into a source text: `start` is the first byte, `stop`
the first byte after the range. -/
structure Span where
  start : Nat
  stop : Nat
deriving DecidableEq, Repr

namespace Span

/-- The location of a node that was built rather than read. -/
def dummy : Span := ⟨0, 0⟩

/-- The empty range at one offset. -/
def point (offset : Nat) : Span := ⟨offset, offset⟩

def isEmpty (span : Span) : Bool := span.start == span.stop

def isDummy (span : Span) : Bool := span == dummy

/-- The number of bytes; none when the range is reversed. -/
def length? (span : Span) : Option Nat :=
  if span.start ≤ span.stop then some (span.stop - span.start) else none

def contains (span : Span) (offset : Nat) : Bool :=
  span.start ≤ offset && offset < span.stop

/-- The smallest range that covers both ranges. -/
def cover (first second : Span) : Span :=
  ⟨min first.start second.start, max first.stop second.stop⟩

def render (span : Span) : String :=
  toString span.start ++ ".." ++ toString span.stop

/-- The largest offset that a location may hold. -/
def offsetLimit : Nat := counterMax

/-- Why a range of offsets is no location. -/
inductive RangeError where
  | startTooLarge (offset : Nat)
  | stopTooLarge (offset : Nat)
deriving DecidableEq, Repr

private def overLimit (side : String) (offset : Nat) : String :=
  let upper (number : Nat) := String.ofList ((Text.hexDigits number).map Char.toUpper)
  "span " ++ side ++ " " ++ toString offset ++ " (0x" ++ upper offset
    ++ ") exceeds u32::MAX (0x" ++ upper offsetLimit ++ ")"

def RangeError.message : RangeError → String
  | .startTooLarge offset => overLimit "start" offset
  | .stopTooLarge offset => overLimit "end" offset

/-- The location for a range of offsets; the start is checked before the end. -/
def ofRange (start stop : Nat) : Except RangeError Span :=
  if offsetLimit < start then .error (.startTooLarge start)
  else if offsetLimit < stop then .error (.stopTooLarge stop)
  else .ok ⟨start, stop⟩

end Span
end Transpiler
