/-!
Contract: sets of code points, written compactly.

A set is given by the lengths of the runs of code points that are outside and inside in
turn, starting from "outside". The modules that need a property of the Unicode Character
Database store it in this form and say which version of it they follow.
-/

namespace Transpiler.Text

/-- Whether the code point after a number of others is inside, given whether the first one is and
the lengths of the runs. -/
def isInside (inside : Bool) : List Nat → Nat → Bool
  | [], _ => inside
  | length :: rest, before =>
      if before < length then inside else isInside (!inside) rest (before - length)

/-- A set of code points. The `i`-th run is inside when `i` is odd; all code points after the last
run are on the other side of it. -/
structure CodePointSet where
  runs : List Nat
deriving DecidableEq, Repr

def CodePointSet.contains (set : CodePointSet) (codePoint : Nat) : Bool :=
  isInside false set.runs codePoint

end Transpiler.Text
