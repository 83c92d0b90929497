/-!
Contract: numbers of 32 bits.

Owns: the greatest such number, counting that stops at it, and how a computation ends that has no
result: at a fault, or because a number does not fit. The former is reported, the latter ends the
program.
-/

namespace Transpiler

/-- The greatest number that fits a counter. -/
def counterMax : Nat := 0xffffffff

/-- The number after another one. Counting stops at the greatest number that fits. -/
def saturatingSucc (number : Nat) : Nat :=
  min (number + 1) counterMax

/-- The operation whose result did not fit. -/
inductive Overflow where
  | addition
  | multiplication
deriving DecidableEq, Repr

def Overflow.message : Overflow → String
  | .addition => "attempt to add with overflow"
  | .multiplication => "attempt to multiply with overflow"

/-- The result of an operation, if it fits. -/
@[inline] def Overflow.check (operation : Overflow) (result : Nat) : Except Overflow Nat :=
  if result ≤ counterMax then .ok result else .error operation

/-- Why a computation has no result. -/
inductive Halt (ε : Type) where
  | fault (error : ε)
  | overflow (operation : Overflow)
deriving DecidableEq, Repr

def Halt.map {ε δ : Type} (change : ε → δ) : Halt ε → Halt δ
  | .fault error => .fault (change error)
  | .overflow operation => .overflow operation

end Transpiler
