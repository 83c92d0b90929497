/-!
Contract: the operators of the syntax tree, with their names, symbols and ranks.
-/

namespace Transpiler

/-- Operators with two operands. -/
inductive BinaryOp where
  | add
  | sub
  | mult
  | div
  | pow
  | floorDiv
  | mod
  | matMult
  | shiftLeft
  | shiftRight
  | bitOr
  | bitXor
  | bitAnd
deriving DecidableEq, Repr

namespace BinaryOp

/-- All operators, in the order in which they are listed and looked up. -/
def all : List BinaryOp :=
  [.add, .sub, .mult, .div, .pow, .floorDiv, .mod, .matMult, .shiftLeft, .shiftRight,
    .bitOr, .bitXor, .bitAnd]

/-- The symbol in source text. -/
def symbol : BinaryOp → String
  | .add => "+"
  | .sub => "-"
  | .mult => "*"
  | .div => "/"
  | .pow => "**"
  | .floorDiv => "//"
  | .mod => "%"
  | .matMult => "@"
  | .shiftLeft => "<<"
  | .shiftRight => ">>"
  | .bitOr => "|"
  | .bitXor => "^"
  | .bitAnd => "&"

/-- The name of the operator's node in listings and messages. -/
def kindName : BinaryOp → String
  | .add => "Add"
  | .sub => "Sub"
  | .mult => "Mult"
  | .div => "Div"
  | .pow => "Pow"
  | .floorDiv => "FloorDiv"
  | .mod => "Mod"
  | .matMult => "MatMult"
  | .shiftLeft => "LShift"
  | .shiftRight => "RShift"
  | .bitOr => "BitOr"
  | .bitXor => "BitXor"
  | .bitAnd => "BitAnd"

/-- How tightly the operator binds: of two operators the one of higher rank takes its
operands first. Seven is the rank of the signs, which stand between products and
powers. -/
def precedence : BinaryOp → Nat
  | .bitOr => 1
  | .bitXor => 2
  | .bitAnd => 3
  | .shiftLeft | .shiftRight => 4
  | .add | .sub => 5
  | .mult | .div | .floorDiv | .mod | .matMult => 6
  | .pow => 8

/-- The operator with a given symbol. -/
def ofSymbol? (symbol : String) : Option BinaryOp :=
  all.find? (·.symbol == symbol)

theorem ofSymbol?_symbol (operator : BinaryOp) :
    ofSymbol? operator.symbol = some operator := by
  cases operator <;> decide

end BinaryOp

/-- Operators with one operand. -/
inductive UnaryOp where
  | plus
  | minus
  | not
  | invert
deriving DecidableEq, Repr

namespace UnaryOp

def all : List UnaryOp := [.plus, .minus, .not, .invert]

/-- The symbol in source text. -/
def symbol : UnaryOp → String
  | .plus => "+"
  | .minus => "-"
  | .not => "not"
  | .invert => "~"

/-- The name of the operator's node in listings and messages. -/
def kindName : UnaryOp → String
  | .plus => "UAdd"
  | .minus => "USub"
  | .not => "Not"
  | .invert => "Invert"

end UnaryOp
end Transpiler
