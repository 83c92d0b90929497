import Transpiler.Source.Span
import Transpiler.Syntax.Constant
import Transpiler.Syntax.Operator

/-!
Contract: the syntax tree.

A module is its statements in source order. Every statement and expression carries
the range of source text that it was read from. Constructs outside the supported
subset are kept as nodes that know only the name of their kind and their extent.
-/

namespace Transpiler

/-- An expression with its location. -/
inductive Expr where
  | binary (left : Expr) (operator : BinaryOp) (right : Expr) (span : Span)
  | unary (operator : UnaryOp) (operand : Expr) (span : Span)
  | call (callee : Expr) (arguments : List Expr) (span : Span)
  | constant (value : Constant) (span : Span)
  | name (identifier : String) (span : Span)
  | member (value : Expr) (memberName : String) (span : Span)
  | list (elements : List Expr) (span : Span)
  | tuple (elements : List Expr) (span : Span)
  /-- A construct outside the subset, by the name of its kind. -/
  | unsupported (kindName : String) (span : Span)
deriving Repr

namespace Expr

def span : Expr → Span
  | .binary _ _ _ span => span
  | .unary _ _ span => span
  | .call _ _ span => span
  | .constant _ span => span
  | .name _ span => span
  | .member _ _ span => span
  | .list _ span => span
  | .tuple _ span => span
  | .unsupported _ span => span

/-- The name of the node's kind in listings and messages. -/
def kindName : Expr → String
  | .binary .. => "BinOp"
  | .unary .. => "UnaryOp"
  | .call .. => "Call"
  | .constant .. => "Constant"
  | .name .. => "Name"
  | .member .. => "Attribute"
  | .list .. => "List"
  | .tuple .. => "Tuple"
  | .unsupported kindName _ => kindName

/-- The identifier of a bare name. -/
def name? : Expr → Option String
  | .name identifier _ => some identifier
  | _ => none

def isName (expression : Expr) : Bool :=
  expression.name?.isSome

end Expr

/-- A statement with its location. -/
inductive Stmt where
  | annotated (target annotation : Expr) (value : Option Expr) (span : Span)
  | expression (value : Expr) (span : Span)
  | assign (targets : List Expr) (value : Expr) (span : Span)
  | augmented (target : Expr) (operator : BinaryOp) (value : Expr) (span : Span)
  | pass (span : Span)
  /-- A construct outside the subset, by the name of its kind. -/
  | unsupported (kindName : String) (span : Span)
deriving Repr

namespace Stmt

def span : Stmt → Span
  | .annotated _ _ _ span => span
  | .expression _ span => span
  | .assign _ _ span => span
  | .augmented _ _ _ span => span
  | .pass span => span
  | .unsupported _ span => span

/-- The name of the node's kind in listings and messages. -/
def kindName : Stmt → String
  | .annotated .. => "AnnAssign"
  | .expression .. => "Expr"
  | .assign .. => "Assign"
  | .augmented .. => "AugAssign"
  | .pass .. => "Pass"
  | .unsupported kindName _ => kindName

end Stmt

/-- A whole source: its statements in source order. -/
structure Module where
  body : List Stmt
deriving Repr

end Transpiler
