import Transpiler.Grammar.Error
import Transpiler.Syntax.Tree

/-!
Contract: what may be assigned to.

Names, members and subscripts may always be assigned to, and in a plain assignment
also lists and tuples of such targets.
-/

namespace Transpiler

/-- The kinds of assignment. -/
inductive TargetUse where
  | assign
  | annotated
  | augmented
deriving DecidableEq, Repr

/-- The error for something that may not be assigned to. -/
def TargetUse.invalid : TargetUse → String → ParseErrorKind
  | .assign => .invalidTarget
  | .annotated => .invalidAnnotationTarget
  | .augmented => .invalidAugmentedTarget

/-- How messages name a construct outside the subset that cannot be assigned to. -/
def unsupportedTargetName (kindName : String) : String :=
  match kindName with
  | "Compare" => "comparison"
  | "IfExp" => "conditional expression"
  | "Lambda" => "lambda"
  | "Dict" => "dict literal"
  | "Set" => "set display"
  | "JoinedStr" => "f-string expression"
  | "ListComp" => "list comprehension"
  | "DictComp" => "dict comprehension"
  | "SetComp" => "set comprehension"
  | "GeneratorExp" => "generator expression"
  | "Await" => "await expression"
  | "Yield" | "YieldFrom" => "yield expression"
  | "NamedExpr" => "named expression"
  | _ => "expression"

mutual

/-- Checks that an expression may be assigned to; the first part that may not be is
reported. -/
def checkTarget (use : TargetUse) : Expr → Except ParseError Unit
  | .name .. | .member .. => .ok ()
  | .tuple elements span =>
      match use with
      | .assign => checkTargets use elements
      | _ => .error ⟨use.invalid "tuple", span⟩
  | .list elements span =>
      match use with
      | .assign => checkTargets use elements
      | _ => .error ⟨use.invalid "list", span⟩
  | .constant .ellipsis span => .error ⟨use.invalid "ellipsis", span⟩
  | .constant _ span => .error ⟨use.invalid "literal", span⟩
  | .call _ _ span => .error ⟨use.invalid "function call", span⟩
  | .unsupported kindName span =>
      if kindName == "Subscript" then .ok ()
      else .error ⟨use.invalid (unsupportedTargetName kindName), span⟩
  | .binary _ _ _ span => .error ⟨use.invalid "expression", span⟩
  | .unary _ _ span => .error ⟨use.invalid "expression", span⟩

def checkTargets (use : TargetUse) : List Expr → Except ParseError Unit
  | [] => .ok ()
  | first :: rest => do
      checkTarget use first
      checkTargets use rest

end

end Transpiler
