import Transpiler.Syntax.Tree

/-!
Contract: what of a tree does not depend on where it was read.

Owns: trees without their locations, so that two trees are the same up to locations
when they are equal without them; and trees that hold no node outside the subset.
-/

namespace Transpiler

/-! ### Trees without their locations -/

namespace Expr

mutual

/-- The expression with the location of every node forgotten. -/
def unlocated : Expr → Expr
  | .binary left operator right _ => .binary left.unlocated operator right.unlocated .dummy
  | .unary operator operand _ => .unary operator operand.unlocated .dummy
  | .call callee arguments _ => .call callee.unlocated (allUnlocated arguments) .dummy
  | .constant value _ => .constant value .dummy
  | .name identifier _ => .name identifier .dummy
  | .member value memberName _ => .member value.unlocated memberName .dummy
  | .list elements _ => .list (allUnlocated elements) .dummy
  | .tuple elements _ => .tuple (allUnlocated elements) .dummy
  | .unsupported kindName _ => .unsupported kindName .dummy

def allUnlocated : List Expr → List Expr
  | [] => []
  | first :: rest => first.unlocated :: allUnlocated rest

end

@[simp] theorem allUnlocated_eq_map (expressions : List Expr) :
    allUnlocated expressions = expressions.map unlocated := by
  induction expressions with
  | nil => rfl
  | cons first rest inductionHypothesis =>
      rw [allUnlocated, inductionHypothesis, List.map_cons]

end Expr

/-- The statement with the location of every node forgotten. -/
def Stmt.unlocated : Stmt → Stmt
  | .annotated target annotation value _ =>
      .annotated target.unlocated annotation.unlocated (value.map Expr.unlocated) .dummy
  | .expression value _ => .expression value.unlocated .dummy
  | .assign targets value _ => .assign (targets.map Expr.unlocated) value.unlocated .dummy
  | .augmented target operator value _ =>
      .augmented target.unlocated operator value.unlocated .dummy
  | .pass _ => .pass .dummy
  | .unsupported kindName _ => .unsupported kindName .dummy

/-- The module with the location of every node forgotten. -/
def Module.unlocated (tree : Module) : Module :=
  ⟨tree.body.map Stmt.unlocated⟩

/-! ### Trees inside the subset -/

namespace Expr

mutual

/-- No node of the expression stands for a construct outside the subset. -/
def isOpaqueFree : Expr → Bool
  | .binary left _ right _ => left.isOpaqueFree && right.isOpaqueFree
  | .unary _ operand _ => operand.isOpaqueFree
  | .call callee arguments _ => callee.isOpaqueFree && areOpaqueFree arguments
  | .constant .. | .name .. => true
  | .member value _ _ => value.isOpaqueFree
  | .list elements _ | .tuple elements _ => areOpaqueFree elements
  | .unsupported .. => false

def areOpaqueFree : List Expr → Bool
  | [] => true
  | first :: rest => first.isOpaqueFree && areOpaqueFree rest

end

@[simp] theorem areOpaqueFree_eq_all (expressions : List Expr) :
    areOpaqueFree expressions = expressions.all isOpaqueFree := by
  induction expressions with
  | nil => rfl
  | cons first rest inductionHypothesis =>
      rw [areOpaqueFree, inductionHypothesis, List.all_cons]

mutual

/-- Whether a node lies in the subset does not depend on where it was read. -/
theorem isOpaqueFree_unlocated :
    ∀ expr : Expr, expr.unlocated.isOpaqueFree = expr.isOpaqueFree
  | .binary left _ right _ => by
      rw [unlocated, isOpaqueFree, isOpaqueFree, isOpaqueFree_unlocated left,
        isOpaqueFree_unlocated right]
  | .unary _ operand _ => isOpaqueFree_unlocated operand
  | .call callee arguments _ => by
      rw [unlocated, isOpaqueFree, isOpaqueFree, isOpaqueFree_unlocated callee,
        areOpaqueFree_allUnlocated arguments]
  | .constant .. => rfl
  | .name .. => rfl
  | .member value _ _ => isOpaqueFree_unlocated value
  | .list elements _ => areOpaqueFree_allUnlocated elements
  | .tuple elements _ => areOpaqueFree_allUnlocated elements
  | .unsupported .. => rfl

theorem areOpaqueFree_allUnlocated :
    ∀ expressions : List Expr,
      areOpaqueFree (allUnlocated expressions) = areOpaqueFree expressions
  | [] => rfl
  | first :: rest => by
      rw [allUnlocated, areOpaqueFree, areOpaqueFree, isOpaqueFree_unlocated first,
        areOpaqueFree_allUnlocated rest]

end

end Expr

/-- No node of the statement stands for a construct outside the subset. -/
def Stmt.isOpaqueFree : Stmt → Bool
  | .annotated target annotation value _ =>
      target.isOpaqueFree && annotation.isOpaqueFree && value.all Expr.isOpaqueFree
  | .expression value _ => value.isOpaqueFree
  | .assign targets value _ => targets.all Expr.isOpaqueFree && value.isOpaqueFree
  | .augmented target _ value _ => target.isOpaqueFree && value.isOpaqueFree
  | .pass _ => true
  | .unsupported .. => false

/-- No node of the module stands for a construct outside the subset. -/
def Module.isOpaqueFree (tree : Module) : Bool :=
  tree.body.all Stmt.isOpaqueFree

end Transpiler
