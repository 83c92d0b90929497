import Transpiler.Generate.Failure
import Transpiler.Grammar.Error
import Transpiler.Proofs.Syntax.Shape

/-!
Contract: moving the locations of tokens, trees and errors.

Owns: the changes of locations under which the location of a construct is still put together
from those of its parts (`Relocation`), and what such a change makes of everything that
carries a location. Forgetting all locations is one, leaving them as they are another.

Does not own: that reading and generating commute with a change of locations.
-/

namespace Transpiler

/-! ### Changes of locations -/

/-- A change of locations that keeps what covers two others, and the location of what was not
read from a source. -/
structure Relocation where
  apply : Span → Span
  dummy : apply .dummy = .dummy
  cover (first second : Span) : apply (first.cover second) = (apply first).cover (apply second)

attribute [simp] Relocation.dummy Relocation.cover

namespace Relocation

/-- Leaves every location as it is. -/
def identity : Relocation where
  apply := id
  dummy := rfl
  cover _ _ := rfl

/-- Forgets every location. -/
def forget : Relocation where
  apply _ := .dummy
  dummy := rfl
  cover _ _ := rfl

@[simp] theorem identity_apply (span : Span) : identity.apply span = span := rfl

@[simp] theorem forget_apply (span : Span) : forget.apply span = .dummy := rfl

end Relocation

variable (move : Relocation)

/-! ### Tokens -/

def Token.relocate (token : Token) : Token :=
  ⟨token.kind, move.apply token.span⟩

namespace Token

@[simp] theorem relocate_kind (token : Token) : (token.relocate move).kind = token.kind := rfl

@[simp] theorem relocate_span (token : Token) :
    (token.relocate move).span = move.apply token.span := rfl

@[simp] theorem relocate_identity (token : Token) : token.relocate .identity = token := rfl

/-- Tokens of the same kinds differ only in their locations. -/
theorem map_relocate_forget (tokens : List Token) :
    tokens.map (·.relocate .forget) = (tokens.map (·.kind)).map (⟨·, .dummy⟩) := by
  simp [Token.relocate]

end Token

/-! ### Trees -/

namespace Expr

mutual

def relocate : Expr → Expr
  | .binary left operator right span =>
      .binary left.relocate operator right.relocate (move.apply span)
  | .unary operator operand span => .unary operator operand.relocate (move.apply span)
  | .call callee arguments span =>
      .call callee.relocate (relocateAll arguments) (move.apply span)
  | .constant value span => .constant value (move.apply span)
  | .name identifier span => .name identifier (move.apply span)
  | .member value memberName span => .member value.relocate memberName (move.apply span)
  | .list elements span => .list (relocateAll elements) (move.apply span)
  | .tuple elements span => .tuple (relocateAll elements) (move.apply span)
  | .unsupported kindName span => .unsupported kindName (move.apply span)

def relocateAll : List Expr → List Expr
  | [] => []
  | first :: rest => first.relocate :: relocateAll rest

end

@[simp] theorem relocateAll_eq_map (expressions : List Expr) :
    relocateAll move expressions = expressions.map (relocate move) := by
  induction expressions with
  | nil => rfl
  | cons first rest inductionHypothesis =>
      rw [relocateAll, inductionHypothesis, List.map_cons]

@[simp] theorem relocate_span (expr : Expr) :
    (expr.relocate move).span = move.apply expr.span := by
  cases expr <;> rfl

@[simp] theorem relocate_kindName (expr : Expr) :
    (expr.relocate move).kindName = expr.kindName := by
  cases expr <;> rfl

@[simp] theorem relocate_name? (expr : Expr) : (expr.relocate move).name? = expr.name? := by
  cases expr <;> rfl

@[simp] theorem relocate_isName (expr : Expr) : (expr.relocate move).isName = expr.isName := by
  rw [isName, isName, relocate_name?]

mutual

theorem relocate_forget : ∀ expr : Expr, expr.relocate .forget = expr.unlocated
  | .binary left _ right _ => by
      rw [relocate, unlocated, relocate_forget left, relocate_forget right]
      rfl
  | .unary _ operand _ => by
      rw [relocate, unlocated, relocate_forget operand]
      rfl
  | .call callee arguments _ => by
      rw [relocate, unlocated, relocate_forget callee, relocateAll_forget arguments]
      rfl
  | .constant .. => rfl
  | .name .. => rfl
  | .member value _ _ => by
      rw [relocate, unlocated, relocate_forget value]
      rfl
  | .list elements _ => by
      rw [relocate, unlocated, relocateAll_forget elements]
      rfl
  | .tuple elements _ => by
      rw [relocate, unlocated, relocateAll_forget elements]
      rfl
  | .unsupported .. => rfl

theorem relocateAll_forget :
    ∀ expressions : List Expr, relocateAll .forget expressions = allUnlocated expressions
  | [] => rfl
  | first :: rest => by
      rw [relocateAll, allUnlocated, relocate_forget first, relocateAll_forget rest]

end

mutual

theorem relocate_identity : ∀ expr : Expr, expr.relocate .identity = expr
  | .binary left _ right _ => by
      rw [relocate, relocate_identity left, relocate_identity right]
      rfl
  | .unary _ operand _ => by
      rw [relocate, relocate_identity operand]
      rfl
  | .call callee arguments _ => by
      rw [relocate, relocate_identity callee, relocateAll_identity arguments]
      rfl
  | .constant .. => rfl
  | .name .. => rfl
  | .member value _ _ => by
      rw [relocate, relocate_identity value]
      rfl
  | .list elements _ => by
      rw [relocate, relocateAll_identity elements]
      rfl
  | .tuple elements _ => by
      rw [relocate, relocateAll_identity elements]
      rfl
  | .unsupported .. => rfl

theorem relocateAll_identity :
    ∀ expressions : List Expr, relocateAll .identity expressions = expressions
  | [] => rfl
  | first :: rest => by
      rw [relocateAll, relocate_identity first, relocateAll_identity rest]

end

end Expr

def Stmt.relocate : Stmt → Stmt
  | .annotated target annotation value span =>
      .annotated (target.relocate move) (Expr.relocate move annotation)
        (value.map (Expr.relocate move)) (move.apply span)
  | .expression value span => .expression (value.relocate move) (move.apply span)
  | .assign targets value span =>
      .assign (targets.map (Expr.relocate move)) (value.relocate move) (move.apply span)
  | .augmented target operator value span =>
      .augmented (target.relocate move) operator (value.relocate move) (move.apply span)
  | .pass span => .pass (move.apply span)
  | .unsupported kindName span => .unsupported kindName (move.apply span)

namespace Stmt

theorem relocate_forget (stmt : Stmt) : stmt.relocate .forget = stmt.unlocated := by
  have all : Expr.relocate .forget = Expr.unlocated := funext Expr.relocate_forget
  cases stmt <;> simp [relocate, unlocated, all]

theorem relocate_identity (stmt : Stmt) : stmt.relocate .identity = stmt := by
  have all : Expr.relocate .identity = id := funext Expr.relocate_identity
  cases stmt <;> simp [relocate, all]

end Stmt

def Module.relocate (tree : Module) : Module :=
  ⟨tree.body.map (Stmt.relocate move)⟩

namespace Module

theorem relocate_forget (tree : Module) : tree.relocate .forget = tree.unlocated := by
  have all : Stmt.relocate .forget = Stmt.unlocated := funext Stmt.relocate_forget
  rw [relocate, unlocated, all]

theorem relocate_identity (tree : Module) : tree.relocate .identity = tree := by
  have all : Stmt.relocate .identity = id := funext Stmt.relocate_identity
  rw [relocate, all, List.map_id]

end Module

/-! ### Errors -/

def LexError.relocate (error : LexError) : LexError :=
  ⟨error.kind, move.apply error.span⟩

def ParseErrorKind.relocate : ParseErrorKind → ParseErrorKind
  | .lexical cause => .lexical (cause.relocate move)
  | .unclosedDelimiter opening openedAt => .unclosedDelimiter opening (move.apply openedAt)
  | other => other

def ParseError.relocate (error : ParseError) : ParseError :=
  ⟨error.kind.relocate move, move.apply error.span⟩

namespace ParseError

theorem relocate_unexpected (found : Token) (expected : String) :
    (unexpected found expected).relocate move = unexpected (found.relocate move) expected := by
  unfold unexpected
  simp only [Token.relocate_kind]
  cases found.kind <;> rfl

theorem relocate_noExpression (found : Token) :
    (noExpression found).relocate move = noExpression (found.relocate move) := by
  unfold noExpression
  simp only [Token.relocate_kind]
  cases found.kind <;> rfl

theorem relocate_identity (error : ParseError) : error.relocate .identity = error := by
  obtain ⟨kind, span⟩ := error
  cases kind <;> rfl

end ParseError

def FailureSite.relocate (site : FailureSite) : FailureSite :=
  { site with span := move.apply site.span }

def GenerationError.relocate : GenerationError → GenerationError
  | .unsupported site detail => .unsupported (site.relocate move) detail
  | .malformed site expected => .malformed (site.relocate move) expected

end Transpiler
