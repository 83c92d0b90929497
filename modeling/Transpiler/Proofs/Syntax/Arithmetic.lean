import Transpiler.Proofs.Syntax.Shape
import Transpiler.Proofs.Token.Identifier

/-!
Contract: arithmetic trees and their grouping.

Owns: the trees of names, integers, sums, products, powers and calls of named
functions; how deep calls nest in them; the same trees with powers as calls; and
which of them group the way their operators do, so that they need no parentheses.

Does not own: how a tree is written, and how text is grouped.
-/

namespace Transpiler
namespace Expr

/-! ### Arithmetic trees -/

/-- Names, integers from zero to the 64-bit limit, operations with the given operators
and calls of named functions. -/
inductive ArithmeticOver (operators : List BinaryOp) : Expr → Prop where
  | name {identifier : String} {span : Span} (reads : IsIdentifier identifier) :
      ArithmeticOver operators (.name identifier span)
  | int {value : Int} {span : Span} (nonnegative : 0 ≤ value) (fits : value ≤ smallIntegerLimit) :
      ArithmeticOver operators (.constant (.int value) span)
  | binary {left right : Expr} {operator : BinaryOp} {span : Span}
      (listed : operator ∈ operators) (first : ArithmeticOver operators left)
      (second : ArithmeticOver operators right) :
      ArithmeticOver operators (.binary left operator right span)
  | call {callee : String} {arguments : List Expr} {nameSpan span : Span}
      (reads : IsIdentifier callee)
      (all : ∀ argument ∈ arguments, ArithmeticOver operators argument) :
      ArithmeticOver operators (.call (.name callee nameSpan) arguments span)

theorem ArithmeticOver.of_binary {operators : List BinaryOp} {left right : Expr}
    {operator : BinaryOp} {span : Span}
    (arithmetic : ArithmeticOver operators (.binary left operator right span)) :
    operator ∈ operators ∧ ArithmeticOver operators left ∧ ArithmeticOver operators right := by
  cases arithmetic with
  | binary listed first second => exact ⟨listed, first, second⟩

theorem ArithmeticOver.of_call {operators : List BinaryOp} {callee : Expr}
    {arguments : List Expr} {span : Span}
    (arithmetic : ArithmeticOver operators (.call callee arguments span)) :
    ArithmeticOver operators callee ∧
      ∀ argument ∈ arguments, ArithmeticOver operators argument := by
  cases arithmetic with
  | call reads all => exact ⟨.name reads, all⟩

/-- Arithmetic lies in the subset. -/
theorem ArithmeticOver.isOpaqueFree {operators : List BinaryOp} {expr : Expr}
    (arithmetic : ArithmeticOver operators expr) : expr.isOpaqueFree = true := by
  induction arithmetic with
  | name => rfl
  | int => rfl
  | binary _ _ _ leftFree rightFree => rw [Expr.isOpaqueFree, leftFree, rightFree, Bool.and_self]
  | call _ _ allFree =>
      rw [Expr.isOpaqueFree, areOpaqueFree_eq_all, List.all_eq_true.mpr allFree]
      rfl

/-- Sums, products and calls. -/
abbrev Flat : Expr → Prop := ArithmeticOver [.add, .sub, .mult, .div]

/-- Sums, products, powers and calls. -/
abbrev Arithmetic : Expr → Prop := ArithmeticOver [.add, .sub, .mult, .div, .pow]

mutual

/-- How deep calls and powers nest. -/
def callDepth : Expr → Nat
  | .binary left operator right _ =>
      max left.callDepth right.callDepth + if operator = .pow then 1 else 0
  | .unary _ operand _ => operand.callDepth
  | .call callee arguments _ => max callee.callDepth (deepestCall arguments + 1)
  | .constant .. | .name .. | .unsupported .. => 0
  | .member value _ _ => value.callDepth
  | .list elements _ | .tuple elements _ => deepestCall elements

def deepestCall : List Expr → Nat
  | [] => 0
  | first :: rest => max first.callDepth (deepestCall rest)

end

theorem callDepth_le_deepestCall {arguments : List Expr} {argument : Expr}
    (member : argument ∈ arguments) : argument.callDepth ≤ deepestCall arguments := by
  induction member with
  | head => exact Nat.le_max_left _ _
  | tail _ _ inductionHypothesis => exact Nat.le_trans inductionHypothesis (Nat.le_max_right _ _)

/-! ### Powers as calls -/

mutual

/-- The tree with every power as a call of `pow`. -/
def withPowerCalls : Expr → Expr
  | .binary left .pow right span =>
      .call (.name "pow" span) [left.withPowerCalls, right.withPowerCalls] span
  | .binary left operator right span =>
      .binary left.withPowerCalls operator right.withPowerCalls span
  | .unary operator operand span => .unary operator operand.withPowerCalls span
  | .call callee arguments span => .call callee.withPowerCalls (allWithPowerCalls arguments) span
  | .constant value span => .constant value span
  | .name identifier span => .name identifier span
  | .member value memberName span => .member value.withPowerCalls memberName span
  | .list elements span => .list (allWithPowerCalls elements) span
  | .tuple elements span => .tuple (allWithPowerCalls elements) span
  | .unsupported kindName span => .unsupported kindName span

def allWithPowerCalls : List Expr → List Expr
  | [] => []
  | first :: rest => first.withPowerCalls :: allWithPowerCalls rest

end

@[simp] theorem allWithPowerCalls_eq_map (expressions : List Expr) :
    allWithPowerCalls expressions = expressions.map withPowerCalls := by
  induction expressions with
  | nil => rfl
  | cons first rest inductionHypothesis =>
      rw [allWithPowerCalls, inductionHypothesis, List.map_cons]

theorem withPowerCalls_binary {operator : BinaryOp} (notPower : operator ≠ .pow)
    (left right : Expr) (span : Span) :
    (binary left operator right span).withPowerCalls =
      .binary left.withPowerCalls operator right.withPowerCalls span := by
  cases operator <;> first | rfl | exact absurd rfl notPower

/-! ### Grouping -/

/-- The rank of the operator at the top, unless it is a power. -/
def chainRank? : Expr → Option Nat
  | .binary _ .pow _ _ => none
  | .binary _ operator _ _ => some operator.precedence
  | _ => none

theorem chainRank?_binary {operator : BinaryOp} (notPower : operator ≠ .pow)
    (left right : Expr) (span : Span) :
    (binary left operator right span).chainRank? = some operator.precedence := by
  cases operator <;> first | rfl | exact absurd rfl notPower

/-- An operator may stand between two operands without parentheses: the left one is no
chain of a looser operator, the right one no chain of a looser operator or one of the
same rank. -/
def standsBetween (operator : BinaryOp) (left right : Expr) : Bool :=
  left.chainRank?.all (operator.precedence ≤ ·) && right.chainRank?.all (operator.precedence < ·)

mutual

/-- Every operator of a sum or product may stand between its operands without
parentheses. -/
def keepsGrouping : Expr → Bool
  | .binary left operator right _ =>
      (operator == .pow || standsBetween operator left right)
        && left.keepsGrouping && right.keepsGrouping
  | .unary _ operand _ => operand.keepsGrouping
  | .call callee arguments _ => callee.keepsGrouping && allKeepGrouping arguments
  | .constant .. | .name .. | .unsupported .. => true
  | .member value _ _ => value.keepsGrouping
  | .list elements _ | .tuple elements _ => allKeepGrouping elements

def allKeepGrouping : List Expr → Bool
  | [] => true
  | first :: rest => first.keepsGrouping && allKeepGrouping rest

end

@[simp] theorem allKeepGrouping_eq_all (expressions : List Expr) :
    allKeepGrouping expressions = expressions.all keepsGrouping := by
  induction expressions with
  | nil => rfl
  | cons first rest inductionHypothesis =>
      rw [allKeepGrouping, inductionHypothesis, List.all_cons]

/-! ### Arithmetic without powers -/

theorem ne_pow_of_mem {operator : BinaryOp}
    (listed : operator ∈ [BinaryOp.add, .sub, .mult, .div]) : operator ≠ .pow := by
  rintro rfl
  exact absurd listed (by decide)

theorem precedence_le_of_mem {operator : BinaryOp}
    (listed : operator ∈ [BinaryOp.add, .sub, .mult, .div]) : operator.precedence ≤ 6 := by
  cases operator <;> first | decide | exact absurd listed (by decide)

private theorem isIdentifier_pow : IsIdentifier "pow" := by decide +kernel

/-- An operator is that of a power or one of those without powers. -/
private theorem mem_of_ne_pow {operator : BinaryOp}
    (listed : operator ∈ [BinaryOp.add, .sub, .mult, .div, .pow]) (notPower : operator ≠ .pow) :
    operator ∈ [BinaryOp.add, .sub, .mult, .div] := by
  cases operator <;> first | decide | exact absurd listed (by decide) | exact absurd rfl notPower

namespace Arithmetic

/-- With its powers as calls, an arithmetic tree is flat. -/
theorem flat {expr : Expr} (arithmetic : expr.Arithmetic) : expr.withPowerCalls.Flat := by
  induction arithmetic with
  | name reads => exact .name reads
  | int nonnegative fits => exact .int nonnegative fits
  | @binary left right operator span listed _ _ leftFlat rightFlat =>
      by_cases isPower : operator = .pow
      · subst isPower
        refine .call isIdentifier_pow ?_
        simp only [List.mem_cons, List.not_mem_nil, or_false]
        rintro argument (rfl | rfl)
        · exact leftFlat
        · exact rightFlat
      · rw [withPowerCalls_binary isPower]
        exact .binary (mem_of_ne_pow listed isPower) leftFlat rightFlat
  | call reads _ allFlat =>
      refine .call reads ?_
      rw [allWithPowerCalls_eq_map]
      intro argument member
      obtain ⟨original, inArguments, rfl⟩ := List.mem_map.mp member
      exact allFlat original inArguments

end Arithmetic

/-- Written as calls, powers nest as deep as they did. -/
private theorem deepestCall_map {arguments : List Expr}
    (same : ∀ argument ∈ arguments, argument.withPowerCalls.callDepth = argument.callDepth) :
    deepestCall (arguments.map withPowerCalls) = deepestCall arguments := by
  induction arguments with
  | nil => rfl
  | cons first rest inductionHypothesis =>
      rw [List.map_cons, deepestCall, deepestCall, same first (by simp),
        inductionHypothesis fun argument member => same argument (by simp [member])]

theorem Arithmetic.callDepth_withPowerCalls {expr : Expr} (arithmetic : expr.Arithmetic) :
    expr.withPowerCalls.callDepth = expr.callDepth := by
  induction arithmetic with
  | name => rfl
  | int => rfl
  | @binary left right operator span _ _ _ leftSame rightSame =>
      by_cases isPower : operator = .pow
      · subst isPower
        simp [withPowerCalls, callDepth, deepestCall, leftSame, rightSame]
      · rw [withPowerCalls_binary isPower, callDepth, callDepth, leftSame, rightSame]
  | call _ _ allSame =>
      rw [withPowerCalls, callDepth, callDepth, allWithPowerCalls_eq_map, deepestCall_map allSame]
      rfl

/-- Powers chain with nothing, whether they are calls or not. -/
private theorem chainRank?_withPowerCalls (expr : Expr) :
    expr.withPowerCalls.chainRank? = expr.chainRank? := by
  cases expr with
  | binary left operator right span => cases operator <;> rfl
  | _ => rfl

theorem Arithmetic.keepsGrouping_withPowerCalls {expr : Expr} (arithmetic : expr.Arithmetic) :
    expr.withPowerCalls.keepsGrouping = expr.keepsGrouping := by
  induction arithmetic with
  | name => rfl
  | int => rfl
  | @binary left right operator span _ _ _ leftSame rightSame =>
      by_cases isPower : operator = .pow
      · subst isPower
        simp [withPowerCalls, keepsGrouping, leftSame, rightSame]
      · rw [withPowerCalls_binary isPower, keepsGrouping, keepsGrouping, standsBetween,
          standsBetween, leftSame, rightSame, chainRank?_withPowerCalls,
          chainRank?_withPowerCalls]
  | call _ _ allSame =>
      rw [withPowerCalls, keepsGrouping, keepsGrouping, allWithPowerCalls_eq_map,
        allKeepGrouping_eq_all, allKeepGrouping_eq_all, List.all_map]
      congr 1
      rw [Bool.eq_iff_iff, List.all_eq_true, List.all_eq_true]
      exact forall₂_congr fun argument member => by rw [Function.comp, allSame argument member]

end Expr
end Transpiler
