import Transpiler.Grammar.Target
import Transpiler.Proofs.Syntax.Shape

/-!
Contract: the grammar of the subset, as relations between trees and token kinds.

Owns: which token kinds may stand for an expression, a statement and a module whose
nodes all lie in the subset. Locations play no part: a tree may carry any.

Every relation has a number of nesting levels that it has room for. Brackets, call
arguments, signs, `not` and exponents lead one level deeper, so a derivation with
room for `room` levels nests at most that deep along every path.

Does not own: how a derivation is found. Nothing here refers to the rules that read
tokens.
-/

namespace Transpiler

/-- The token that stands for a binary operator. -/
def BinaryOp.sign : BinaryOp → TokenKind
  | .add => .plus
  | .sub => .minus
  | .mult => .star
  | .div => .slash
  | .pow => .doubleStar
  | .floorDiv => .doubleSlash
  | .mod => .percent
  | .matMult => .atSign
  | .shiftLeft => .shiftLeft
  | .shiftRight => .shiftRight
  | .bitOr => .bar
  | .bitXor => .caret
  | .bitAnd => .ampersand

/-- The token of a binary operator is written as the operator is. -/
theorem BinaryOp.symbol_sign (operator : BinaryOp) : operator.sign.symbol = operator.symbol := by
  cases operator <;> rfl

/-- The token that stands for a unary operator. -/
def UnaryOp.sign : UnaryOp → TokenKind
  | .plus => .plus
  | .minus => .minus
  | .not => .notWord
  | .invert => .tilde

/-- The token of a unary operator is written as the operator is. -/
theorem UnaryOp.symbol_sign (operator : UnaryOp) : operator.sign.symbol = operator.symbol := by
  cases operator <;> rfl

/-- The token of a constant that is written as a single token. -/
def Constant.token? : Constant → Option TokenKind
  | .bool value => some (if value then .trueWord else .falseWord)
  | .int value => some (.int value)
  | .bigInt digits => some (.bigInt digits)
  | .float number => some (.float number)
  | .none => some .noneWord
  | .ellipsis => some .ellipsis
  | .str _ | .bytes _ => Option.none

namespace Grammar

/-! ### Expressions

The rank of an expression says what may stand where it stands. Rank zero is that of
`not`; the ranks of the binary operators follow, then the signs (seven), powers
(eight), calls and members (nine) and atoms (ten). An expression of one rank may
stand wherever one of a looser rank may. -/

mutual

/-- The token kinds that an expression may be written as where an expression of a given
rank is expected. -/
inductive Expression : Nat → Nat → Expr → List TokenKind → Prop where
  | tighter {room rank : Nat} {expr : Expr} {kinds : List TokenKind}
      (inner : Expression room (rank + 1) expr kinds) :
      Expression room rank expr kinds
  | negation {room : Nat} {operand : Expr} {kinds : List TokenKind} {span : Span}
      (inner : Expression room 0 operand kinds) :
      Expression (room + 1) 0 (.unary .not operand span) (.notWord :: kinds)
  /-- Operators of one rank group to the left: only the left operand may be of that
  rank too. -/
  | binary {room rank : Nat} {operator : BinaryOp} {left right : Expr}
      {leftKinds rightKinds : List TokenKind} {span : Span}
      (ofRank : operator.precedence = rank) (notPower : operator ≠ .pow)
      (first : Expression room rank left leftKinds)
      (second : Expression room (rank + 1) right rightKinds) :
      Expression room rank (.binary left operator right span)
        (leftKinds ++ operator.sign :: rightKinds)
  | sign {room : Nat} {operator : UnaryOp} {operand : Expr} {kinds : List TokenKind} {span : Span}
      (notNegation : operator ≠ .not) (inner : Expression room 7 operand kinds) :
      Expression (room + 1) 7 (.unary operator operand span) (operator.sign :: kinds)
  /-- Powers group to the right, and their exponent may have a sign. -/
  | power {room : Nat} {base exponent : Expr} {baseKinds exponentKinds : List TokenKind}
      {span : Span}
      (first : Expression (room + 1) 9 base baseKinds)
      (second : Expression room 7 exponent exponentKinds) :
      Expression (room + 1) 8 (.binary base .pow exponent span)
        (baseKinds ++ .doubleStar :: exponentKinds)
  | call {room : Nat} {callee : Expr} {arguments : List Expr}
      {calleeKinds argumentKinds : List TokenKind} {span : Span}
      (first : Expression (room + 1) 9 callee calleeKinds)
      (items : Items room arguments argumentKinds) :
      Expression (room + 1) 9 (.call callee arguments span)
        (calleeKinds ++ .leftParen :: (argumentKinds ++ [.rightParen]))
  | member {room : Nat} {value : Expr} {kinds : List TokenKind} {memberName : String}
      {span : Span}
      (first : Expression room 9 value kinds) :
      Expression room 9 (.member value memberName span) (kinds ++ [.dot, .ident memberName])
  | name {room : Nat} {identifier : String} {span : Span} :
      Expression room 10 (.name identifier span) [.ident identifier]
  | constant {room : Nat} {value : Constant} {kind : TokenKind} {span : Span}
      (single : value.token? = some kind) :
      Expression room 10 (.constant value span) [kind]
  /-- A string may be written as several literals side by side. -/
  | text {room : Nat} {parts : List String} {span : Span} (nonempty : parts ≠ []) :
      Expression room 10 (.constant (.str (String.join parts)) span) (parts.map .str)
  | bytes {room : Nat} {parts : List (List UInt8)} {span : Span} (nonempty : parts ≠ []) :
      Expression room 10 (.constant (.bytes parts.flatten) span) (parts.map .bytes)
  /-- Parentheses may stand around any expression; around several they make a tuple an
  atom. -/
  | group {room : Nat} {expr : Expr} {kinds : List TokenKind}
      (inner : ExpressionList room expr kinds) :
      Expression (room + 1) 10 expr (.leftParen :: (kinds ++ [.rightParen]))
  | unit {room : Nat} {span : Span} :
      Expression (room + 1) 10 (.tuple [] span) [.leftParen, .rightParen]
  | list {room : Nat} {elements : List Expr} {kinds : List TokenKind} {span : Span}
      (items : Items room elements kinds) :
      Expression (room + 1) 10 (.list elements span) (.leftBracket :: (kinds ++ [.rightBracket]))

/-- Expressions separated by commas; one more comma may follow the last. -/
inductive Items : Nat → List Expr → List TokenKind → Prop where
  | none {room : Nat} : Items room [] []
  | last {room : Nat} {expr : Expr} {kinds : List TokenKind}
      (first : Expression room 0 expr kinds) :
      Items room [expr] kinds
  | more {room : Nat} {expr : Expr} {rest : List Expr} {kinds restKinds : List TokenKind}
      (first : Expression room 0 expr kinds) (others : Items room rest restKinds) :
      Items room (expr :: rest) (kinds ++ .comma :: restKinds)

/-- One expression, or a tuple without parentheses, which needs a comma. -/
inductive ExpressionList : Nat → Expr → List TokenKind → Prop where
  | single {room : Nat} {expr : Expr} {kinds : List TokenKind}
      (only : Expression room 0 expr kinds) :
      ExpressionList room expr kinds
  | tuple {room : Nat} {first : Expr} {rest : List Expr} {kinds restKinds : List TokenKind}
      {span : Span}
      (head : Expression room 0 first kinds) (others : Items room rest restKinds) :
      ExpressionList room (.tuple (first :: rest) span) (kinds ++ .comma :: restKinds)

end

/-- An expression of one rank may stand where one of a looser rank may. -/
theorem Expression.of_le {room rank looser : Nat} {expr : Expr} {kinds : List TokenKind}
    (le : looser ≤ rank) (inner : Expression room rank expr kinds) :
    Expression room looser expr kinds := by
  induction le with
  | refl => exact inner
  | step _ inductionHypothesis => exact inductionHypothesis (.tighter inner)

mutual

/-- Locations play no part in a derivation. -/
theorem Expression.of_unlocated_eq {room rank : Nat} {expr : Expr} {kinds : List TokenKind} :
    Expression room rank expr kinds →
      ∀ other : Expr, other.unlocated = expr.unlocated → Expression room rank other kinds
  | .tighter inner, other, same => .tighter (inner.of_unlocated_eq other same)
  | .negation inner, other, same => by
      cases other <;> simp [Expr.unlocated] at same
      obtain ⟨rfl, sameOperand⟩ := same
      exact .negation (inner.of_unlocated_eq _ sameOperand)
  | .binary ofRank notPower first second, other, same => by
      cases other <;> simp [Expr.unlocated] at same
      obtain ⟨sameLeft, rfl, sameRight⟩ := same
      exact .binary ofRank notPower (first.of_unlocated_eq _ sameLeft)
        (second.of_unlocated_eq _ sameRight)
  | .sign notNegation inner, other, same => by
      cases other <;> simp [Expr.unlocated] at same
      obtain ⟨rfl, sameOperand⟩ := same
      exact .sign notNegation (inner.of_unlocated_eq _ sameOperand)
  | .power first second, other, same => by
      cases other <;> simp [Expr.unlocated] at same
      obtain ⟨sameBase, rfl, sameExponent⟩ := same
      exact .power (first.of_unlocated_eq _ sameBase) (second.of_unlocated_eq _ sameExponent)
  | .call first items, other, same => by
      cases other <;> simp [Expr.unlocated] at same
      exact .call (first.of_unlocated_eq _ same.1) (items.of_unlocated_eq _ same.2)
  | .member first, other, same => by
      cases other <;> simp [Expr.unlocated] at same
      obtain ⟨sameValue, rfl⟩ := same
      exact .member (first.of_unlocated_eq _ sameValue)
  | .name, other, same => by
      cases other <;> simp [Expr.unlocated] at same
      obtain rfl := same
      exact .name
  | .constant single, other, same => by
      cases other <;> simp [Expr.unlocated] at same
      obtain rfl := same
      exact .constant single
  | .text nonempty, other, same => by
      cases other <;> simp [Expr.unlocated] at same
      obtain rfl := same
      exact .text nonempty
  | .bytes nonempty, other, same => by
      cases other <;> simp [Expr.unlocated] at same
      obtain rfl := same
      exact .bytes nonempty
  | .group inner, other, same => .group (inner.of_unlocated_eq other same)
  | .unit, other, same => by
      cases other <;> simp [Expr.unlocated] at same
      obtain rfl := same
      exact .unit
  | .list items, other, same => by
      cases other <;> simp [Expr.unlocated] at same
      exact .list (items.of_unlocated_eq _ same)

theorem Items.of_unlocated_eq {room : Nat} {elements : List Expr} {kinds : List TokenKind} :
    Items room elements kinds →
      ∀ others : List Expr, others.map Expr.unlocated = elements.map Expr.unlocated →
        Items room others kinds
  | .none, others, same => by
      obtain rfl := List.map_eq_nil_iff.mp same
      exact .none
  | .last first, others, same => by
      obtain ⟨other, rest, rfl, sameFirst, sameRest⟩ := List.map_eq_cons_iff.mp same
      obtain rfl := List.map_eq_nil_iff.mp sameRest
      exact .last (first.of_unlocated_eq other sameFirst)
  | .more first items, others, same => by
      obtain ⟨other, rest, rfl, sameFirst, sameRest⟩ := List.map_eq_cons_iff.mp same
      exact .more (first.of_unlocated_eq other sameFirst) (items.of_unlocated_eq rest sameRest)

theorem ExpressionList.of_unlocated_eq {room : Nat} {expr : Expr} {kinds : List TokenKind} :
    ExpressionList room expr kinds →
      ∀ other : Expr, other.unlocated = expr.unlocated → ExpressionList room other kinds
  | .single only, other, same => .single (only.of_unlocated_eq other same)
  | .tuple head items, other, same => by
      cases other <;> simp [Expr.unlocated] at same
      obtain ⟨first, rest, rfl, sameFirst, sameRest⟩ := List.map_eq_cons_iff.mp same
      exact .tuple (head.of_unlocated_eq first sameFirst) (items.of_unlocated_eq rest sameRest)

end

/-! ### Statements -/

/-- What may be assigned to. -/
inductive Assignable : TargetUse → Expr → Prop where
  | name {use : TargetUse} {identifier : String} {span : Span} :
      Assignable use (.name identifier span)
  | member {use : TargetUse} {value : Expr} {memberName : String} {span : Span} :
      Assignable use (.member value memberName span)
  | subscript {use : TargetUse} {span : Span} :
      Assignable use (.unsupported "Subscript" span)
  /-- Only a plain assignment takes its value apart. -/
  | tuple {elements : List Expr} {span : Span}
      (all : ∀ element ∈ elements, Assignable .assign element) :
      Assignable .assign (.tuple elements span)
  | list {elements : List Expr} {span : Span}
      (all : ∀ element ∈ elements, Assignable .assign element) :
      Assignable .assign (.list elements span)

/-- The targets of an assignment, each with the equals sign after it. -/
inductive Targets (room : Nat) : List Expr → List TokenKind → Prop where
  | none : Targets room [] []
  | more {target : Expr} {rest : List Expr} {kinds restKinds : List TokenKind}
      (first : ExpressionList room target kinds) (assignable : Assignable .assign target)
      (others : Targets room rest restKinds) :
      Targets room (target :: rest) (kinds ++ .equals :: restKinds)

/-- The token kinds that a statement may be written as. -/
inductive Statement (room : Nat) : Stmt → List TokenKind → Prop where
  | pass {span : Span} : Statement room (.pass span) [.passWord]
  | expression {value : Expr} {kinds : List TokenKind} {span : Span}
      (written : ExpressionList room value kinds) :
      Statement room (.expression value span) kinds
  | declaration {target annotation : Expr} {targetKinds annotationKinds : List TokenKind}
      {span : Span}
      (first : ExpressionList room target targetKinds) (assignable : Assignable .annotated target)
      (second : Expression room 0 annotation annotationKinds) :
      Statement room (.annotated target annotation none span)
        (targetKinds ++ .colon :: annotationKinds)
  | annotated {target annotation value : Expr}
      {targetKinds annotationKinds valueKinds : List TokenKind} {span : Span}
      (first : ExpressionList room target targetKinds) (assignable : Assignable .annotated target)
      (second : Expression room 0 annotation annotationKinds)
      (third : ExpressionList room value valueKinds) :
      Statement room (.annotated target annotation (some value) span)
        (targetKinds ++ .colon :: (annotationKinds ++ .equals :: valueKinds))
  | assign {targets : List Expr} {value : Expr} {targetKinds valueKinds : List TokenKind}
      {span : Span}
      (nonempty : targets ≠ []) (first : Targets room targets targetKinds)
      (second : ExpressionList room value valueKinds) :
      Statement room (.assign targets value span) (targetKinds ++ valueKinds)
  | augmented {target value : Expr} {operator : BinaryOp} {targetKinds valueKinds : List TokenKind}
      {span : Span}
      (first : ExpressionList room target targetKinds) (assignable : Assignable .augmented target)
      (second : ExpressionList room value valueKinds) :
      Statement room (.augmented target operator value span)
        (targetKinds ++ .augmented operator.symbol :: valueKinds)

/-- Statements separated by semicolons; one more semicolon may follow the last. -/
inductive Line (room : Nat) : List Stmt → List TokenKind → Prop where
  | last {statement : Stmt} {kinds : List TokenKind} (only : Statement room statement kinds) :
      Line room [statement] kinds
  | closed {statement : Stmt} {kinds : List TokenKind} (only : Statement room statement kinds) :
      Line room [statement] (kinds ++ [.semicolon])
  | more {statement : Stmt} {rest : List Stmt} {kinds restKinds : List TokenKind}
      (first : Statement room statement kinds) (others : Line room rest restKinds) :
      Line room (statement :: rest) (kinds ++ .semicolon :: restKinds)

/-- Lines, each ended by a line end; the end of the tokens may end the last one, and
further line ends may stand between lines. -/
inductive Lines (room : Nat) : List Stmt → List TokenKind → Prop where
  | none : Lines room [] []
  | blank {rest : List Stmt} {kinds : List TokenKind} (others : Lines room rest kinds) :
      Lines room rest (.newline :: kinds)
  | last {statements : List Stmt} {kinds : List TokenKind} (only : Line room statements kinds) :
      Lines room statements kinds
  | more {statements rest : List Stmt} {kinds restKinds : List TokenKind}
      (first : Line room statements kinds) (others : Lines room rest restKinds) :
      Lines room (statements ++ rest) (kinds ++ .newline :: restKinds)

end Grammar
end Transpiler
