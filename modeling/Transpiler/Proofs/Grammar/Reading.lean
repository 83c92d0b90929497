import Transpiler.Proofs.Grammar.ExpressionOutline

/-!
Contract: the ways in which expressions are read from tokens.

Owns: one relation between the tokens that are taken and the expression that is made of them, with a
constructor for each step by which the rules put an expression together (`Reading.Expression`); that
such tokens are those of the expression (`Reading.Expression.occupies`) and what they look like
outside brackets (`Reading.Expression.woven`).

Whatever holds of all expressions that are read follows by induction on the relation. Constructs
outside the subset have no parts there: of their tokens only the outline is known.

Does not own: that the rules read expressions this way and no other.
-/

namespace Transpiler

open Extent

/-- The kinds of expressions outside the subset. -/
def outsideExpressions : List String :=
  ["JoinedStr", "Dict", "DictComp", "SetComp", "Set", "GeneratorExp", "ListComp", "Subscript",
    "Await", "Compare", "BoolOp", "Lambda", "IfExp", "NamedExpr", "YieldFrom", "Yield"]

namespace Reading

mutual

/-- The tokens from which an expression of a rank is read, with room for a number of nesting
levels. -/
inductive Expression : Nat → Nat → List Token → Expr → Prop where
  | tighter {room rank : Nat} {tokens : List Token} {expr : Expr}
      (inner : Expression room (rank + 1) tokens expr) : Expression room rank tokens expr
  | simple {room : Nat} {token : Token} {expr : Expr} (isSimple : simpleAtom? token = some expr) :
      Expression room 10 [token] expr
  | strings {room : Nat} {tokens : List Token} {first last : Token} {expr : Expr}
      (literals : ∀ token ∈ tokens, isStringToken token = true)
      (isFirst : tokens.head? = some first) (isLast : tokens.getLast? = some last)
      (joined : joinStrings tokens (first.span.cover last.span) = .ok expr) :
      Expression room 10 tokens expr
  | unit {room : Nat} {opened closed : Token} (opens : opened.kind = .leftParen)
      (closes : closed.kind = .rightParen) :
      Expression (room + 1) 10 [opened, closed] (.tuple [] (opened.span.cover closed.span))
  | group {room : Nat} {opened closed : Token} {inner : List Token} {expr : Expr}
      (opens : opened.kind = .leftParen) (inside : Whole room inner expr)
      (closes : closed.kind = .rightParen) :
      Expression (room + 1) 10 (opened :: (inner ++ [closed])) expr
  /-- The parentheses around a tuple become its own. -/
  | tuple {room : Nat} {opened closed : Token} {inner : List Token} {elements : List Expr}
      {span : Span} (opens : opened.kind = .leftParen)
      (inside : Whole room inner (.tuple elements span)) (closes : closed.kind = .rightParen) :
      Expression (room + 1) 10 (opened :: (inner ++ [closed]))
        (.tuple elements (opened.span.cover closed.span))
  | list {room : Nat} {opened closed : Token} {inner : List Token} {isItem : Bool}
      {elements : List Expr} (opens : opened.kind = .leftBracket)
      (items : Sequence room isItem inner elements) (closes : closed.kind = .rightBracket) :
      Expression (room + 1) 10 (opened :: (inner ++ [closed]))
        (.list elements (opened.span.cover closed.span))
  | call {room : Nat} {tokens inner : List Token} {opened closed : Token} {callee : Expr}
      {arguments : List Expr} (head : Expression (room + 1) 9 tokens callee)
      (opens : opened.kind = .leftParen) (items : Arguments room inner arguments)
      (closes : closed.kind = .rightParen) :
      Expression (room + 1) 9 (tokens ++ opened :: (inner ++ [closed]))
        (.call callee arguments (callee.span.cover closed.span))
  | member {room : Nat} {tokens : List Token} {dot word : Token} {value : Expr}
      {memberName : String} (head : Expression room 9 tokens value) (isDot : dot.kind = .dot)
      (isName : word.kind = .ident memberName) :
      Expression room 9 (tokens ++ [dot, word])
        (.member value memberName (value.span.cover word.span))
  | power {room : Nat} {tokens others : List Token} {sign : Token} {base exponent : Expr}
      (first : Expression (room + 1) 9 tokens base) (isSign : sign.kind = .doubleStar)
      (second : Expression room 7 others exponent) :
      Expression (room + 1) 8 (tokens ++ sign :: others)
        (.binary base .pow exponent (base.span.cover exponent.span))
  | sign {room : Nat} {sign : Token} {tokens : List Token} {operand : Expr} {operator : UnaryOp}
      (isSign : signOperator? sign.kind = some operator)
      (only : Expression room 7 tokens operand) :
      Expression (room + 1) 7 (sign :: tokens)
        (.unary operator operand (sign.span.cover operand.span))
  | binary {room rank : Nat} {tokens others : List Token} {sign : Token} {left right : Expr}
      {operator : BinaryOp} (first : Expression room rank tokens left)
      (isOperator : binaryOperator? sign.kind = some operator)
      (ofRank : operator.precedence = rank) (second : Expression room (rank + 1) others right) :
      Expression room rank (tokens ++ sign :: others)
        (.binary left operator right (left.span.cover right.span))
  | negation {room : Nat} {word : Token} {tokens : List Token} {operand : Expr}
      (isWord : word.kind = .notWord) (only : Expression room 0 tokens operand) :
      Expression (room + 1) 0 (word :: tokens)
        (.unary .not operand (word.span.cover operand.span))
  /-- A construct outside the subset. -/
  | outside {room rank : Nat} {tokens : List Token} {first last : Token} {kindName : String}
      (isOutside : kindName ∈ outsideExpressions) (visible : first.kind.isLayout = false)
      (isFirst : tokens.head? = some first) (isLast : tokens.getLast? = some last)
      (woven : Woven tokens) :
      Expression room rank tokens (.unsupported kindName (first.span.cover last.span))
  /-- A construct outside the subset that begins with an expression. -/
  | since {room rank inner innerRank : Nat} {tokens rest : List Token} {last : Token}
      {expr : Expr} {kindName : String} (isOutside : kindName ∈ outsideExpressions)
      (head : Expression inner innerRank tokens expr) (woven : Woven rest)
      (isLast : (tokens ++ rest).getLast? = some last) :
      Expression room rank (tokens ++ rest)
        (.unsupported kindName (expr.span.cover last.span))

/-- Expressions with commas between them; the last token may belong to an expression or be a
comma. -/
inductive Sequence : Nat → Bool → List Token → List Expr → Prop where
  | none {room : Nat} : Sequence room false [] []
  | item {room : Nat} {tokens own : List Token} {exprs : List Expr} {expr : Expr}
      (before : Sequence room false tokens exprs) (item : Expression room 0 own expr) :
      Sequence room true (tokens ++ own) (exprs ++ [expr])
  | comma {room : Nat} {tokens : List Token} {comma : Token} {exprs : List Expr}
      (before : Sequence room true tokens exprs) (isComma : comma.kind = .comma) :
      Sequence room false (tokens ++ [comma]) exprs

/-- What stands between the parentheses of a call. -/
inductive Arguments : Nat → List Token → List Expr → Prop where
  | items {room : Nat} {isItem : Bool} {tokens : List Token} {exprs : List Expr}
      (items : Sequence room isItem tokens exprs) : Arguments room tokens exprs
  | generator {room : Nat} {tokens own rest : List Token} {last : Token} {exprs : List Expr}
      {expr : Expr} (before : Sequence room false tokens exprs)
      (item : Expression room 0 own expr) (closed : Closed false rest)
      (isLast : (own ++ rest).getLast? = some last) :
      Arguments room (tokens ++ (own ++ rest))
        (exprs ++ [.unsupported "GeneratorExp" (expr.span.cover last.span)])

/-- One expression, or a tuple without parentheses of its own. -/
inductive Whole : Nat → List Token → Expr → Prop where
  | single {room : Nat} {tokens : List Token} {expr : Expr}
      (only : Expression room 0 tokens expr) : Whole room tokens expr
  | tuple {room : Nat} {isItem : Bool} {tokens rest : List Token} {comma last : Token}
      {first : Expr} {others : List Expr} (head : Expression room 0 tokens first)
      (isComma : comma.kind = .comma) (items : Sequence room isItem rest others)
      (isLast : (tokens ++ comma :: rest).getLast? = some last) :
      Whole room (tokens ++ comma :: rest)
        (.tuple (first :: others) (first.span.cover last.span))

end

variable {room rank : Nat} {isItem : Bool} {tokens : List Token} {token : Token} {expr : Expr}
  {exprs : List Expr} {kind : TokenKind}

/-- An expression of one rank may stand where one of a looser rank may. -/
theorem Expression.of_le {looser : Nat} (le : looser ≤ rank)
    (inner : Expression room rank tokens expr) : Expression room looser tokens expr := by
  induction le with
  | refl => exact inner
  | step _ inductionHypothesis => exact inductionHypothesis (.tighter inner)

/-! ### Plain tokens -/

theorem plain_of_simpleAtom? (isSimple : simpleAtom? token = some expr) :
    token.kind.isPlain = true ∧ token.kind ≠ .colon := by
  rw [simpleAtom?] at isSimple
  generalize token.kind = kind at isSimple
  cases kind <;> cases isSimple <;> exact ⟨rfl, by simp⟩

theorem plain_of_isStringToken (isLiteral : isStringToken token = true) :
    token.kind.isPlain = true ∧ token.kind ≠ .colon := by
  rw [isStringToken] at isLiteral
  generalize token.kind = kind at isLiteral
  cases kind <;> cases isLiteral <;> exact ⟨rfl, by simp⟩

theorem plain_of_signOperator? {operator : UnaryOp} (isSign : signOperator? kind = some operator) :
    kind.isPlain = true ∧ kind ≠ .colon := by
  cases kind <;> cases isSign <;> exact ⟨rfl, by simp⟩

theorem plain_of_binaryOperator? {operator : BinaryOp}
    (isOperator : binaryOperator? kind = some operator) :
    kind.isPlain = true ∧ kind ≠ .colon := by
  cases kind <;> cases isOperator <;> exact ⟨rfl, by simp⟩

/-! ### The tokens of what is read -/

theorem occupies_of_simpleAtom? (isSimple : simpleAtom? token = some expr) :
    Occupies [token] expr := by
  have isPlain := (plain_of_simpleAtom? isSimple).1
  have known : expr.children = [] ∧ expr.span = token.span := by
    rw [simpleAtom?] at isSimple
    generalize token.kind = kind at isSimple
    cases kind <;> simp only [Option.some.injEq, reduceCtorEq] at isSimple <;>
      rw [← isSimple] <;> exact ⟨rfl, rfl⟩
  refine .bare (.leaf (by simpa using isPlain) rfl rfl known.1 ?_)
  rw [known.2]
  simp [Span.cover]

/-- Joined literals have no parts, and are located where they are said to be. -/
theorem joinStrings_located (span : Span) :
    (∀ expr, joinStrings tokens span = .ok expr → expr.children = [] ∧ expr.span = span) ∧
      ∀ error, joinStrings tokens span = .error error → error = ⟨.mixedLiterals, span⟩ := by
  have joins {made : Expr} (noParts : made.children = []) (located : made.span = span) :
      (∀ expr, (.ok made : Except ParseError Expr) = .ok expr →
        expr.children = [] ∧ expr.span = span) ∧
        ∀ error, (.ok made : Except ParseError Expr) = .error error →
          error = ⟨.mixedLiterals, span⟩ := by
    refine ⟨?_, by simp⟩
    rintro expr ⟨⟩
    exact ⟨noParts, located⟩
  unfold joinStrings
  dsimp only
  split
  · refine ⟨by simp, ?_⟩
    rintro error ⟨⟩
    rfl
  split
  · exact joins rfl rfl
  split
  · exact joins rfl rfl
  · exact joins rfl rfl

mutual

/-- The tokens from which an expression is read are its tokens. -/
theorem Expression.occupies {room rank : Nat} {tokens : List Token} {expr : Expr} :
    Expression room rank tokens expr → Occupies tokens expr
  | .tighter inner => inner.occupies
  | .simple isSimple => occupies_of_simpleAtom? isSimple
  | .strings literals isFirst isLast joined => by
      obtain ⟨noParts, located⟩ := (joinStrings_located _).1 _ joined
      refine .bare (.leaf ?_ isFirst isLast noParts located)
      intro token member
      exact (plain_of_isStringToken (literals token member)).1
  | .unit opens closes => .bare (.tuple opens closes .none)
  | .group opens inside closes => .group opens closes inside.occupies
  | .tuple opens inside closes => .bare (.tuple opens closes (inside.occupies.spread_elements rfl))
  | .list opens items closes => .bare (.list opens closes items.spread)
  | .call head opens items closes => .bare (.call head.occupies opens closes items.spread)
  | .member head isDot isName =>
      .bare (.member head.occupies (by rw [isDot]; rfl) (by rw [isName]; rfl))
  | .power first isSign second =>
      .bare (.binary first.occupies (by rw [isSign]; rfl) second.occupies)
  | .sign isSign only => .bare (.unary (plain_of_signOperator? isSign).1 only.occupies)
  | .binary first isOperator _ second =>
      .bare (.binary first.occupies (plain_of_binaryOperator? isOperator).1 second.occupies)
  | .negation isWord only => .bare (.unary (by rw [isWord]; rfl) only.occupies)
  | .outside _ visible isFirst isLast woven => .bare (.outside visible isFirst isLast woven.closed)
  | .since _ head woven isLast => .bare (.since head.occupies woven.closed isLast)

theorem Sequence.spread {room : Nat} {isItem : Bool} {tokens : List Token} {exprs : List Expr} :
    Sequence room isItem tokens exprs → Spread tokens exprs
  | .none => .none
  | .item before item => before.spread.append (.single item.occupies)
  | .comma before isComma => before.spread.separator (by rw [isComma]; rfl)

theorem Arguments.spread {room : Nat} {tokens : List Token} {exprs : List Expr} :
    Arguments room tokens exprs → Spread tokens exprs
  | .items items => items.spread
  | .generator before item closed isLast =>
      before.spread.append (.single (.bare (.since item.occupies closed isLast)))

theorem Whole.occupies {room : Nat} {tokens : List Token} {expr : Expr} :
    Whole room tokens expr → Occupies tokens expr
  | .single only => only.occupies
  | .tuple head isComma items isLast =>
      .bare (.bareTuple head.occupies (.plain (by rw [isComma]; rfl) items.spread) isLast)

end

/-! ### The outline of what is read -/

/-- Contents between brackets. -/
private theorem woven_bracketed {opened closed : Token} (opens : opened.kind.opensBracket = true)
    (contents : Closed false tokens) (closes : closed.kind.closesBracket = true) :
    Woven (opened :: (tokens ++ [closed])) :=
  .bracketed opens contents closes .none

mutual

/-- Outside brackets, an expression is made of plain tokens and lambdas. -/
theorem Expression.woven {room rank : Nat} {tokens : List Token} {expr : Expr} :
    Expression room rank tokens expr → Woven tokens
  | .tighter inner => inner.woven
  | .simple isSimple => by
      obtain ⟨isPlain, notColon⟩ := plain_of_simpleAtom? isSimple
      exact .plain isPlain notColon .none
  | .strings literals _ _ _ => .allPlain fun token member =>
      plain_of_isStringToken (literals token member)
  | .unit opens closes =>
      @woven_bracketed [] _ _ (by rw [opens]; rfl) .nil (by rw [closes]; rfl)
  | .group opens inside closes | .tuple opens inside closes =>
      woven_bracketed (by rw [opens]; rfl) (inside.occupies.closed (by simp)) (by rw [closes]; rfl)
  | .list opens items closes =>
      woven_bracketed (by rw [opens]; rfl) (items.spread.closed (by simp)) (by rw [closes]; rfl)
  | .call head opens items closes => head.woven.append
      (woven_bracketed (by rw [opens]; rfl) (items.spread.closed (by simp)) (by rw [closes]; rfl))
  | .member head isDot isName => head.woven.append (.plain (by rw [isDot]; rfl) (by simp [isDot])
      (.plain (by rw [isName]; rfl) (by simp [isName]) .none))
  | .power first isSign second =>
      first.woven.append (.plain (by rw [isSign]; rfl) (by simp [isSign]) second.woven)
  | .sign isSign only => by
      obtain ⟨isPlain, notColon⟩ := plain_of_signOperator? isSign
      exact .plain isPlain notColon only.woven
  | .binary first isOperator _ second => by
      obtain ⟨isPlain, notColon⟩ := plain_of_binaryOperator? isOperator
      exact first.woven.append (.plain isPlain notColon second.woven)
  | .negation isWord only => .plain (by rw [isWord]; rfl) (by simp [isWord]) only.woven
  | .outside _ _ _ _ woven => woven
  | .since _ head woven _ => head.woven.append woven

theorem Sequence.woven {room : Nat} {isItem : Bool} {tokens : List Token} {exprs : List Expr} :
    Sequence room isItem tokens exprs → Woven tokens
  | .none => .none
  | .item before item => before.woven.append item.woven
  | .comma before isComma =>
      before.woven.append (.plain (by rw [isComma]; rfl) (by simp [isComma]) .none)

theorem Whole.woven {room : Nat} {tokens : List Token} {expr : Expr} :
    Whole room tokens expr → Woven tokens
  | .single only => only.woven
  | .tuple head isComma items _ =>
      head.woven.append (.plain (by rw [isComma]; rfl) (by simp [isComma]) items.woven)

end

end Reading
end Transpiler
