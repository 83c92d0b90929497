import Transpiler.Proofs.Grammar.Balance
import Transpiler.Proofs.Token.Brackets

/-!
Contract: the tokens that a node of a tree was read from.

Owns: the nodes of a tree, and how the tokens of a node are made up of those of its parts and
which location the node has because of it. Nodes outside the subset have no parts; of what
stands in them only the brackets are known.

Does not own: that the grammar rules read trees this way, and what follows for locations.
-/

namespace Transpiler

/-! ### The nodes of a tree -/

namespace Expr

/-- The parts that a node is directly built from, in source order. -/
def children : Expr → List Expr
  | .binary left _ right _ => [left, right]
  | .unary _ operand _ => [operand]
  | .call callee arguments _ => callee :: arguments
  | .member value _ _ => [value]
  | .list elements _ | .tuple elements _ => elements
  | .constant .. | .name .. | .unsupported .. => []

mutual

/-- The node and all nodes below it. -/
def nodes (expr : Expr) : List Expr :=
  match expr with
  | .binary left _ right _ => expr :: (left.nodes ++ right.nodes)
  | .unary _ operand _ => expr :: operand.nodes
  | .call callee arguments _ => expr :: (callee.nodes ++ allNodes arguments)
  | .member value _ _ => expr :: value.nodes
  | .list elements _ => expr :: allNodes elements
  | .tuple elements _ => expr :: allNodes elements
  | .constant .. => [expr]
  | .name .. => [expr]
  | .unsupported .. => [expr]

def allNodes : List Expr → List Expr
  | [] => []
  | first :: rest => first.nodes ++ allNodes rest

end

private theorem allNodes_eq_flatMap (expressions : List Expr) :
    allNodes expressions = expressions.flatMap nodes := by
  induction expressions with
  | nil => rfl
  | cons first rest inductionHypothesis =>
      rw [allNodes, inductionHypothesis, List.flatMap_cons]

theorem nodes_eq (expr : Expr) : expr.nodes = expr :: expr.children.flatMap nodes := by
  cases expr <;> simp [nodes, children, allNodes_eq_flatMap]

theorem mem_nodes_self (expr : Expr) : expr ∈ expr.nodes := by
  rw [nodes_eq]
  exact List.mem_cons_self

theorem mem_nodes_iff {expr node : Expr} :
    node ∈ expr.nodes ↔ node = expr ∨ ∃ child ∈ expr.children, node ∈ child.nodes := by
  rw [nodes_eq, List.mem_cons, List.mem_flatMap]

end Expr

/-- The expressions that a statement is directly built from, in source order. -/
def Stmt.children : Stmt → List Expr
  | .annotated target annotation value _ => target :: annotation :: value.toList
  | .expression value _ => [value]
  | .assign targets value _ => targets ++ [value]
  | .augmented target _ value _ => [target, value]
  | .pass _ | .unsupported .. => []

/-! ### Stretches of tokens -/

/-- A kind of tokens that are neither brackets nor marks of lines and blocks. -/
def TokenKind.isPlain (kind : TokenKind) : Bool :=
  !kind.opensBracket && !kind.closesBracket && !kind.isLayout

namespace Extent

/-- Tokens of one line whose brackets close. -/
structure Closed (matching : Bool) (tokens : List Token) : Prop where
  balanced : Brackets.Balanced matching (tokens.map (·.kind))
  inLine : ∀ token ∈ tokens, Parser.endsLine token.kind = false

theorem endsLine_of_isLayout {kind : TokenKind} (plain : kind.isLayout = false) :
    Parser.endsLine kind = false := by
  cases kind <;> first | rfl | contradiction

theorem isLayout_of_opensBracket {kind : TokenKind} (opens : kind.opensBracket = true) :
    kind.isLayout = false := by
  cases kind <;> first | rfl | contradiction

theorem isLayout_of_closesBracket {kind : TokenKind} (closes : kind.closesBracket = true) :
    kind.isLayout = false := by
  cases kind <;> first | rfl | contradiction

namespace Closed

variable {matching : Bool} {tokens others : List Token} {token opened closed : Token}

theorem nil : Closed matching [] :=
  ⟨.nil, by simp⟩

theorem append (first : Closed matching tokens) (second : Closed matching others) :
    Closed matching (tokens ++ others) where
  balanced := by
    rw [List.map_append]
    exact first.balanced.append second.balanced
  inLine := by
    intro token member
    rcases List.mem_append.mp member with inFirst | inSecond
    · exact first.inLine token inFirst
    · exact second.inLine token inSecond

theorem plain (isPlain : token.kind.isPlain = true) : Closed matching [token] := by
  simp only [TokenKind.isPlain, Bool.and_eq_true, Bool.not_eq_true'] at isPlain
  refine ⟨.single isPlain.1.1 isPlain.1.2, ?_⟩
  simpa using endsLine_of_isLayout isPlain.2

theorem cons (isPlain : token.kind.isPlain = true) (rest : Closed matching tokens) :
    Closed matching (token :: tokens) :=
  (plain isPlain).append rest

theorem allPlain (all : ∀ token ∈ tokens, token.kind.isPlain = true) : Closed matching tokens := by
  induction tokens with
  | nil => exact .nil
  | cons first rest inductionHypothesis =>
      refine .cons (all first List.mem_cons_self) (inductionHypothesis ?_)
      intro token member
      exact all token (List.mem_cons_of_mem first member)

/-- Tokens between a pair of brackets. -/
theorem wrap (opens : opened.kind.opensBracket = true)
    (closes : closed.kind.closesBracket = true)
    (fits : Brackets.pairs matching opened.kind closed.kind = true)
    (inner : Closed matching tokens) : Closed matching (opened :: (tokens ++ [closed])) where
  balanced := by
    have noOpening : closed.kind.opensBracket = false := by
      by_contra opensToo
      have noClosing := TokenKind.closesBracket_of_opensBracket (by simpa using opensToo)
      rw [closes] at noClosing
      contradiction
    rw [List.map_cons, List.map_append]
    exact inner.balanced.wrap opens noOpening closes fits
  inLine := by
    simp only [List.mem_cons, List.mem_append, List.not_mem_nil, or_false]
    rintro token (rfl | inside | rfl)
    · exact endsLine_of_isLayout (isLayout_of_opensBracket opens)
    · exact inner.inLine token inside
    · exact endsLine_of_isLayout (isLayout_of_closesBracket closes)

theorem parens (opens : opened.kind = .leftParen) (closes : closed.kind = .rightParen)
    (inner : Closed matching tokens) : Closed matching (opened :: (tokens ++ [closed])) := by
  refine inner.wrap (by rw [opens]; rfl) (by rw [closes]; rfl) ?_
  rw [opens, closes]
  cases matching <;> rfl

theorem brackets (opens : opened.kind = .leftBracket) (closes : closed.kind = .rightBracket)
    (inner : Closed matching tokens) : Closed matching (opened :: (tokens ++ [closed])) := by
  refine inner.wrap (by rw [opens]; rfl) (by rw [closes]; rfl) ?_
  rw [opens, closes]
  cases matching <;> rfl

end Closed

/-! ### The tokens of a node -/

mutual

/-- The tokens that form a node, from its first part or token to its last one. -/
inductive Forms : List Token → Expr → Prop where
  /-- Tokens that are a node together and have no parts. -/
  | leaf {tokens : List Token} {first last : Token} {expr : Expr}
      (plain : ∀ token ∈ tokens, token.kind.isPlain = true)
      (isFirst : tokens.head? = some first) (isLast : tokens.getLast? = some last)
      (noParts : expr.children = []) (located : expr.span = first.span.cover last.span) :
      Forms tokens expr
  | list {opened closed : Token} {inner : List Token} {elements : List Expr}
      (opens : opened.kind = .leftBracket) (closes : closed.kind = .rightBracket)
      (items : Spread inner elements) :
      Forms (opened :: (inner ++ [closed])) (.list elements (opened.span.cover closed.span))
  | tuple {opened closed : Token} {inner : List Token} {elements : List Expr}
      (opens : opened.kind = .leftParen) (closes : closed.kind = .rightParen)
      (items : Spread inner elements) :
      Forms (opened :: (inner ++ [closed])) (.tuple elements (opened.span.cover closed.span))
  /-- A tuple without parentheses of its own. -/
  | bareTuple {tokens rest : List Token} {last : Token} {first : Expr} {others : List Expr}
      (head : Occupies tokens first) (items : Spread rest others)
      (isLast : (tokens ++ rest).getLast? = some last) :
      Forms (tokens ++ rest) (.tuple (first :: others) (first.span.cover last.span))
  | binary {leftTokens rightTokens : List Token} {sign : Token} {left right : Expr}
      {operator : BinaryOp} (first : Occupies leftTokens left) (plain : sign.kind.isPlain = true)
      (second : Occupies rightTokens right) :
      Forms (leftTokens ++ sign :: rightTokens)
        (.binary left operator right (left.span.cover right.span))
  | unary {tokens : List Token} {sign : Token} {operand : Expr} {operator : UnaryOp}
      (plain : sign.kind.isPlain = true) (only : Occupies tokens operand) :
      Forms (sign :: tokens) (.unary operator operand (sign.span.cover operand.span))
  | call {tokens inner : List Token} {opened closed : Token} {callee : Expr}
      {arguments : List Expr} (head : Occupies tokens callee) (opens : opened.kind = .leftParen)
      (closes : closed.kind = .rightParen) (items : Spread inner arguments) :
      Forms (tokens ++ opened :: (inner ++ [closed]))
        (.call callee arguments (callee.span.cover closed.span))
  | member {tokens : List Token} {dot word : Token} {value : Expr} {memberName : String}
      (head : Occupies tokens value) (plainDot : dot.kind.isPlain = true)
      (plainWord : word.kind.isPlain = true) :
      Forms (tokens ++ [dot, word]) (.member value memberName (value.span.cover word.span))
  /-- A construct outside the subset, of which only the brackets are known. -/
  | outside {tokens : List Token} {first last : Token} {kindName : String}
      (visible : first.kind.isLayout = false) (isFirst : tokens.head? = some first)
      (isLast : tokens.getLast? = some last) (closed : Closed false tokens) :
      Forms tokens (.unsupported kindName (first.span.cover last.span))
  /-- A construct outside the subset that begins with an expression. -/
  | since {tokens rest : List Token} {last : Token} {expr : Expr} {kindName : String}
      (head : Occupies tokens expr) (closed : Closed false rest)
      (isLast : (tokens ++ rest).getLast? = some last) :
      Forms (tokens ++ rest) (.unsupported kindName (expr.span.cover last.span))

/-- The tokens of a node, with any parentheses that were put around it. -/
inductive Occupies : List Token → Expr → Prop where
  | bare {tokens : List Token} {expr : Expr} (forms : Forms tokens expr) : Occupies tokens expr
  | group {opened closed : Token} {inner : List Token} {expr : Expr}
      (opens : opened.kind = .leftParen) (closes : closed.kind = .rightParen)
      (inside : Occupies inner expr) : Occupies (opened :: (inner ++ [closed])) expr

/-- Expressions one after the other, with plain tokens before, between and after them, and
perhaps parentheses around some. -/
inductive Spread : List Token → List Expr → Prop where
  | none : Spread [] []
  | plain {token : Token} {tokens : List Token} {exprs : List Expr}
      (isPlain : token.kind.isPlain = true) (rest : Spread tokens exprs) :
      Spread (token :: tokens) exprs
  | item {tokens rest : List Token} {expr : Expr} {exprs : List Expr}
      (first : Occupies tokens expr) (others : Spread rest exprs) :
      Spread (tokens ++ rest) (expr :: exprs)
  | wrap {opened closed : Token} {inner rest : List Token} {exprs more : List Expr}
      (opens : opened.kind = .leftParen) (closes : closed.kind = .rightParen)
      (inside : Spread inner exprs) (others : Spread rest more) :
      Spread (opened :: (inner ++ [closed]) ++ rest) (exprs ++ more)

end

namespace Spread

theorem single {tokens : List Token} {expr : Expr} (only : Occupies tokens expr) :
    Spread tokens [expr] := by
  simpa using item only .none

theorem append {tokens others : List Token} {exprs more : List Expr} :
    Spread tokens exprs → Spread others more → Spread (tokens ++ others) (exprs ++ more)
  | .none, second => second
  | .plain isPlain rest, second => .plain isPlain (rest.append second)
  | .item head rest, second => by
      rw [List.append_assoc]
      exact .item head (rest.append second)
  | .wrap opens closes inside rest, second => by
      rw [List.append_assoc, List.append_assoc]
      exact .wrap opens closes inside (rest.append second)

/-- A plain token after expressions. -/
theorem separator {tokens : List Token} {token : Token} {exprs : List Expr}
    (first : Spread tokens exprs) (isPlain : token.kind.isPlain = true) :
    Spread (tokens ++ [token]) exprs := by
  simpa using first.append (.plain isPlain .none)

theorem allPlain {tokens : List Token} (all : ∀ token ∈ tokens, token.kind.isPlain = true) :
    Spread tokens [] := by
  induction tokens with
  | nil => exact .none
  | cons first rest inductionHypothesis =>
      refine .plain (all first List.mem_cons_self) (inductionHypothesis ?_)
      intro token member
      exact all token (List.mem_cons_of_mem first member)

theorem parens {opened closed : Token} {tokens : List Token} {exprs : List Expr}
    (opens : opened.kind = .leftParen) (closes : closed.kind = .rightParen)
    (inside : Spread tokens exprs) : Spread (opened :: (tokens ++ [closed])) exprs := by
  simpa using wrap opens closes inside .none

end Spread

/-- The elements of a tuple and the commas between them are its tokens. -/
theorem Occupies.spread_elements {tokens : List Token} {expr : Expr} {elements : List Expr}
    {span : Span} : Occupies tokens expr → expr = .tuple elements span → Spread tokens elements
  | .bare forms, isTuple => by
      subst isTuple
      cases forms with
      | leaf plain _ _ noParts _ =>
          obtain rfl : elements = [] := noParts
          exact .allPlain plain
      | tuple opens closes items => exact items.parens opens closes
      | bareTuple head items _ => exact .item head items
  | .group opens closes inside, isTuple =>
      (inside.spread_elements isTuple).parens opens closes

/-- A node has tokens. -/
theorem Occupies.ne_nil {tokens : List Token} {expr : Expr} : Occupies tokens expr → tokens ≠ []
  | .bare (.leaf _ isFirst _ _ _) | .bare (.outside _ isFirst _ _) =>
      List.ne_nil_of_mem (List.mem_of_mem_head? isFirst)
  | .bare (.list ..) | .bare (.tuple ..) | .bare (.unary ..) | .group .. => List.cons_ne_nil _ _
  | .bare (.bareTuple head _ _) | .bare (.binary head _ _) | .bare (.call head _ _ _)
  | .bare (.member head _ _) | .bare (.since head _ _) =>
      List.append_ne_nil_of_left_ne_nil head.ne_nil _

/-! ### Brackets -/

mutual

/-- The brackets of a node close, and match by kind if nothing in it lies outside the
subset. -/
theorem Forms.closed {matching : Bool} {tokens : List Token} {expr : Expr} :
    Forms tokens expr → (matching = true → expr.isOpaqueFree = true) → Closed matching tokens
  | .leaf plain _ _ _ _, _ => .allPlain plain
  | .list opens closes items, free =>
      (items.closed (by simpa [Expr.isOpaqueFree] using free)).brackets opens closes
  | .tuple opens closes items, free =>
      (items.closed (by simpa [Expr.isOpaqueFree] using free)).parens opens closes
  | .bareTuple head items _, free => by
      simp only [Expr.isOpaqueFree, Expr.areOpaqueFree, Expr.areOpaqueFree_eq_all,
        Bool.and_eq_true] at free
      exact (head.closed fun isMatching => (free isMatching).1).append
        (items.closed fun isMatching => (free isMatching).2)
  | .binary first plain second, free => by
      simp only [Expr.isOpaqueFree, Bool.and_eq_true] at free
      exact (first.closed fun isMatching => (free isMatching).1).append
        (.cons plain (second.closed fun isMatching => (free isMatching).2))
  | .unary plain only, free => .cons plain (only.closed free)
  | .call head opens closes items, free => by
      simp only [Expr.isOpaqueFree, Expr.areOpaqueFree_eq_all, Bool.and_eq_true] at free
      exact (head.closed fun isMatching => (free isMatching).1).append
        ((items.closed fun isMatching => (free isMatching).2).parens opens closes)
  | .member head plainDot plainWord, free =>
      (head.closed free).append (.cons plainDot (.plain plainWord))
  | .outside _ _ _ closed, free => by
      cases matching with
      | false => exact closed
      | true => exact absurd (free rfl) Bool.false_ne_true
  | .since head closed _, free => by
      cases matching with
      | false => exact (head.closed (by simp)).append closed
      | true => exact absurd (free rfl) Bool.false_ne_true

theorem Occupies.closed {matching : Bool} {tokens : List Token} {expr : Expr} :
    Occupies tokens expr → (matching = true → expr.isOpaqueFree = true) → Closed matching tokens
  | .bare forms, free => forms.closed free
  | .group opens closes inside, free => (inside.closed free).parens opens closes

theorem Spread.closed {matching : Bool} {tokens : List Token} {exprs : List Expr} :
    Spread tokens exprs → (matching = true → exprs.all Expr.isOpaqueFree = true) →
      Closed matching tokens
  | .none, _ => .nil
  | .plain isPlain rest, free => .cons isPlain (rest.closed free)
  | .item first others, free => by
      simp only [List.all_cons, Bool.and_eq_true] at free
      exact (first.closed fun isMatching => (free isMatching).1).append
        (others.closed fun isMatching => (free isMatching).2)
  | .wrap opens closes inside others, free => by
      simp only [List.all_append, Bool.and_eq_true] at free
      exact ((inside.closed fun isMatching => (free isMatching).1).parens opens closes).append
        (others.closed fun isMatching => (free isMatching).2)

end

/-! ### Nodes below a node -/

/-- A stretch of the tokens forms the node. -/
def Holds (tokens : List Token) (node : Expr) : Prop :=
  ∃ core, core <:+: tokens ∧ Forms core node

theorem Holds.mono {tokens whole : List Token} {node : Expr} (holds : Holds tokens node)
    (within : tokens <:+: whole) : Holds whole node := by
  obtain ⟨core, inTokens, forms⟩ := holds
  exact ⟨core, inTokens.trans within, forms⟩

theorem Holds.bracketed {tokens : List Token} {node : Expr} (holds : Holds tokens node)
    (opened closed : Token) : Holds (opened :: (tokens ++ [closed])) node :=
  holds.mono ⟨[opened], [closed], by simp⟩

theorem Holds.left {tokens : List Token} {node : Expr} (holds : Holds tokens node)
    (rest : List Token) : Holds (tokens ++ rest) node :=
  holds.mono (List.prefix_append tokens rest).isInfix

theorem Holds.right {tokens : List Token} {node : Expr} (holds : Holds tokens node)
    (before : List Token) : Holds (before ++ tokens) node :=
  holds.mono (List.suffix_append before tokens).isInfix

mutual

theorem Forms.holds_below {tokens : List Token} {expr node : Expr} :
    Forms tokens expr → node ∈ expr.children.flatMap Expr.nodes → Holds tokens node
  | .leaf _ _ _ noParts _, member => by simp [noParts] at member
  | .list _ _ items, member => (items.holds member).bracketed _ _
  | .tuple _ _ items, member => (items.holds member).bracketed _ _
  | .bareTuple head items _, member => by
      rcases List.mem_append.mp member with inFirst | inOthers
      · exact (head.holds inFirst).left _
      · exact (items.holds inOthers).right _
  | .binary first _ second, member => by
      simp only [Expr.children, List.flatMap_cons, List.flatMap_nil, List.append_nil,
        List.mem_append] at member
      rcases member with inLeft | inRight
      · exact (first.holds inLeft).left _
      · exact ((second.holds inRight).right [_]).right _
  | .unary _ only, member => by
      simp only [Expr.children, List.flatMap_cons, List.flatMap_nil, List.append_nil] at member
      exact (only.holds member).right [_]
  | .call head _ _ items, member => by
      rcases List.mem_append.mp member with inCallee | inArguments
      · exact (head.holds inCallee).left _
      · exact ((items.holds inArguments).bracketed _ _).right _
  | .member head _ _, member => by
      simp only [Expr.children, List.flatMap_cons, List.flatMap_nil, List.append_nil] at member
      exact (head.holds member).left _
  | .outside .., member => absurd member List.not_mem_nil
  | .since .., member => absurd member List.not_mem_nil

/-- Every node of a tree is formed by a stretch of the tokens of the tree. -/
theorem Occupies.holds {tokens : List Token} {expr node : Expr} :
    Occupies tokens expr → node ∈ expr.nodes → Holds tokens node
  | .bare forms, member => by
      rw [Expr.nodes_eq] at member
      rcases List.mem_cons.mp member with isExpr | below
      · rw [isExpr]
        exact ⟨tokens, List.infix_rfl, forms⟩
      · exact forms.holds_below below
  | .group _ _ inside, member => (inside.holds member).bracketed _ _

theorem Spread.holds {tokens : List Token} {exprs : List Expr} {node : Expr} :
    Spread tokens exprs → node ∈ exprs.flatMap Expr.nodes → Holds tokens node
  | .none, member => absurd member List.not_mem_nil
  | .plain _ rest, member => (rest.holds member).right [_]
  | .item first others, member => by
      rcases List.mem_append.mp member with inFirst | inOthers
      · exact (first.holds inFirst).left _
      · exact (others.holds inOthers).right _
  | .wrap _ _ inside others, member => by
      rw [List.flatMap_append] at member
      rcases List.mem_append.mp member with inFirst | inOthers
      · exact ((inside.holds inFirst).bracketed _ _).left _
      · exact (others.holds inOthers).right _

end

end Extent
end Transpiler
