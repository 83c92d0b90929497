import Transpiler.Proofs.Grammar.ExpressionExtent

/-!
Contract: what holds of every tree because each construction keeps it.

Owns: the properties of expressions that are kept by every way in which the rules put
expressions together (`Composition`); that every expression that is read has such a property
(`Composition.expression`); and the properties that can be told node by node (`NodeProperty`).

A property may depend on how many nesting levels an expression has room for; brackets,
arguments, signs and exponents use up one.

Does not own: the statement rules.
-/

namespace Transpiler

/-! ### Properties that constructions keep -/

theorem ne_pow_of_binaryOperator? {kind : TokenKind} {operator : BinaryOp}
    (isOperator : binaryOperator? kind = some operator) : operator ≠ .pow := by
  rintro rfl
  cases kind <;> cases isOperator

/-- A property of expressions with room for a number of nesting levels that every
construction keeps. The first fields are constructions on one level, the last ones lead to
an expression from parts one level deeper. -/
structure Composition (kinds : TokenKind → Prop) (holds : Nat → Expr → Prop) : Prop where
  simple {room : Nat} {token : Token} {expr : Expr} (isKind : kinds token.kind)
    (isSimple : simpleAtom? token = some expr) : holds room expr
  text (room : Nat) (text : String) (span : Span) : holds room (.constant (.str text) span)
  bytes (room : Nat) (content : List UInt8) (span : Span) :
    holds room (.constant (.bytes content) span)
  outside (room : Nat) {kindName : String} (isOutside : kindName ∈ outsideExpressions)
    (span : Span) : holds room (.unsupported kindName span)
  member {room : Nat} {value : Expr} (name : String) (span : Span) (part : holds room value) :
    holds room (.member value name span)
  binary {room : Nat} {left right : Expr} {operator : BinaryOp} (span : Span)
    (notPower : operator ≠ .pow) (first : holds room left) (second : holds room right) :
    holds room (.binary left operator right span)
  tuple {room : Nat} {elements : List Expr} (span : Span)
    (each : ∀ element ∈ elements, holds room element) : holds room (.tuple elements span)
  relocated {room : Nat} {elements : List Expr} {span : Span} (other : Span)
    (whole : holds room (.tuple elements span)) : holds room (.tuple elements other)
  roomier {room : Nat} {expr : Expr} (inner : holds room expr) : holds (room + 1) expr
  power {room : Nat} {base exponent : Expr} (span : Span) (first : holds (room + 1) base)
    (second : holds room exponent) : holds (room + 1) (.binary base .pow exponent span)
  unary {room : Nat} {operand : Expr} (operator : UnaryOp) (span : Span)
    (part : holds room operand) : holds (room + 1) (.unary operator operand span)
  call {room : Nat} {callee : Expr} {arguments : List Expr} (span : Span)
    (head : holds (room + 1) callee) (each : ∀ argument ∈ arguments, holds room argument) :
    holds (room + 1) (.call callee arguments span)
  list {room : Nat} {elements : List Expr} (span : Span)
    (each : ∀ element ∈ elements, holds room element) : holds (room + 1) (.list elements span)

theorem forall_mem_concat {α : Type} {holds : α → Prop} {elements : List α} {last : α}
    (each : ∀ element ∈ elements, holds element) (lastHolds : holds last) :
    ∀ element ∈ elements ++ [last], holds element :=
  List.forall_mem_append.mpr ⟨each, List.forall_mem_singleton.mpr lastHolds⟩

/-! ### Expressions that are read -/

namespace Composition

variable {kinds : TokenKind → Prop} {holds : Nat → Expr → Prop}

theorem joined (composition : Composition kinds holds) {room : Nat} {parts : List Token}
    {span : Span} {expr : Expr} (joined : joinStrings parts span = .ok expr) : holds room expr := by
  unfold joinStrings at joined
  extract_lets texts contents isFormatted at joined
  split at joined
  · cases joined
  · split at joined
    · cases joined
      exact composition.outside room (by decide) span
    · split at joined
      · cases joined
        exact composition.bytes room _ span
      · cases joined
        exact composition.text room _ span

open Reading

mutual

/-- What is read from tokens of the given kinds has the property. -/
theorem expression (composition : Composition kinds holds) {room rank : Nat}
    {tokens : List Token} {expr : Expr} :
    Expression room rank tokens expr → (∀ token ∈ tokens, kinds token.kind) → holds room expr
  | .tighter inner, known => composition.expression inner known
  | .simple isSimple, known => composition.simple (known _ List.mem_cons_self) isSimple
  | .strings _ _ _ isJoined, _ => composition.joined isJoined
  | .unit _ _, _ => composition.tuple _ (by simp)
  | .group _ inside _, known =>
      composition.roomier (composition.whole inside fun _ member => known _ (by simp [member]))
  | .tuple _ inside _, known => composition.relocated _
      (composition.roomier (composition.whole inside fun _ member => known _ (by simp [member])))
  | .list _ items _, known =>
      composition.list _ (composition.sequence items fun _ member => known _ (by simp [member]))
  | .call head _ items _, known => composition.call _
      (composition.expression head fun _ member => known _ (by simp [member]))
      (composition.arguments items fun _ member => known _ (by simp [member]))
  | .member head _ _, known => composition.member _ _
      (composition.expression head fun _ member => known _ (by simp [member]))
  | .power first _ second, known => composition.power _
      (composition.expression first fun _ member => known _ (by simp [member]))
      (composition.expression second fun _ member => known _ (by simp [member]))
  | .sign _ only, known => composition.unary _ _
      (composition.expression only fun _ member => known _ (by simp [member]))
  | .binary first isOperator _ second, known =>
      composition.binary _ (ne_pow_of_binaryOperator? isOperator)
        (composition.expression first fun _ member => known _ (by simp [member]))
        (composition.expression second fun _ member => known _ (by simp [member]))
  | .negation _ only, known => composition.unary _ _
      (composition.expression only fun _ member => known _ (by simp [member]))
  | .outside isOutside .., _ | .since isOutside .., _ => composition.outside _ isOutside _

theorem sequence (composition : Composition kinds holds) {room : Nat} {isItem : Bool}
    {tokens : List Token} {exprs : List Expr} :
    Sequence room isItem tokens exprs → (∀ token ∈ tokens, kinds token.kind) →
      ∀ expr ∈ exprs, holds room expr
  | .none, _ => by simp
  | .item before item, known => forall_mem_concat
      (composition.sequence before fun _ member => known _ (by simp [member]))
      (composition.expression item fun _ member => known _ (by simp [member]))
  | .comma before _, known =>
      composition.sequence before fun _ member => known _ (by simp [member])

theorem arguments (composition : Composition kinds holds) {room : Nat} {tokens : List Token}
    {exprs : List Expr} :
    Arguments room tokens exprs → (∀ token ∈ tokens, kinds token.kind) →
      ∀ expr ∈ exprs, holds room expr
  | .items items, known => composition.sequence items known
  | .generator before _ _ _, known => forall_mem_concat
      (composition.sequence before fun _ member => known _ (by simp [member]))
      (composition.outside room (by decide) _)

theorem whole (composition : Composition kinds holds) {room : Nat} {tokens : List Token}
    {expr : Expr} :
    Whole room tokens expr → (∀ token ∈ tokens, kinds token.kind) → holds room expr
  | .single only, known => composition.expression only known
  | .tuple head _ items _, known => composition.tuple _ (List.forall_mem_cons.mpr
      ⟨composition.expression head fun _ member => known _ (by simp [member]),
        composition.sequence items fun _ member => known _ (by simp [member])⟩)

end

end Composition

/-! ### Properties of single nodes -/

namespace Expr

/-- Every node of the expression has the property. -/
def EachNode (holds : Expr → Prop) (expr : Expr) : Prop :=
  ∀ node ∈ expr.nodes, holds node

theorem eachNode_iff {holds : Expr → Prop} {expr : Expr} :
    expr.EachNode holds ↔ holds expr ∧ ∀ child ∈ expr.children, child.EachNode holds := by
  unfold EachNode
  constructor
  · intro each
    refine ⟨each expr expr.mem_nodes_self, ?_⟩
    intro child member node inChild
    exact each node (mem_nodes_iff.mpr (.inr ⟨child, member, inChild⟩))
  · rintro ⟨here, below⟩ node member
    rcases mem_nodes_iff.mp member with rfl | ⟨child, isChild, inChild⟩
    · exact here
    · exact below child isChild node inChild

/-- The node is put together from other nodes. -/
def isCompound : Expr → Bool
  | .binary .. | .unary .. | .call .. | .member .. | .list .. | .tuple .. => true
  | .constant .. | .name .. | .unsupported .. => false

private theorem children_of_simpleAtom? {token : Token} {expr : Expr}
    (isSimple : simpleAtom? token = some expr) : expr.children = [] := by
  unfold simpleAtom? at isSimple
  extract_lets constant at isSimple
  cases isKind : token.kind <;> rw [isKind] at isSimple <;> cases isSimple <;> rfl

end Expr

/-- A property of single nodes that every compound node has, and that the other nodes have
if they are built from tokens of the given kinds. -/
structure NodeProperty (kinds : TokenKind → Prop) (holds : Expr → Prop) : Prop where
  simple {token : Token} {expr : Expr} (isKind : kinds token.kind)
    (isSimple : simpleAtom? token = some expr) : holds expr
  text (text : String) (span : Span) : holds (.constant (.str text) span)
  bytes (content : List UInt8) (span : Span) : holds (.constant (.bytes content) span)
  outside {kindName : String} (isOutside : kindName ∈ outsideExpressions) (span : Span) :
    holds (.unsupported kindName span)
  compound {expr : Expr} (isCompound : expr.isCompound = true) : holds expr

/-- Every construction keeps a property of single nodes on all nodes of an expression. -/
theorem NodeProperty.composition {kinds : TokenKind → Prop} {holds : Expr → Prop}
    (property : NodeProperty kinds holds) :
    Composition kinds fun _ expr => expr.EachNode holds where
  simple := by
    intro _ token expr isKind isSimple
    rw [Expr.eachNode_iff, Expr.children_of_simpleAtom? isSimple]
    exact ⟨property.simple isKind isSimple, List.forall_mem_nil _⟩
  text := by
    intro _ text span
    exact Expr.eachNode_iff.mpr ⟨property.text text span, List.forall_mem_nil _⟩
  bytes := by
    intro _ content span
    exact Expr.eachNode_iff.mpr ⟨property.bytes content span, List.forall_mem_nil _⟩
  outside := by
    intro _ kindName isOutside span
    exact Expr.eachNode_iff.mpr ⟨property.outside isOutside span, List.forall_mem_nil _⟩
  member := by
    intro _ value name span part
    exact Expr.eachNode_iff.mpr ⟨property.compound rfl, List.forall_mem_singleton.mpr part⟩
  binary := by
    intro _ left right operator span _ first second
    exact Expr.eachNode_iff.mpr ⟨property.compound rfl, by simp [Expr.children, first, second]⟩
  tuple := by
    intro _ elements span each
    exact Expr.eachNode_iff.mpr ⟨property.compound rfl, each⟩
  relocated := by
    intro _ elements span other whole
    exact Expr.eachNode_iff.mpr ⟨property.compound rfl, (Expr.eachNode_iff.mp whole).2⟩
  roomier := by
    intro _ expr inner
    exact inner
  power := by
    intro _ base exponent span first second
    exact Expr.eachNode_iff.mpr ⟨property.compound rfl, by simp [Expr.children, first, second]⟩
  unary := by
    intro _ operand operator span part
    exact Expr.eachNode_iff.mpr ⟨property.compound rfl, List.forall_mem_singleton.mpr part⟩
  call := by
    intro _ callee arguments span head each
    exact Expr.eachNode_iff.mpr ⟨property.compound rfl, List.forall_mem_cons.mpr ⟨head, each⟩⟩
  list := by
    intro _ elements span each
    exact Expr.eachNode_iff.mpr ⟨property.compound rfl, each⟩

end Transpiler
