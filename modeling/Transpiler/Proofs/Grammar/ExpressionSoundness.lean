import Transpiler.Proofs.Grammar.ExpressionExtent

/-!
Contract: what the expression rules read is a derivation.

Owns: that the tokens from which an expression is read are a derivation of it, if no part of it lies
outside the subset (`Reading.Expression.written`). A rule that passes over tokens, or forgets what
it has read, yields a node outside the subset.
-/

namespace Transpiler

namespace Grammar

/-- Elements that may stand before any others of a sequence. The rules read a sequence from
its front, while the grammar builds it from its end. -/
def Precedes {α : Type} (sequence : List α → List TokenKind → Prop) (elements : List α)
    (kinds : List TokenKind) : Prop :=
  ∀ rest restKinds, sequence rest restKinds → sequence (elements ++ rest) (kinds ++ restKinds)

namespace Precedes

variable {α : Type} {sequence : List α → List TokenKind → Prop} {elements others : List α}
  {kinds otherKinds : List TokenKind}

theorem nil : Precedes sequence [] [] :=
  fun _ _ holds => holds

theorem append (first : Precedes sequence elements kinds)
    (second : Precedes sequence others otherKinds) :
    Precedes sequence (elements ++ others) (kinds ++ otherKinds) := by
  intro rest restKinds holds
  rw [List.append_assoc, List.append_assoc]
  exact first _ _ (second rest restKinds holds)

/-- Nothing more comes. -/
theorem whole (precedes : Precedes sequence elements kinds) (ends : sequence [] []) :
    sequence elements kinds := by
  simpa using precedes [] [] ends

end Precedes

/-- An expression with a comma after it. -/
theorem Expression.precedes {room : Nat} {expr : Expr} {kinds : List TokenKind}
    (written : Expression room 0 expr kinds) :
    Precedes (Items room) [expr] (kinds ++ [.comma]) := by
  intro rest restKinds items
  rw [List.append_assoc]
  exact .more written items

/-- Expressions that may go on: with others if a comma stands last, and otherwise with a comma and
others. -/
def Continues (room : Nat) (elements : List Expr) (kinds : List TokenKind) : Bool → Prop
  | false => Precedes (Items room) elements kinds
  | true => Items room elements kinds ∧ Precedes (Items room) elements (kinds ++ [.comma])

theorem Continues.items {room : Nat} {elements : List Expr} {kinds : List TokenKind}
    {isItem : Bool} (continues : Continues room elements kinds isItem) :
    Items room elements kinds := by
  cases isItem with
  | false => exact Precedes.whole continues .none
  | true => exact continues.1

end Grammar

namespace Reading

/-! ### Atoms -/

/-- A single token that forms an expression derives it. -/
theorem expression_of_simpleAtom? {room : Nat} {token : Token} {expr : Expr}
    (isSimple : simpleAtom? token = some expr) :
    Grammar.Expression room 10 expr [token.kind] := by
  rw [simpleAtom?] at isSimple
  generalize token.kind = kind at isSimple
  cases kind <;> simp only [Option.some.injEq, reduceCtorEq] at isSimple <;>
    rw [← isSimple] <;> first | exact .name | exact .constant rfl

private theorem exists_eq_map {α : Type} {make : α → TokenKind} {kinds : List TokenKind}
    (each : ∀ kind ∈ kinds, ∃ value, kind = make value) :
    ∃ values : List α, kinds = values.map make := by
  induction kinds with
  | nil => exact ⟨[], rfl⟩
  | cons kind rest inductionHypothesis =>
      obtain ⟨value, rfl⟩ := each kind List.mem_cons_self
      obtain ⟨values, rfl⟩ := inductionHypothesis fun other member => each other (.tail _ member)
      exact ⟨value :: values, rfl⟩

/-- Literals that are joined into an expression of the subset are all texts or all
bytes. -/
private theorem joinStrings_uniform {parts : List Token} {span : Span} {expr : Expr}
    (literals : ∀ part ∈ parts, isStringToken part = true)
    (joined : joinStrings parts span = .ok expr) (opaqueFree : expr.isOpaqueFree = true) :
    (∃ texts : List String, parts.map (·.kind) = texts.map .str) ∨
      ∃ contents : List (List UInt8), parts.map (·.kind) = contents.map .bytes := by
  have literal : ∀ kind ∈ parts.map (·.kind), (∃ text, kind = .str text) ∨
      (∃ content, kind = .bytes content) ∨ kind = .formattedString := by
    intro kind member
    obtain ⟨part, inParts, rfl⟩ := List.mem_map.mp member
    have isLiteral := literals part inParts
    rw [isStringToken] at isLiteral
    split at isLiteral <;> simp_all
  rw [Parser.joinStrings_eq] at joined
  generalize parts.map (·.kind) = kinds at joined literal ⊢
  simp only at joined
  split at joined
  · cases joined
  split at joined
  · cases joined
    cases opaqueFree
  next notMixed notFormatted =>
    by_cases noContents : kinds.filterMap Parser.contentOf? = []
    · refine .inl (exists_eq_map ?_)
      intro kind member
      obtain isText | ⟨content, rfl⟩ | rfl := literal kind member
      · exact isText
      · cases List.filterMap_eq_nil_iff.mp noContents _ member
      · simp [member] at notFormatted
    · have noTexts : kinds.filterMap Parser.textOf? = [] := by simp_all
      refine .inr (exists_eq_map ?_)
      intro kind member
      obtain ⟨text, rfl⟩ | isBytes | rfl := literal kind member
      · cases List.filterMap_eq_nil_iff.mp noTexts _ member
      · exact isBytes
      · simp [member] at notFormatted

theorem expression_of_joinStrings {room : Nat} {parts : List Token} {span : Span} {expr : Expr}
    (nonempty : parts ≠ []) (literals : ∀ part ∈ parts, isStringToken part = true)
    (joined : joinStrings parts span = .ok expr) (opaqueFree : expr.isOpaqueFree = true) :
    Grammar.Expression room 10 expr (parts.map (·.kind)) := by
  have nonempty : parts.map (·.kind) ≠ [] := by simpa using nonempty
  obtain ⟨texts, shape⟩ | ⟨contents, shape⟩ := joinStrings_uniform literals joined opaqueFree
  · rw [Parser.joinStrings_texts span shape] at joined
    cases joined
    rw [shape] at nonempty ⊢
    exact .text (by simpa using nonempty)
  · rw [shape] at nonempty
    have someContents : contents ≠ [] := by simpa using nonempty
    rw [Parser.joinStrings_contents span someContents shape] at joined
    cases joined
    rw [shape]
    exact .bytes someContents

/-! ### Operators -/

/-- The signs are tokens of their operators. -/
theorem eq_sign_of_signOperator? {kind : TokenKind} {operator : UnaryOp}
    (isSign : signOperator? kind = some operator) : kind = operator.sign ∧ operator ≠ .not := by
  cases kind <;> cases isSign <;> exact ⟨rfl, by simp⟩

/-- The operators between operands are tokens of their operators. -/
theorem eq_sign_of_binaryOperator? {kind : TokenKind} {operator : BinaryOp}
    (isOperator : binaryOperator? kind = some operator) :
    kind = operator.sign ∧ operator ≠ .pow := by
  cases kind <;> cases isOperator <;> exact ⟨rfl, by simp⟩

/-! ### Derivations -/

mutual

/-- What is read is derived from its tokens, if it lies in the subset. -/
theorem Expression.written {room rank : Nat} {tokens : List Token} {expr : Expr} :
    Expression room rank tokens expr → expr.isOpaqueFree = true →
      Grammar.Expression room rank expr (tokens.map (·.kind))
  | .tighter inner, free => .tighter (inner.written free)
  | .simple isSimple, _ => expression_of_simpleAtom? isSimple
  | .strings literals isFirst _ joined, free =>
      expression_of_joinStrings (List.ne_nil_of_mem (List.mem_of_mem_head? isFirst)) literals
        joined free
  | .unit opens closes, _ => by
      simp only [List.map_cons, List.map_nil, opens, closes]
      exact .unit
  | .group opens inside closes, free => by
      simp only [List.map_cons, List.map_append, List.map_nil, opens, closes]
      exact .group (inside.written free)
  | .tuple opens inside closes, free => by
      simp only [List.map_cons, List.map_append, List.map_nil, opens, closes]
      exact .group ((inside.written free).of_unlocated_eq _ rfl)
  | .list opens items closes, free => by
      simp only [List.map_cons, List.map_append, List.map_nil, opens, closes]
      exact .list (items.written (by simpa [Expr.isOpaqueFree] using free)).items
  | .call head opens items closes, free => by
      simp only [Expr.isOpaqueFree, Expr.areOpaqueFree_eq_all, Bool.and_eq_true] at free
      simp only [List.map_cons, List.map_append, List.map_nil, opens, closes]
      exact .call (head.written free.1) (items.written free.2)
  | .member head isDot isName, free => by
      simp only [List.map_cons, List.map_append, List.map_nil, isDot, isName]
      exact .member (head.written free)
  | .power first isSign second, free => by
      simp only [Expr.isOpaqueFree, Bool.and_eq_true] at free
      simp only [List.map_cons, List.map_append, isSign]
      exact .power (first.written free.1) (second.written free.2)
  | .sign isSign only, free => by
      obtain ⟨isKind, notNegation⟩ := eq_sign_of_signOperator? isSign
      simp only [List.map_cons, isKind]
      exact .sign notNegation (only.written free)
  | .binary first isOperator ofRank second, free => by
      obtain ⟨isKind, notPower⟩ := eq_sign_of_binaryOperator? isOperator
      simp only [Expr.isOpaqueFree, Bool.and_eq_true] at free
      simp only [List.map_cons, List.map_append, isKind]
      exact .binary ofRank notPower (first.written free.1) (second.written free.2)
  | .negation isWord only, free => by
      simp only [List.map_cons, isWord]
      exact .negation (only.written free)
  | .outside .., free | .since .., free => absurd free Bool.false_ne_true

theorem Sequence.written {room : Nat} {isItem : Bool} {tokens : List Token}
    {exprs : List Expr} :
    Sequence room isItem tokens exprs → exprs.all Expr.isOpaqueFree = true →
      Grammar.Continues room exprs (tokens.map (·.kind)) isItem
  | .none, _ => .nil
  | .item before item, free => by
      simp only [List.all_append, List.all_cons, List.all_nil, Bool.and_true, Bool.and_eq_true]
        at free
      have precedes : Grammar.Precedes _ _ _ := before.written free.1
      have written := item.written free.2
      rw [List.map_append]
      refine ⟨precedes _ _ (.last written), ?_⟩
      rw [List.append_assoc]
      exact precedes.append written.precedes
  | .comma before isComma, free => by
      simp only [List.map_append, List.map_cons, List.map_nil, isComma]
      exact (before.written free).2

theorem Arguments.written {room : Nat} {tokens : List Token} {exprs : List Expr} :
    Arguments room tokens exprs → exprs.all Expr.isOpaqueFree = true →
      Grammar.Items room exprs (tokens.map (·.kind))
  | .items items, free => (items.written free).items
  | .generator .., free => by simp [Expr.isOpaqueFree] at free

theorem Whole.written {room : Nat} {tokens : List Token} {expr : Expr} :
    Whole room tokens expr → expr.isOpaqueFree = true →
      Grammar.ExpressionList room expr (tokens.map (·.kind))
  | .single only, free => .single (only.written free)
  | .tuple head isComma items _, free => by
      simp only [Expr.isOpaqueFree, Expr.areOpaqueFree, Expr.areOpaqueFree_eq_all,
        Bool.and_eq_true] at free
      simp only [List.map_cons, List.map_append, isComma]
      exact .tuple (head.written free.1) (items.written free.2).items

end

end Reading

end Transpiler
