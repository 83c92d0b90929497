import Transpiler.Proofs.Grammar.Completeness

/-!
Contract: what the grammar derives stays on its lines.

Owns: that the token kinds of an expression or a statement close every bracket that they
open and mark neither lines nor blocks, and that lines can be put after lines.

Does not own: how lines and blocks are marked.
-/

namespace Transpiler

/-- A kind of tokens that mark lines, blocks or the end of the source. -/
def TokenKind.isLayout : TokenKind → Bool
  | .newline | .indent | .dedent | .endOfFile => true
  | _ => false

namespace Grammar

/-- Token kinds that mark neither lines nor blocks and close every bracket that they open. -/
structure InLine (kinds : List TokenKind) : Prop where
  noLayout : ∀ kind ∈ kinds, kind.isLayout = false
  balanced : ∀ depth, kinds.foldl Layout.depthAfter depth = depth

namespace InLine

variable {kinds others : List TokenKind} {kind opening closing : TokenKind}

theorem nil : InLine [] :=
  ⟨by simp, fun _ => rfl⟩

theorem append (first : InLine kinds) (second : InLine others) : InLine (kinds ++ others) where
  noLayout := by
    intro kind member
    rcases List.mem_append.mp member with inFirst | inSecond
    · exact first.noLayout kind inFirst
    · exact second.noLayout kind inSecond
  balanced depth := by rw [List.foldl_append, first.balanced, second.balanced]

theorem single (plain : kind.isLayout = false)
    (noBracket : ∀ depth, Layout.depthAfter depth kind = depth) : InLine [kind] :=
  ⟨by simpa using plain, noBracket⟩

theorem cons (first : InLine [kind]) (rest : InLine kinds) : InLine (kind :: kinds) :=
  first.append rest

/-- A token between two parts. -/
theorem between (first : InLine kinds) (middle : InLine [kind]) (second : InLine others) :
    InLine (kinds ++ kind :: others) :=
  first.append (middle.cons second)

theorem bracketed (inner : InLine kinds) (plainOpening : opening.isLayout = false)
    (plainClosing : closing.isLayout = false)
    (pair : ∀ depth, Layout.depthAfter (Layout.depthAfter depth opening) closing = depth) :
    InLine (opening :: (kinds ++ [closing])) where
  noLayout := by
    simp only [List.mem_cons, List.mem_append, List.not_mem_nil, or_false]
    rintro kind (rfl | inside | rfl)
    · exact plainOpening
    · exact inner.noLayout kind inside
    · exact plainClosing
  balanced depth := by
    rw [List.foldl_cons, List.foldl_append, inner.balanced]
    exact pair depth

theorem map {α : Type} {token : α → TokenKind} (all : ∀ value, InLine [token value])
    (values : List α) : InLine (values.map token) := by
  induction values with
  | nil => exact .nil
  | cons value rest inductionHypothesis => exact (all value).cons inductionHypothesis

theorem parens (inner : InLine kinds) : InLine (.leftParen :: (kinds ++ [.rightParen])) :=
  inner.bracketed rfl rfl fun _ => rfl

theorem brackets (inner : InLine kinds) : InLine (.leftBracket :: (kinds ++ [.rightBracket])) :=
  inner.bracketed rfl rfl fun _ => rfl

end InLine

theorem inLine_binary (operator : BinaryOp) : InLine [operator.sign] := by
  cases operator <;> exact .single rfl fun _ => rfl

theorem inLine_unary (operator : UnaryOp) : InLine [operator.sign] := by
  cases operator <;> exact .single rfl fun _ => rfl

theorem inLine_constant {value : Constant} {kind : TokenKind} (single : value.token? = some kind) :
    InLine [kind] := by
  cases value with
  | bool truth =>
      obtain rfl := Option.some.inj single
      cases truth <;> exact .single rfl fun _ => rfl
  | str => contradiction
  | bytes => contradiction
  | int | bigInt | float | none | ellipsis =>
      obtain rfl := Option.some.inj single
      exact .single rfl fun _ => rfl

mutual

theorem Expression.inLine {room rank : Nat} {expr : Expr} {kinds : List TokenKind} :
    Expression room rank expr kinds → InLine kinds
  | .tighter inner => inner.inLine
  | .negation inner => .cons (.single rfl fun _ => rfl) inner.inLine
  | .binary _ _ first second => first.inLine.between (inLine_binary _) second.inLine
  | .sign _ inner => .cons (inLine_unary _) inner.inLine
  | .power first second => first.inLine.between (inLine_binary .pow) second.inLine
  | .call first items => first.inLine.append items.inLine.parens
  | .member first =>
      first.inLine.between (.single rfl fun _ => rfl) (.single rfl fun _ => rfl)
  | .name => .single rfl fun _ => rfl
  | .constant single => inLine_constant single
  | .text _ => .map (fun _ => .single rfl fun _ => rfl) _
  | .bytes _ => .map (fun _ => .single rfl fun _ => rfl) _
  | .group inner => inner.inLine.parens
  | .unit => InLine.nil.parens
  | .list items => items.inLine.brackets

theorem Items.inLine {room : Nat} {elements : List Expr} {kinds : List TokenKind} :
    Items room elements kinds → InLine kinds
  | .none => .nil
  | .last first => first.inLine
  | .more first others => first.inLine.between (.single rfl fun _ => rfl) others.inLine

theorem ExpressionList.inLine {room : Nat} {expr : Expr} {kinds : List TokenKind} :
    ExpressionList room expr kinds → InLine kinds
  | .single only => only.inLine
  | .tuple head others => head.inLine.between (.single rfl fun _ => rfl) others.inLine

end

variable {room : Nat} {kinds : List TokenKind}

theorem Targets.inLine {targets : List Expr} (written : Targets room targets kinds) :
    InLine kinds := by
  induction written with
  | none => exact .nil
  | more first _ _ inductionHypothesis =>
      exact first.inLine.between (.single rfl fun _ => rfl) inductionHypothesis

theorem Statement.inLine {statement : Stmt} (written : Statement room statement kinds) :
    InLine kinds := by
  cases written with
  | pass => exact .single rfl fun _ => rfl
  | expression written => exact written.inLine
  | declaration first _ second =>
      exact first.inLine.between (.single rfl fun _ => rfl) second.inLine
  | annotated first _ second third =>
      exact first.inLine.between (.single rfl fun _ => rfl)
        (second.inLine.between (.single rfl fun _ => rfl) third.inLine)
  | assign _ first second => exact first.inLine.append second.inLine
  | augmented first _ second =>
      exact first.inLine.between (.single rfl fun _ => rfl) second.inLine

theorem Line.inLine {statements : List Stmt} (written : Line room statements kinds) :
    InLine kinds := by
  induction written with
  | last only => exact only.inLine
  | closed only => exact only.inLine.append (.single rfl fun _ => rfl)
  | more first _ inductionHypothesis =>
      exact first.inLine.between (.single rfl fun _ => rfl) inductionHypothesis

theorem Lines.balanced {statements : List Stmt} (written : Lines room statements kinds)
    (depth : Nat) : kinds.foldl Layout.depthAfter depth = depth := by
  induction written with
  | none => rfl
  | blank _ inductionHypothesis => exact inductionHypothesis
  | last only => exact only.inLine.balanced depth
  | more first _ inductionHypothesis =>
      rw [List.foldl_append, first.inLine.balanced]
      exact inductionHypothesis

theorem Lines.indent_not_mem {statements : List Stmt} (written : Lines room statements kinds) :
    .indent ∉ kinds := by
  have inside {kinds : List TokenKind} (inLine : InLine kinds) : .indent ∉ kinds :=
    fun member => absurd (inLine.noLayout _ member) (by decide)
  induction written with
  | none => simp
  | blank _ inductionHypothesis => simpa using inductionHypothesis
  | last only => exact inside only.inLine
  | more first _ inductionHypothesis => simpa using ⟨inside first.inLine, inductionHypothesis⟩

/-- The last kind of a list is that of every longer one that ends with it. -/
private theorem getLast?_append_newline (before : List TokenKind) {last : TokenKind}
    (isLast : kinds.getLast? = some last) :
    (before ++ .newline :: kinds).getLast? = some last := by
  rw [List.getLast?_append, List.getLast?_cons, isLast]
  rfl

/-- Lines may follow lines that are all ended. -/
theorem Lines.append {first second : List Stmt} {others : List TokenKind}
    (written : Lines room first kinds) (ended : ∀ last ∈ kinds.getLast?, last = .newline)
    (further : Lines room second others) : Lines room (first ++ second) (kinds ++ others) := by
  induction written with
  | none => exact further
  | blank _ inductionHypothesis =>
      refine .blank (inductionHypothesis fun last isLast => ended last ?_)
      exact getLast?_append_newline [] isLast
  | @last statements kinds only =>
      -- The last token of a line marks no line end.
      obtain ⟨kind, rest, rfl, _⟩ := only.exists_leading
      obtain ⟨last, isLast⟩ := Option.isSome_iff_exists.mp
        (show (kind :: rest).getLast?.isSome = true by simp)
      obtain rfl := ended last isLast
      exact absurd (only.inLine.noLayout _ (List.mem_of_getLast? isLast)) (by decide)
  | more first _ inductionHypothesis =>
      rw [List.append_assoc, List.append_assoc]
      refine .more first (inductionHypothesis fun last isLast => ended last ?_)
      exact getLast?_append_newline _ isLast

end Grammar
end Transpiler
