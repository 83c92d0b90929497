import Transpiler.Proofs.Grammar.StatementReading

/-!
Contract: where the statements of a module stand among its tokens.

Owns: that the statements of a module stand one after the other among the tokens, each with its
expressions (`Module.sequence_of_ofTokens`).
-/

namespace Transpiler

open Extent

namespace Extent

/-- The tokens of a statement, from the first to the last one. -/
structure States (tokens : List Token) (stmt : Stmt) : Prop where
  bounds : Bounds tokens stmt.span
  parts : stmt.children ≠ [] → Spread tokens stmt.children

/-- Statements one after the other, with other tokens before, between and after them. -/
inductive Sequence : List Token → List Stmt → Prop where
  | none {tokens : List Token} : Sequence tokens []
  | more {before tokens rest : List Token} {stmt : Stmt} {stmts : List Stmt}
      (first : States tokens stmt) (others : Sequence rest stmts) :
      Sequence (before ++ (tokens ++ rest)) (stmt :: stmts)

namespace Sequence

variable {tokens others : List Token} {stmts more : List Stmt}

theorem after (before : List Token) (sequence : Sequence tokens stmts) :
    Sequence (before ++ tokens) stmts := by
  cases sequence with
  | none => exact .none
  | more first others =>
      rw [← List.append_assoc]
      exact .more first others

theorem append (first : Sequence tokens stmts) (second : Sequence others more) :
    Sequence (tokens ++ others) (stmts ++ more) := by
  induction first with
  | none => exact second.after _
  | more states _ inductionHypothesis =>
      rw [List.append_assoc, List.append_assoc]
      exact .more states inductionHypothesis

theorem followed (sequence : Sequence tokens stmts) (rest : List Token) :
    Sequence (tokens ++ rest) stmts := by
  have longer := sequence.append (.none : Sequence rest [])
  rwa [List.append_nil] at longer

end Sequence
end Extent

namespace Reading

variable {tokens rest : List Token} {first : Token} {make : Span → Stmt} {stmt : Stmt}
  {stmts : List Stmt}

/-! ### Statements -/

/-- An expression does not begin with a mark of lines and blocks. -/
theorem Whole.visible {room : Nat} {expr : Expr} (read : Whole room tokens expr)
    (isFirst : (tokens ++ rest).head? = some first) : first.kind.isLayout = false := by
  rw [List.head?_append_of_ne_nil _ read.occupies.ne_nil] at isFirst
  cases read.woven with
  | none => simp at isFirst
  | plain isPlain =>
      obtain rfl := Option.some.inj isFirst
      simp only [TokenKind.isPlain, Bool.and_eq_true, Bool.not_eq_true'] at isPlain
      exact isPlain.2
  | bracketed opens =>
      obtain rfl := Option.some.inj isFirst
      exact isLayout_of_opensBracket opens
  | lambda isWord =>
      obtain rfl := Option.some.inj isFirst
      rw [isWord]
      rfl

theorem Targets.visible {targets : List Expr} (read : Targets tokens targets) :
    ∀ {rest : List Token}, (tokens ++ rest).head? = some first → first.kind.isLayout = false := by
  induction read with
  | one item =>
      intro rest isFirst
      rw [List.append_assoc] at isFirst
      exact item.visible isFirst
  | append _ _ inductionHypothesis =>
      intro rest isFirst
      rw [List.append_assoc] at isFirst
      exact inductionHypothesis isFirst

theorem Statement.visible (read : Statement tokens make) (isFirst : tokens.head? = some first) :
    first.kind.isLayout = false := by
  cases read with
  | pass isWord =>
      obtain rfl := Option.some.inj isFirst
      rw [isWord]
      rfl
  | expression only =>
      rw [← List.append_nil tokens] at isFirst
      exact only.visible isFirst
  | declaration item | annotated item | augmented item => exact item.visible isFirst
  | assign targets => exact targets.visible isFirst
  | outside _ visible =>
      obtain rfl := Option.some.inj isFirst
      exact visible

theorem Targets.spread {targets : List Expr} (read : Targets tokens targets) :
    Spread tokens targets := by
  induction read with
  | one item _ isSign => exact (Spread.single item.occupies).separator (by rw [isSign]; rfl)
  | append _ _ first second => exact first.append second

/-- A statement is located where it is said to be, and its tokens are those of its expressions and
plain ones. -/
theorem Statement.spread (read : Statement tokens make) (span : Span) :
    (make span).span = span ∧ ((make span).children ≠ [] → Spread tokens (make span).children) := by
  cases read with
  | pass | outside => exact ⟨rfl, absurd rfl⟩
  | expression only => exact ⟨rfl, fun _ => .single only.occupies⟩
  | declaration first _ isColon second =>
      exact ⟨rfl, fun _ => .item first.occupies
        (.plain (by rw [isColon]; rfl) (.single second.occupies))⟩
  | annotated first _ isColon second isSign third =>
      exact ⟨rfl, fun _ => .item first.occupies (.plain (by rw [isColon]; rfl)
        (.item second.occupies (.plain (by rw [isSign]; rfl) (.single third.occupies))))⟩
  | assign first second => exact ⟨rfl, fun _ => first.spread.append (.single second.occupies)⟩
  | augmented first _ isSign second =>
      exact ⟨rfl, fun _ => .item first.occupies
        (.plain (by rw [isSign]; rfl) (.single second.occupies))⟩

theorem Located.states (located : Located tokens stmt) (orderly : Orderly tokens) :
    States tokens stmt := by
  cases located with
  | cover statement isFirst isLast =>
      obtain ⟨span, parts⟩ := statement.spread _
      refine ⟨?_, parts⟩
      rw [span]
      exact .cover orderly (statement.visible isFirst) isFirst isLast

/-! ### Lines and modules -/

theorem Located.sequence (located : Located tokens stmt) (orderly : Orderly tokens) :
    Extent.Sequence tokens [stmt] := by
  have sequence : Extent.Sequence ([] ++ (tokens ++ [])) [stmt] :=
    .more (located.states orderly) .none
  rwa [List.nil_append, List.append_nil] at sequence

theorem Row.sequence (row : Row tokens stmts) (orderly : Orderly tokens) :
    Extent.Sequence tokens stmts := by
  induction row with
  | none => exact .none
  | more _ item _ inductionHypothesis =>
      exact (inductionHypothesis orderly.left).append
        ((item.sequence orderly.right.left).followed _)

theorem Line.sequence (line : Line tokens stmts) (orderly : Orderly tokens) :
    Extent.Sequence tokens stmts := by
  cases line with
  | last before item =>
      exact (before.sequence orderly.left).append (item.sequence orderly.right)
  | closed before item =>
      exact (before.sequence orderly.left).append
        ((item.sequence orderly.right.left).followed _)

theorem Lines.sequence (lines : Lines tokens stmts) (orderly : Orderly tokens) :
    Extent.Sequence tokens stmts := by
  induction lines with
  | none | blank => exact .none
  | line line => exact (line.sequence orderly.left).followed _
  | compound item => exact (item.sequence orderly.left).followed _
  | append _ _ first second => exact (first orderly.left).append (second orderly.right)

theorem Body.sequence (body : Body tokens stmts) (orderly : Orderly tokens) :
    Extent.Sequence tokens stmts := by
  cases body with
  | lines lines => exact lines.sequence orderly
  | last before line => exact (before.sequence orderly.left).append (line.sequence orderly.right)

end Reading

/-- The statements of a module stand one after the other among its tokens. -/
theorem Module.sequence_of_ofTokens {tokens : List Token} {tree : Module}
    (orderly : Orderly tokens) (parsed : ofTokens tokens = .ok tree) :
    Sequence tokens tree.body := by
  have isPrefix : tokens.takeWhile (·.kind != .endOfFile) <+: tokens := List.takeWhile_prefix _
  have sequence := (body_of_ofTokens parsed).sequence (orderly.of_isInfix isPrefix.isInfix)
  obtain ⟨rest, whole⟩ := isPrefix
  rw [← whole]
  exact sequence.followed rest

end Transpiler
