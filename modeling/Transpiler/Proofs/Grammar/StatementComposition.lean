import Transpiler.Proofs.Grammar.Composition
import Transpiler.Proofs.Grammar.StatementReading

/-!
Contract: what holds of every module because each construction keeps it.

Owns: the statements whose expressions have a property and that stand for a known kind if
they lie outside the subset; and that every statement of a module is one, for each property
of expressions that constructions keep (`Module.built_of_ofTokens`).
-/

namespace Transpiler

/-- The expressions of a statement have the property, and its kind is known. -/
structure Stmt.Built (holds : Expr → Prop) (stmt : Stmt) : Prop where
  children : ∀ child ∈ stmt.children, holds child
  outside : ∀ {kindName : String} {span : Span}, stmt = .unsupported kindName span →
    kindName ∈ outsideStatements

namespace Stmt.Built

variable {holds : Expr → Prop}

theorem pass (span : Span) : (Stmt.pass span).Built holds where
  children := by simp [Stmt.children]
  outside := by simp

theorem unsupported {kindName : String} (isOutside : kindName ∈ outsideStatements) (span : Span) :
    (Stmt.unsupported kindName span).Built holds where
  children := by simp [Stmt.children]
  outside := by
    intro otherName otherSpan same
    cases same
    exact isOutside

theorem expression {value : Expr} (valueHolds : holds value) (span : Span) :
    (Stmt.expression value span).Built holds where
  children := List.forall_mem_singleton.mpr valueHolds
  outside := by simp

theorem annotated {target annotation : Expr} {value : Option Expr} (targetHolds : holds target)
    (annotationHolds : holds annotation) (valueHolds : ∀ expr ∈ value, holds expr)
    (span : Span) : (Stmt.annotated target annotation value span).Built holds where
  children := by
    intro child member
    simp only [Stmt.children, List.mem_cons, Option.mem_toList] at member
    rcases member with rfl | rfl | isValue
    · exact targetHolds
    · exact annotationHolds
    · exact valueHolds child isValue
  outside := by simp

theorem assign {targets : List Expr} {value : Expr} (each : ∀ target ∈ targets, holds target)
    (valueHolds : holds value) (span : Span) : (Stmt.assign targets value span).Built holds where
  children := forall_mem_concat each valueHolds
  outside := by simp

theorem augmented {target value : Expr} (operator : BinaryOp) (targetHolds : holds target)
    (valueHolds : holds value) (span : Span) :
    (Stmt.augmented target operator value span).Built holds where
  children := forall_mem_concat (List.forall_mem_singleton.mpr targetHolds) valueHolds
  outside := by simp

end Stmt.Built

namespace Reading

variable {kinds : TokenKind → Prop} {holds : Nat → Expr → Prop} {tokens others : List Token}
  {stmt : Stmt} {stmts more : List Stmt}

theorem Targets.built {targets : List Expr} (composition : Composition kinds holds)
    (read : Targets tokens targets) (known : ∀ token ∈ tokens, kinds token.kind) :
    ∀ target ∈ targets, holds Level.nestingLimit target := by
  induction read with
  | one item =>
      have own := (List.forall_mem_append.mp known).1
      exact List.forall_mem_singleton.mpr (composition.whole item own)
  | append _ _ first second =>
      obtain ⟨knownFirst, knownSecond⟩ := List.forall_mem_append.mp known
      exact List.forall_mem_append.mpr ⟨first knownFirst, second knownSecond⟩

/-- A statement that is read from tokens of the given kinds is built from expressions with the
property. -/
theorem Located.built (composition : Composition kinds holds) (located : Located tokens stmt)
    (known : ∀ token ∈ tokens, kinds token.kind) : stmt.Built (holds Level.nestingLimit) := by
  cases located with
  | cover statement =>
      cases statement with
      | pass => exact .pass _
      | expression only => exact .expression (composition.whole only known) _
      | declaration first _ _ second =>
          exact .annotated (composition.whole first fun _ member => known _ (by simp [member]))
            (composition.expression second fun _ member => known _ (by simp [member])) (by simp) _
      | annotated first _ _ second _ third =>
          have value := composition.whole third fun _ member => known _ (by simp [member])
          exact .annotated (composition.whole first fun _ member => known _ (by simp [member]))
            (composition.expression second fun _ member => known _ (by simp [member]))
            (by simpa using value) _
      | assign first second =>
          exact .assign (first.built composition fun _ member => known _ (by simp [member]))
            (composition.whole second fun _ member => known _ (by simp [member])) _
      | augmented first _ _ second =>
          exact .augmented _ (composition.whole first fun _ member => known _ (by simp [member]))
            (composition.whole second fun _ member => known _ (by simp [member])) _
      | outside isOutside => exact .unsupported isOutside _

/-! ### Statements among tokens -/

/-- Every one of the statements is read from some of the tokens. -/
def Every (tokens : List Token) (stmts : List Stmt) : Prop :=
  ∀ stmt ∈ stmts, ∃ own, own ⊆ tokens ∧ Located own stmt

theorem Every.append (first : Every tokens stmts) (second : Every others more) :
    Every (tokens ++ others) (stmts ++ more) := by
  intro stmt member
  rcases List.mem_append.mp member with isFirst | isSecond
  · obtain ⟨own, within, located⟩ := first stmt isFirst
    exact ⟨own, List.subset_append_of_subset_left others within, located⟩
  · obtain ⟨own, within, located⟩ := second stmt isSecond
    exact ⟨own, List.subset_append_of_subset_right tokens within, located⟩

theorem Every.followed (every : Every tokens stmts) (rest : List Token) :
    Every (tokens ++ rest) stmts := by
  intro stmt member
  obtain ⟨own, within, located⟩ := every stmt member
  exact ⟨own, List.subset_append_of_subset_left rest within, located⟩

theorem Located.every (located : Located tokens stmt) : Every tokens [stmt] :=
  List.forall_mem_singleton.mpr ⟨tokens, List.Subset.refl tokens, located⟩

theorem Row.every (row : Row tokens stmts) : Every tokens stmts := by
  induction row with
  | none => exact List.forall_mem_nil _
  | more _ item _ inductionHypothesis => exact inductionHypothesis.append (item.every.followed _)

theorem Line.every (line : Line tokens stmts) : Every tokens stmts := by
  cases line with
  | last before item => exact before.every.append item.every
  | closed before item => exact before.every.append (item.every.followed _)

theorem Lines.every (lines : Lines tokens stmts) : Every tokens stmts := by
  induction lines with
  | none | blank => exact List.forall_mem_nil _
  | line line => exact line.every.followed _
  | compound item => exact item.every.followed _
  | append _ _ first second => exact first.append second

theorem Body.every (body : Body tokens stmts) : Every tokens stmts := by
  cases body with
  | lines lines => exact lines.every
  | last before line => exact before.every.append line.every

end Reading

/-- What constructions keep holds of every expression that stands in a statement of a
module. -/
theorem Module.built_of_ofTokens {kinds : TokenKind → Prop} {holds : Nat → Expr → Prop}
    (composition : Composition kinds holds) {tokens : List Token} {tree : Module}
    (all : ∀ token ∈ tokens, kinds token.kind) (parsed : Module.ofTokens tokens = .ok tree) :
    ∀ stmt ∈ tree.body, stmt.Built (holds Level.nestingLimit) := by
  intro stmt member
  obtain ⟨own, within, located⟩ := (body_of_ofTokens parsed).every stmt member
  refine located.built composition ?_
  intro token inOwn
  exact all token ((List.takeWhile_sublist _).subset (within inOwn))

end Transpiler
