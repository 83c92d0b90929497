import Transpiler.Proofs.Grammar.BracketReading
import Transpiler.Proofs.Grammar.Targets

/-!
Contract: every module of the grammar is read from its tokens.

Owns: runs of the statement, line and module rules for every derivation, and from
these the completeness of reading: tokens that the grammar derives for a module, with
no more nesting than the rules have room for, form that module up to locations.
-/

namespace Transpiler

open Cursor (headKind)

namespace Parser

/-! ### Statements -/

/-- Whole expression lists, as statements hold them. -/
theorem expressionList_reads {room : Nat} {expr : Expr} {kinds : List TokenKind}
    {tokens : List Token} (rest : List Token) (previous : Span) (reads : ReadsList room expr kinds)
    (shape : tokens.map (·.kind) = kinds) (ends : endsList (headKind rest) = true) :
    ∃ (read : Expr) (place : Span), read.unlocated = expr.unlocated ∧
      expressionList (expression (Level.below room)) ⟨tokens ++ rest, previous⟩ =
        .ok (read, ⟨rest, place⟩) := by
  obtain ⟨first, firstKinds, restKinds, rfl, item, readsRest⟩ := reads
  obtain ⟨front, back, rfl, frontShape, backShape⟩ := List.map_eq_append_iff.mp shape
  obtain ⟨⟨kind, others, rfl, leading⟩, readsFirst⟩ := item
  obtain ⟨closesFirst, _⟩ := readsRest first back rest previous rfl backShape ends
  obtain ⟨readFirst, place, sameFirst, ranFirst⟩ :=
    readsFirst front (back ++ rest) previous frontShape (Nat.le_of_eq closesFirst)
  obtain ⟨_, whole, wholePlace, sameWhole, ranWhole⟩ :=
    readsRest readFirst back rest place sameFirst backShape ends
  have notYield : (kind == .keyword "yield") = false :=
    beq_false_of_ne (not_keyword_of_leads leading _)
  refine ⟨whole, wholePlace, sameWhole, ?_⟩
  simp only [expressionList, run_bind, run_isAtKeyword, Cursor.current_kind_mk, List.append_assoc,
    headKind_append frontShape, notYield, Bool.false_eq_true, if_false, ranFirst, ranWhole]

/-- The expression lists of statements have room for all levels. -/
theorem expressions_eq :
    expressions = expressionList (expression (Level.below Level.nestingLimit)) := rfl

theorem run_requireTarget {use : TargetUse} {target : Expr} (cursor : Cursor)
    (assignable : Grammar.Assignable use target) :
    requireTarget use target cursor = .ok ((), cursor) := by
  rw [requireTarget, run_liftM, assignable.checkTarget_eq_ok]
  rfl

theorem endsList_of_endsSimple {kind : TokenKind} (ends : endsSimple kind = true) :
    endsList kind = true := by
  cases kind <;> simp_all [endsSimple, endsLine, endsList, rankBefore]

/-- A statement is read from its token kinds, up to a token that ends it. -/
def ReadsStatement (statement : Stmt) (kinds : List TokenKind) : Prop :=
  ∀ (tokens rest : List Token) (previous : Span), tokens.map (·.kind) = kinds →
    endsSimple (headKind rest) = true →
      ∃ (read : Stmt) (place : Span), read.unlocated = statement.unlocated ∧
        simpleStatement ⟨tokens ++ rest, previous⟩ = .ok (read, ⟨rest, place⟩)

theorem ReadsStatement.pass {span : Span} : ReadsStatement (.pass span) [.passWord] := by
  intro tokens rest previous shape _
  obtain ⟨token, others, rfl, isPass, nothingLeft⟩ := List.map_eq_cons_iff.mp shape
  obtain rfl := List.map_eq_nil_iff.mp nothingLeft
  have taken := Cursor.advance_cons token rest previous (by simp [isPass])
  refine ⟨.pass token.span, token.span, rfl, ?_⟩
  simp only [simpleStatement, run_bind, run_currentKind, List.cons_append, List.nil_append,
    Cursor.current_cons, isPass, run_advance, taken, run_pure]

/-- A statement that begins with an expression is read as its first expressions and what
the token after them asks for. -/
theorem ReadsStatement.of_rest {first : Expr} {statement : Stmt}
    {kinds restKinds : List TokenKind} (reads : ReadsList Level.nestingLimit first kinds)
    (follows : ∀ (read : Expr) (tokens rest : List Token) (previous : Span),
      read.unlocated = first.unlocated → tokens.map (·.kind) = restKinds →
        endsSimple (headKind rest) = true →
          endsList (headKind (tokens ++ rest)) = true ∧
            ∃ (make : Span → Stmt) (place : Span),
              (∀ span, (make span).unlocated = statement.unlocated) ∧
                statementRest read (headKind (tokens ++ rest)) ⟨tokens ++ rest, previous⟩ =
                  .ok (make, ⟨rest, place⟩)) :
    ReadsStatement statement (kinds ++ restKinds) := by
  intro tokens rest previous shape ends
  obtain ⟨front, back, rfl, frontShape, backShape⟩ := List.map_eq_append_iff.mp shape
  obtain ⟨endsFirst, _⟩ := follows first back rest previous rfl backShape ends
  obtain ⟨read, place, same, ran⟩ :=
    expressionList_reads (back ++ rest) previous reads frontShape endsFirst
  obtain ⟨_, make, lastPlace, sameMade, made⟩ := follows read back rest place same backShape ends
  obtain ⟨_, _, _, rfl, ⟨⟨kind, others, rfl, leading⟩, _⟩, _⟩ := reads
  refine ⟨make ((⟨front ++ (back ++ rest), previous⟩ : Cursor).current.span.cover lastPlace),
    lastPlace, sameMade _, ?_⟩
  have begins : headKind (front ++ (back ++ rest)) = kind := headKind_append frontShape _
  have isExpression : simpleStatement ⟨front ++ (back ++ rest), previous⟩ =
      expressionStatement ⟨front ++ (back ++ rest), previous⟩ := by
    rw [simpleStatement, run_bind_of_ok (run_currentKind _), Cursor.current_kind_mk, begins]
    cases kind with
    | passWord | keyword => simp [leads] at leading
    | _ => rfl
  rw [List.append_assoc, isExpression]
  simp only [expressionStatement_eq, run_bind, run_currentSpan, expressions_eq, ran,
    run_currentKind, Cursor.current_kind_mk, made, run_previousSpan, run_pure]

theorem ReadsStatement.expression {value : Expr} {kinds : List TokenKind} {span : Span}
    (reads : ReadsList Level.nestingLimit value kinds) :
    ReadsStatement (.expression value span) kinds := by
  rw [← List.append_nil kinds]
  refine .of_rest reads ?_
  intro read tokens rest previous same shape ends
  obtain rfl := List.map_eq_nil_iff.mp shape
  refine ⟨endsList_of_endsSimple ends, .expression read, previous, ?_, ?_⟩
  · intro place
    simp [Stmt.unlocated, same]
  · rw [List.nil_append]
    generalize headKind rest = kind at ends ⊢
    cases kind with
    | colon | equals | augmented => simp [endsSimple, endsLine] at ends
    | _ => rfl

/-- A single expression, as stands after a colon. -/
private theorem expression_reads {expr : Expr} {kinds : List TokenKind} {tokens : List Token}
    (rest : List Token) (previous : Span)
    (written : Grammar.Expression Level.nestingLimit 0 expr kinds)
    (shape : tokens.map (·.kind) = kinds) (ends : rankBefore (headKind rest) = 0) :
    ∃ (read : Expr) (place : Span), read.unlocated = expr.unlocated ∧
      Level.outermost.expression ⟨tokens ++ rest, previous⟩ = .ok (read, ⟨rest, place⟩) :=
  written.reads.whole.expression written.exists_leading tokens rest previous shape
    (Nat.le_of_eq ends)

theorem ReadsStatement.declaration {target annotation : Expr}
    {targetKinds annotationKinds : List TokenKind} {span : Span}
    (reads : ReadsList Level.nestingLimit target targetKinds)
    (assignable : Grammar.Assignable .annotated target)
    (written : Grammar.Expression Level.nestingLimit 0 annotation annotationKinds) :
    ReadsStatement (.annotated target annotation none span)
      (targetKinds ++ .colon :: annotationKinds) := by
  refine .of_rest reads ?_
  intro read tokens rest previous same shape ends
  obtain ⟨colon, after, rfl, isColon, afterShape⟩ := List.map_eq_cons_iff.mp shape
  have closes : rankBefore (headKind rest) = 0 ∧ headKind rest ≠ .equals := by
    generalize headKind rest = kind at ends ⊢
    cases kind <;> simp_all [endsSimple, endsLine, rankBefore]
  obtain ⟨readType, place, sameType, ran⟩ :=
    expression_reads rest colon.span written afterShape closes.1
  have taken := Cursor.advance_cons colon (after ++ rest) previous (by simp [isColon])
  have checked := run_requireTarget ⟨colon :: (after ++ rest), previous⟩
    (assignable.of_unlocated_eq same)
  refine ⟨?_, .annotated read readType none, place, ?_, ?_⟩
  · rw [List.cons_append, Cursor.headKind_cons, isColon]
    rfl
  · intro place
    simp [Stmt.unlocated, same, sameType]
  · rw [List.cons_append, Cursor.headKind_cons, isColon]
    simp only [statementRest, annotatedRest, run_bind, checked, run_advance, taken, ran, run_eat,
      Cursor.current_kind_mk, closes.2, if_false, Bool.false_eq_true, run_currentKind, ends,
      if_true, run_pure]

theorem ReadsStatement.annotated {target annotation value : Expr}
    {targetKinds annotationKinds valueKinds : List TokenKind} {span : Span}
    (reads : ReadsList Level.nestingLimit target targetKinds)
    (assignable : Grammar.Assignable .annotated target)
    (written : Grammar.Expression Level.nestingLimit 0 annotation annotationKinds)
    (readsValue : ReadsList Level.nestingLimit value valueKinds) :
    ReadsStatement (.annotated target annotation (some value) span)
      (targetKinds ++ .colon :: (annotationKinds ++ .equals :: valueKinds)) := by
  refine .of_rest reads ?_
  intro read tokens rest previous same shape ends
  obtain ⟨colon, others, rfl, isColon, othersShape⟩ := List.map_eq_cons_iff.mp shape
  obtain ⟨front, equals, back, rfl, frontShape, isEquals, backShape⟩ := exists_split_at othersShape
  obtain ⟨readType, place, sameType, ran⟩ :=
    expression_reads (equals :: (back ++ rest)) colon.span written frontShape
      (by simp [isEquals, rankBefore])
  obtain ⟨readValue, lastPlace, sameValue, ranValue⟩ :=
    expressionList_reads rest equals.span readsValue backShape (endsList_of_endsSimple ends)
  have colonTaken := Cursor.advance_cons colon (front ++ equals :: (back ++ rest)) previous
    (by simp [isColon])
  have equalsTaken := Cursor.advance_cons equals (back ++ rest) place (by simp [isEquals])
  have checked := run_requireTarget ⟨colon :: (front ++ equals :: (back ++ rest)), previous⟩
    (assignable.of_unlocated_eq same)
  rw [List.cons_append, List.append_assoc, List.cons_append, Cursor.headKind_cons, isColon]
  refine ⟨rfl, .annotated read readType (some readValue), lastPlace, ?_, ?_⟩
  · intro place
    simp [Stmt.unlocated, same, sameType, sameValue]
  · simp only [statementRest, annotatedRest, run_bind, checked, run_advance, colonTaken, ran,
      run_eat, Cursor.current_cons, isEquals, if_true, equalsTaken, expressions_eq, ranValue,
      run_pure]

/-- After an equals sign, further targets and the value of an assignment are read. -/
private theorem targets_repeat {targets : List Expr} {value : Expr}
    {targetKinds valueKinds : List TokenKind}
    (written : Grammar.Targets Level.nestingLimit targets targetKinds)
    (readsValue : ReadsList Level.nestingLimit value valueKinds) :
    ∀ (earlier : List Expr) (tokens rest : List Token) (previous : Span),
      tokens.map (·.kind) = targetKinds ++ valueKinds → endsSimple (headKind rest) = true →
        ∃ (next : Expr) (between : Cursor) (read : List Expr) (readValue : Expr) (place : Span),
          read.map Expr.unlocated = targets.map Expr.unlocated ∧
            readValue.unlocated = value.unlocated ∧
            expressions ⟨tokens ++ rest, previous⟩ = .ok (next, between) ∧
            between.remaining.length ≤ tokens.length + rest.length ∧
            Repeats targetRound (earlier, next) between (earlier ++ read, readValue)
              ⟨rest, place⟩ := by
  induction written with
  | none =>
      intro earlier tokens rest previous shape ends
      obtain ⟨read, place, same, ran⟩ :=
        expressionList_reads rest previous readsValue shape (endsList_of_endsSimple ends)
      have noMore : headKind rest ≠ .equals := by
        intro equals
        simp [equals, endsSimple, endsLine] at ends
      refine ⟨read, ⟨rest, place⟩, [], read, place, rfl, same, ran, Nat.le_add_left _ _, .done ?_⟩
      simp only [targetRound, run_bind, run_eat, Cursor.current_kind_mk, noMore, if_false,
        Bool.false_eq_true, run_pure, List.append_nil]
  | more first assignable others inductionHypothesis =>
      intro earlier tokens rest previous shape ends
      rw [List.append_assoc, List.cons_append] at shape
      obtain ⟨front, equals, back, rfl, frontShape, isEquals, backShape⟩ := exists_split_at shape
      obtain ⟨read, place, same, ran⟩ :=
        expressionList_reads (equals :: (back ++ rest)) previous first.reads frontShape
          (by rw [Cursor.headKind_cons, isEquals]; rfl)
      obtain ⟨next, between, readOthers, readValue, lastPlace, sameOthers, sameValue, ranNext,
        shorter, repeats⟩ :=
          inductionHypothesis (earlier ++ [read]) back rest equals.span backShape ends
      refine ⟨read, ⟨equals :: (back ++ rest), place⟩, read :: readOthers, readValue, lastPlace,
        by simp [same, sameOthers], sameValue, ?_, ?_, ?_⟩
      · rw [List.append_assoc, List.cons_append]
        exact ran
      · simp only [List.length_cons, List.length_append]
        omega
      · have taken := Cursor.advance_cons equals (back ++ rest) place (by simp [isEquals])
        have checked := run_requireTarget ⟨back ++ rest, equals.span⟩
          (assignable.of_unlocated_eq same)
        have round : targetRound (earlier, read) ⟨equals :: (back ++ rest), place⟩ =
            .ok (.more (earlier ++ [read], next), between) := by
          simp only [targetRound, run_bind, run_eat, Cursor.current_cons, isEquals, if_true, taken,
            checked, ranNext, run_pure]
        rw [List.append_assoc, List.singleton_append] at repeats
        refine .more round ?_ repeats
        simp only [List.length_cons, List.length_append]
        omega

theorem ReadsStatement.assign {targets : List Expr} {value : Expr}
    {targetKinds valueKinds : List TokenKind} {span : Span} (nonempty : targets ≠ [])
    (written : Grammar.Targets Level.nestingLimit targets targetKinds)
    (readsValue : ReadsList Level.nestingLimit value valueKinds) :
    ReadsStatement (.assign targets value span) (targetKinds ++ valueKinds) := by
  cases written with
  | none => exact absurd rfl nonempty
  | more first assignable others =>
      rw [List.append_assoc, List.cons_append]
      refine .of_rest first.reads ?_
      intro read tokens rest previous same shape ends
      obtain ⟨equals, after, rfl, isEquals, afterShape⟩ := List.map_eq_cons_iff.mp shape
      obtain ⟨next, between, readOthers, readValue, place, sameOthers, sameValue, ranNext, _,
        repeats⟩ := targets_repeat others readsValue [read] after rest equals.span afterShape ends
      have taken := Cursor.advance_cons equals (after ++ rest) previous (by simp [isEquals])
      have checked := run_requireTarget ⟨equals :: (after ++ rest), previous⟩
        (assignable.of_unlocated_eq same)
      rw [List.cons_append, Cursor.headKind_cons, isEquals]
      refine ⟨rfl, .assign ([read] ++ readOthers) readValue, place, ?_, ?_⟩
      · intro span
        simp [Stmt.unlocated, same, sameOthers, sameValue]
      · simp only [statementRest, assignRest_eq, run_bind, checked, run_advance, taken, ranNext,
          iterate_of_repeats repeats, run_pure]

theorem ReadsStatement.augmented {target value : Expr} {operator : BinaryOp}
    {targetKinds valueKinds : List TokenKind} {span : Span}
    (reads : ReadsList Level.nestingLimit target targetKinds)
    (assignable : Grammar.Assignable .augmented target)
    (readsValue : ReadsList Level.nestingLimit value valueKinds) :
    ReadsStatement (.augmented target operator value span)
      (targetKinds ++ .augmented operator.symbol :: valueKinds) := by
  refine .of_rest reads ?_
  intro read tokens rest previous same shape ends
  obtain ⟨sign, after, rfl, isSign, afterShape⟩ := List.map_eq_cons_iff.mp shape
  obtain ⟨readValue, place, sameValue, ranValue⟩ :=
    expressionList_reads rest sign.span readsValue afterShape (endsList_of_endsSimple ends)
  have taken := Cursor.advance_cons sign (after ++ rest) previous (by simp [isSign])
  have checked := run_requireTarget ⟨after ++ rest, sign.span⟩ (assignable.of_unlocated_eq same)
  rw [List.cons_append, Cursor.headKind_cons, isSign]
  refine ⟨rfl, .augmented read operator readValue, place, ?_, ?_⟩
  · intro span
    simp [Stmt.unlocated, same, sameValue]
  · simp only [statementRest, augmentedRest, BinaryOp.ofSymbol?_symbol, run_bind, run_advance,
      taken, checked, expressions_eq, ranValue, run_pure]

end Parser

/-- Whether a statement may begin with a token. -/
def leadsStatement : TokenKind → Bool
  | .passWord => true
  | kind => leads 0 kind

private theorem leadsStatement_of_leads {kind : TokenKind} (leading : leads 0 kind = true) :
    leadsStatement kind = true := by
  cases kind <;> simp_all [leads, leadsStatement]

namespace Grammar

/-- Every derivation of a statement is read. -/
theorem Statement.reads {statement : Stmt} {kinds : List TokenKind}
    (written : Statement Level.nestingLimit statement kinds) :
    Parser.ReadsStatement statement kinds := by
  cases written with
  | pass => exact .pass
  | expression written => exact .expression written.reads
  | declaration first assignable second => exact .declaration first.reads assignable second
  | annotated first assignable second third =>
      exact .annotated first.reads assignable second third.reads
  | assign nonempty first second => exact .assign nonempty first second.reads
  | augmented first assignable second => exact .augmented first.reads assignable second.reads

theorem ExpressionList.exists_leading {room : Nat} {expr : Expr} {kinds : List TokenKind}
    (written : ExpressionList room expr kinds) :
    ∃ kind rest, kinds = kind :: rest ∧ leads 0 kind = true := by
  cases written with
  | single only => exact only.exists_leading
  | tuple head others =>
      obtain ⟨kind, rest, shape, leading⟩ := head.exists_leading
      exact ⟨kind, _, by rw [shape, List.cons_append], leading⟩

/-- Every statement has a first token: `pass`, or one that begins an expression. -/
theorem Statement.exists_leading {room : Nat} {statement : Stmt} {kinds : List TokenKind}
    (written : Statement room statement kinds) :
    ∃ kind rest, kinds = kind :: rest ∧ leadsStatement kind = true := by
  have append : ∀ {expr : Expr} {front : List TokenKind} (back : List TokenKind),
      ExpressionList room expr front →
        ∃ kind rest, front ++ back = kind :: rest ∧ leadsStatement kind = true := by
    intro expr front back first
    obtain ⟨kind, rest, rfl, leading⟩ := first.exists_leading
    exact ⟨kind, rest ++ back, rfl, leadsStatement_of_leads leading⟩
  cases written with
  | pass => exact ⟨_, _, rfl, rfl⟩
  | expression first =>
      have leading := append [] first
      rwa [List.append_nil] at leading
  | declaration first => exact append _ first
  | annotated first => exact append _ first
  | augmented first => exact append _ first
  | assign nonempty targets =>
      cases targets with
      | none => exact absurd rfl nonempty
      | more first =>
          rw [List.append_assoc]
          exact append _ first

theorem Line.exists_leading {room : Nat} {statements : List Stmt} {kinds : List TokenKind}
    (written : Line room statements kinds) :
    ∃ kind rest, kinds = kind :: rest ∧ leadsStatement kind = true := by
  cases written with
  | last only => exact only.exists_leading
  | closed first | more first =>
      obtain ⟨kind, rest, rfl, leading⟩ := first.exists_leading
      exact ⟨kind, _, rfl, leading⟩

end Grammar

namespace Parser

/-! ### Lines and modules -/

private theorem run_lineEnd {cursor : Cursor} (ends : endsLine cursor.current.kind = true) :
    lineEnd cursor = .ok (true, cursor.advance) := by
  have notTaken : cursor.current.kind = .endOfFile → cursor.advance = cursor := by
    intro atEnd
    rw [Cursor.advance, if_pos atEnd]
  simp only [lineEnd, run_bind, run_eat]
  cases kind : cursor.current.kind <;> simp_all [endsLine, run_bind, run_currentKind, run_pure]

private theorem run_lineEnd_of_leads {cursor : Cursor}
    (leading : leadsStatement cursor.current.kind = true) :
    lineEnd cursor = .ok (false, cursor) := by
  simp only [lineEnd, run_bind, run_eat]
  cases kind : cursor.current.kind <;>
    simp_all [leadsStatement, leads, run_bind, run_currentKind, run_pure]

/-- The statements of a line are read, and with them the end of the line. -/
private theorem line_repeats {statements : List Stmt} {kinds : List TokenKind}
    (written : Grammar.Line Level.nestingLimit statements kinds) :
    ∀ (earlier : List Stmt) (tokens rest : List Token) (previous : Span),
      tokens.map (·.kind) = kinds → endsLine (headKind rest) = true →
        ∃ (reads : List Stmt) (place : Span),
          reads.map Stmt.unlocated = statements.map Stmt.unlocated ∧
            Repeats statementRound earlier ⟨tokens ++ rest, previous⟩ (earlier ++ reads)
              (⟨rest, place⟩ : Cursor).advance := by
  induction written with
  | last only =>
      intro earlier tokens rest previous shape ends
      obtain ⟨read, place, same, ran⟩ :=
        only.reads tokens rest previous shape (by simp [endsSimple, ends])
      have noMore : headKind rest ≠ .semicolon := by
        intro semicolon
        simp [semicolon, endsLine] at ends
      refine ⟨[read], place, by simp [same], .done ?_⟩
      simp only [statementRound, run_bind, ran, run_eat, Cursor.current_kind_mk, noMore, if_false,
        Bool.false_eq_true, run_lineEnd, ends, if_true, run_pure]
  | closed only =>
      intro earlier tokens rest previous shape ends
      obtain ⟨front, semicolon, back, rfl, frontShape, isSemicolon, backShape⟩ :=
        exists_split_at shape
      obtain rfl := List.map_eq_nil_iff.mp backShape
      obtain ⟨read, place, same, ran⟩ :=
        only.reads front (semicolon :: rest) previous frontShape
          (by rw [Cursor.headKind_cons, isSemicolon]; rfl)
      have taken := Cursor.advance_cons semicolon rest place (by simp [isSemicolon])
      refine ⟨[read], semicolon.span, by simp [same], .done ?_⟩
      simp only [statementRound, run_bind, List.append_assoc, List.cons_append, List.nil_append,
        ran, run_eat, Cursor.current_cons, isSemicolon, if_true, taken, run_lineEnd,
        Cursor.current_kind_mk, ends, run_pure]
  | more first others inductionHypothesis =>
      intro earlier tokens rest previous shape ends
      obtain ⟨front, semicolon, back, rfl, frontShape, isSemicolon, backShape⟩ :=
        exists_split_at shape
      obtain ⟨read, place, same, ran⟩ :=
        first.reads front (semicolon :: (back ++ rest)) previous frontShape
          (by rw [Cursor.headKind_cons, isSemicolon]; rfl)
      obtain ⟨reads, lastPlace, sameOthers, repeats⟩ :=
        inductionHypothesis (earlier ++ [read]) back rest semicolon.span backShape ends
      obtain ⟨kind, _, rfl, leading⟩ := others.exists_leading
      have taken := Cursor.advance_cons semicolon (back ++ rest) place (by simp [isSemicolon])
      have goesOn := @run_lineEnd_of_leads ⟨back ++ rest, semicolon.span⟩
        (by rw [Cursor.current_kind_mk, headKind_append backShape]; exact leading)
      rw [List.append_assoc, List.singleton_append] at repeats
      refine ⟨read :: reads, lastPlace, by simp [same, sameOthers], .more ?_ ?_ repeats⟩
      · simp only [statementRound, run_bind, List.append_assoc, List.cons_append, ran, run_eat,
          Cursor.current_cons, isSemicolon, if_true, taken, goesOn, Bool.false_eq_true, if_false,
          run_pure]
      · simp only [List.length_append, List.length_cons]
        omega

/-- No compound statement begins where a statement of the grammar does. -/
private theorem compoundStatement_of_leads {cursor : Cursor}
    (leading : leadsStatement cursor.current.kind = true) :
    compoundStatement cursor = .ok (none, cursor) := by
  have noDecorator : skipDecorators cursor = .ok (false, cursor) := by
    apply iterate_of_repeats
    refine .done ?_
    have notAt : cursor.current.kind ≠ .atSign := by
      intro atSign
      simp [atSign, leadsStatement, leads] at leading
    simp only [run_bind, run_eat, notAt, if_false, Bool.false_eq_true, run_pure]
  have noBlock : compoundKind? cursor = none := by
    rw [compoundKind?]
    generalize cursor.current.kind = kind at leading ⊢
    cases kind with
    | keyword => simp [leadsStatement, leads] at leading
    | _ => rfl
  simp only [compoundStatement, run_bind, run_currentSpan, noDecorator, run_get, noBlock,
    Bool.false_eq_true, if_false, run_pure]

/-- A line is one round of reading a module. -/
private theorem lineRound_of_line {statements : List Stmt} {kinds : List TokenKind}
    (written : Grammar.Line Level.nestingLimit statements kinds) (earlier : List Stmt)
    {tokens : List Token} (rest : List Token) (previous : Span)
    (shape : tokens.map (·.kind) = kinds) (ends : endsLine (headKind rest) = true) :
    ∃ (reads : List Stmt) (place : Span),
      reads.map Stmt.unlocated = statements.map Stmt.unlocated ∧
        lineRound earlier ⟨tokens ++ rest, previous⟩ =
          .ok (.more (earlier ++ reads), (⟨rest, place⟩ : Cursor).advance) := by
  obtain ⟨reads, place, same, repeats⟩ := line_repeats written [] tokens rest previous shape ends
  obtain ⟨kind, _, rfl, leading⟩ := written.exists_leading
  have begins : (⟨tokens ++ rest, previous⟩ : Cursor).current.kind = kind := by
    rw [Cursor.current_kind_mk, headKind_append shape]
  have isLine : lineRound earlier ⟨tokens ++ rest, previous⟩ =
      (do return Round.more (earlier ++ (← line))) ⟨tokens ++ rest, previous⟩ := by
    rw [lineRound, run_bind_of_ok (run_currentKind _), begins]
    cases kind with
    | endOfFile | newline | indent => simp [leadsStatement, leads] at leading
    | _ => rfl
  have noBlock := compoundStatement_of_leads (by rw [begins]; exact leading)
  refine ⟨reads, place, same, ?_⟩
  simp only [isLine, line, run_bind, noBlock, simpleLine_eq, iterate_of_repeats repeats,
    List.nil_append, run_pure]

/-- The lines of a module are read up to the end of file. -/
theorem lines_repeat {statements : List Stmt} {kinds : List TokenKind}
    (written : Grammar.Lines Level.nestingLimit statements kinds) :
    ∀ (earlier : List Stmt) (tokens rest : List Token) (previous : Span),
      tokens.map (·.kind) = kinds → headKind rest = .endOfFile →
        ∃ (reads : List Stmt) (place : Span),
          reads.map Stmt.unlocated = statements.map Stmt.unlocated ∧
            Repeats lineRound earlier ⟨tokens ++ rest, previous⟩ (earlier ++ reads)
              ⟨rest, place⟩ := by
  have stop : ∀ (body : List Stmt) (rest : List Token) (place : Span),
      headKind rest = .endOfFile →
        Repeats lineRound body ⟨rest, place⟩ body ⟨rest, place⟩ := by
    intro body rest place atEnd
    refine .done ?_
    simp only [lineRound, run_bind, run_currentKind, Cursor.current_kind_mk, atEnd, run_pure]
  induction written with
  | none =>
      intro earlier tokens rest previous shape atEnd
      obtain rfl := List.map_eq_nil_iff.mp shape
      refine ⟨[], previous, rfl, ?_⟩
      rw [List.append_nil, List.nil_append]
      exact stop earlier rest previous atEnd
  | blank others inductionHypothesis =>
      intro earlier tokens rest previous shape atEnd
      obtain ⟨newline, after, rfl, isNewline, afterShape⟩ := List.map_eq_cons_iff.mp shape
      obtain ⟨reads, place, same, repeats⟩ :=
        inductionHypothesis earlier after rest newline.span afterShape atEnd
      have taken := Cursor.advance_cons newline (after ++ rest) previous (by simp [isNewline])
      refine ⟨reads, place, same, .more ?_ (Nat.lt_succ_self _) repeats⟩
      simp only [lineRound, run_bind, run_currentKind, List.cons_append, Cursor.current_cons,
        isNewline, run_advance, taken, run_pure]
  | last only =>
      intro earlier tokens rest previous shape atEnd
      obtain ⟨reads, place, same, ran⟩ :=
        lineRound_of_line only earlier rest previous shape (by rw [atEnd]; rfl)
      obtain ⟨kind, _, rfl, _⟩ := only.exists_leading
      have stays : (⟨rest, place⟩ : Cursor).advance = ⟨rest, place⟩ := by
        rw [Cursor.advance, if_pos (by rw [Cursor.current_kind_mk, atEnd])]
      rw [stays] at ran
      refine ⟨reads, place, same, .more ran ?_ (stop _ rest place atEnd)⟩
      have taken : 0 < tokens.length := by
        rw [← List.length_map (·.kind), shape]
        exact Nat.succ_pos _
      simp only [List.length_append]
      omega
  | more first others inductionHypothesis =>
      intro earlier tokens rest previous shape atEnd
      obtain ⟨front, newline, back, rfl, frontShape, isNewline, backShape⟩ := exists_split_at shape
      obtain ⟨reads, place, same, ran⟩ :=
        lineRound_of_line first earlier (newline :: (back ++ rest)) previous frontShape
          (by rw [Cursor.headKind_cons, isNewline]; rfl)
      obtain ⟨readOthers, lastPlace, sameOthers, repeats⟩ :=
        inductionHypothesis (earlier ++ reads) back rest newline.span backShape atEnd
      rw [Cursor.advance_cons newline (back ++ rest) place (by simp [isNewline])] at ran
      rw [List.append_assoc] at repeats
      refine ⟨reads ++ readOthers, lastPlace, by simp [same, sameOthers], .more ?_ ?_ repeats⟩
      · rw [List.append_assoc, List.cons_append]
        exact ran
      · simp only [List.length_append, List.length_cons]
        omega

end Parser

namespace Module

/-- Tokens that the grammar derives for a module form that module up to locations,
whatever follows their end of file. -/
theorem ofTokens_of_lines {statements : List Stmt} {kinds : List TokenKind}
    {tokens rest : List Token}
    (written : Grammar.Lines Level.nestingLimit statements kinds)
    (shape : tokens.map (·.kind) = kinds) (atEnd : headKind rest = .endOfFile) :
    ∃ parsed, ofTokens (tokens ++ rest) = .ok parsed ∧
      parsed.unlocated = (⟨statements⟩ : Module).unlocated := by
  obtain ⟨reads, place, same, repeats⟩ :=
    Parser.lines_repeat written [] tokens rest .dummy shape atEnd
  have ran : Parser.wholeModule (.start (tokens ++ rest)) = .ok (⟨reads⟩, ⟨rest, place⟩) := by
    rw [Cursor.start, Parser.wholeModule_eq,
      Parser.run_bind_of_ok (Parser.iterate_of_repeats repeats)]
    rfl
  refine ⟨⟨reads⟩, ?_, ?_⟩
  · rw [ofTokens, StateT.run, ran]
    rfl
  · rw [unlocated, unlocated, same]

/-- Reading is complete: whatever tokens the grammar derives for a module, with at most a
hundred levels of nesting and an end of file after them, that module is read from them, up
to locations. -/
theorem ofTokens_complete (tree : Module) (tokens : List Token) (last : Token)
    (written : Grammar.Lines 100 tree.body (tokens.map (·.kind)))
    (atEnd : last.kind = .endOfFile) :
    ∃ parsed, ofTokens (tokens ++ [last]) = .ok parsed ∧ parsed.unlocated = tree.unlocated :=
  ofTokens_of_lines written rfl atEnd

/-- `a, b = (x + 1) * -y ** f(2,); pass`, and on the next line `s += "u" "v"`. -/
theorem ofTokens_complete_two_lines :
    let kinds : List TokenKind :=
      [.ident "a", .comma, .ident "b", .equals, .leftParen, .ident "x", .plus, .int 1, .rightParen,
        .star, .minus, .ident "y", .doubleStar, .ident "f", .leftParen, .int 2, .comma, .rightParen,
        .semicolon, .passWord, .newline, .ident "s", .augmented "+", .str "u", .str "v"]
    let name := fun identifier => Expr.name identifier .dummy
    let number := fun value => Expr.constant (.int value) .dummy
    let sum : Expr := .binary (name "x") .add (number 1) .dummy
    let power : Expr := .binary (name "y") .pow (.call (name "f") [number 2] .dummy) .dummy
    let product : Expr := .binary sum .mult (.unary .minus power .dummy) .dummy
    let body : List Stmt :=
      [.assign [.tuple [name "a", name "b"] .dummy] product .dummy, .pass .dummy,
        .augmented (name "s") .add (.constant (.str "uv") .dummy) .dummy]
    Grammar.Lines 100 body kinds ∧
      ∃ parsed, ofTokens (kinds.map (⟨·, .dummy⟩) ++ [⟨.endOfFile, .dummy⟩]) = .ok parsed ∧
        parsed.unlocated = (⟨body⟩ : Module).unlocated := by
  intro kinds name number sum power product body
  have named : ∀ (room rank : Nat) (identifier : String), rank ≤ 10 →
      Grammar.Expression room rank (name identifier) [.ident identifier] :=
    fun _ _ _ le => .of_le le .name
  have numbered : ∀ (room rank : Nat) (value : Int), rank ≤ 10 →
      Grammar.Expression room rank (number value) [.int value] :=
    fun _ _ _ le => .of_le le (.constant rfl)
  have sumWritten : Grammar.Expression 99 5 sum [.ident "x", .plus, .int 1] :=
    .binary rfl (show BinaryOp.add ≠ .pow by decide) (named 99 5 "x" (by decide))
      (numbered 99 6 1 (by decide))
  have powerWritten : Grammar.Expression 99 8 power
      [.ident "y", .doubleStar, .ident "f", .leftParen, .int 2, .comma, .rightParen] :=
    .power (named 99 9 "y" (by decide))
      (.of_le (by decide : 7 ≤ 9)
        (.call (named 98 9 "f" (by decide)) (.more (numbered 97 0 2 (by decide)) .none)))
  have productWritten : Grammar.Expression 100 6 product ((kinds.drop 4).take 14) :=
    .binary rfl (show BinaryOp.mult ≠ .pow by decide)
      (.of_le (by decide : 6 ≤ 10) (.group (.single (.of_le (by decide : 0 ≤ 5) sumWritten))))
      (.sign (by decide) (.of_le (by decide : 7 ≤ 8) powerWritten))
  have targets : Grammar.Targets 100 [.tuple [name "a", name "b"] .dummy] _ :=
    .more (.tuple (named 100 0 "a" (by decide)) (.last (named 100 0 "b" (by decide))))
      (.tuple (by simp [name, Grammar.Assignable.name])) .none
  have text : Grammar.Expression 100 0 (.constant (.str "uv") .dummy) [.str "u", .str "v"] :=
    .of_le (by decide) (@Grammar.Expression.text _ ["u", "v"] _ (by decide))
  have written : Grammar.Lines 100 body kinds :=
    .more
      (.more (.assign (by simp) targets (.single (.of_le (by decide) productWritten)))
        (.last .pass))
      (.last (.last (.augmented (.single (named 100 0 "s" (by decide))) .name (.single text))))
  have shape : (kinds.map fun kind => (⟨kind, .dummy⟩ : Token)).map (·.kind) = kinds := rfl
  exact ⟨written, ofTokens_complete ⟨body⟩ _ _ (by rw [shape]; exact written) rfl⟩

end Module
end Transpiler
