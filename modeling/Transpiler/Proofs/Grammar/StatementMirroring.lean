import Transpiler.Proofs.Grammar.ExpressionMirroring
import Transpiler.Proofs.Grammar.StatementReading

/-!
Contract: the statement rules tell places apart by the kinds of tokens only.

Owns: that every statement rule, run at the image of a place, reads the image of what it reads
at the place itself; and from these that the module which tokens form depends, up to its
locations, on the kinds of the tokens through the first end of file (`Module.ofTokens_image`).
-/

namespace Transpiler

variable {bound : Bound} {move : Relocation}

/-! ### Targets -/

theorem TargetUse.invalid_relocate (use : TargetUse) (found : String) :
    (use.invalid found).relocate move = use.invalid found := by
  cases use <;> rfl

mutual

/-- What may be assigned to does not depend on where it was read. -/
private theorem checkTarget_relocate (use : TargetUse) :
    ∀ target : Expr, checkTarget use (target.relocate move) =
      (checkTarget use target).mapError (·.relocate move)
  | .name .. | .member .. => by simp [Expr.relocate, checkTarget, Except.mapError]
  | .tuple elements span | .list elements span => by
      cases use with
      | assign => simpa [Expr.relocate, checkTarget] using checkTargets_relocate .assign elements
      | annotated | augmented => rfl
  | .constant value span => by
      cases value <;>
        simp [Expr.relocate, checkTarget, Except.mapError, ParseError.relocate,
          TargetUse.invalid_relocate]
  | .call .. | .binary .. | .unary .. => by
      simp [Expr.relocate, checkTarget, Except.mapError, ParseError.relocate,
        TargetUse.invalid_relocate]
  | .unsupported kindName span => by
      simp only [Expr.relocate, checkTarget]
      split <;> simp [Except.mapError, ParseError.relocate, TargetUse.invalid_relocate]

theorem checkTargets_relocate (use : TargetUse) :
    ∀ targets : List Expr, checkTargets use (targets.map (Expr.relocate move)) =
      (checkTargets use targets).mapError (·.relocate move)
  | [] => rfl
  | first :: rest => by
      rw [List.map_cons, checkTargets, checkTargets, checkTarget_relocate use first,
        checkTargets_relocate use rest]
      cases checkTarget use first <;> rfl

end

namespace Parser

variable {cursor : Cursor}

theorem mirrors_requireTarget {α : Type} {use : TargetUse} {target : Expr}
    {next nextReflected : Unit → Parser α} {post : α → α → Cursor → Prop}
    (continues : Mirrors bound move (nextReflected ()) (next ()) cursor post) :
    Mirrors bound move (requireTarget use (target.relocate move) >>= nextReflected)
      (requireTarget use target >>= next) cursor post := by
  have requires : Mirrors bound move (requireTarget use (target.relocate move))
      (requireTarget use target) cursor fun _ _ after => after = cursor := by
    unfold requireTarget
    rw [checkTarget_relocate]
    cases checkTarget use target with
    | ok => exact mirrors_pure rfl
    | error => exact mirrors_throw rfl
  refine mirrors_bind requires ?_
  rintro _ _ _ _ rfl
  exact continues

/-! ### Compound statements -/

theorem roundsMirror_decorator : RoundsMirror .file move id decoratorRound := by
  intro found place
  unfold decoratorRound
  refine mirrors_eat (.of rfl) (fun atSign => ?_) fun _ => mirrors_pure rfl
  refine mirrors_bind (mirrors_takeUntil fun kind ended => .inl (eq_of_beq ended)) ?_
  rintro _ _ _ reaches -
  refine mirrors_bind (mirrors_eatAlone (Bound.admits_file _)) ?_
  rintro _ _ _ further -
  exact mirrors_pure (goesOnAlike_more.mpr
    ⟨rfl, (reaches.trans further).progress (.advance atSign rfl)⟩)

private theorem mirrors_skipDecorators :
    Mirrors .file move skipDecorators skipDecorators cursor fun other found _ => other = found := by
  rw [skipDecorators_eq]
  exact mirrors_iterate roundsMirror_decorator

private theorem compoundKind?_image (cursor : Cursor) :
    compoundKind? (cursor.image .file move) = compoundKind? cursor := by
  by_cases isEnd : cursor.current.kind = .endOfFile
  · simp [compoundKind?, isEnd]
  · have goesOn : Bound.file.ends cursor.current.kind = false := beq_eq_false_iff_ne.mpr isEnd
    simp only [compoundKind?, Cursor.image_current, Token.relocate_kind,
      Cursor.image_nextKind move goesOn]

theorem roundsMirror_clause {clauses : List String} :
    RoundsMirror .file move move.apply (clauseRound clauses) := by
  intro last place
  unfold clauseRound
  rw [mirrors_currentKind]
  refine mirrors_ite (fun atWord => ?_) fun _ => mirrors_pure rfl
  have goesOn : endsLine place.current.kind = false := by
    obtain ⟨word, _, isWord⟩ := List.any_eq_true.mp atWord
    rw [eq_of_beq isWord]
    rfl
  refine mirrors_bind mirrors_skipClause ?_
  rintro _ next after _ ⟨rfl, progress⟩
  exact mirrors_pure (goesOnAlike_more.mpr ⟨rfl, progress goesOn⟩)

theorem mirrors_compoundStatement :
    Mirrors .file move compoundStatement compoundStatement cursor fun other read _ =>
      other = read.map (Stmt.relocate move) := by
  rw [compoundStatement_eq, mirrors_currentSpan]
  refine mirrors_bind mirrors_skipDecorators ?_
  rintro _ isDecorated after _ rfl
  rw [mirrors_get, compoundKind?_image]
  cases compoundKind? after with
  | none => exact mirrors_ite (fun _ => mirrors_unexpected) fun _ => mirrors_pure rfl
  | some kind =>
      refine mirrors_bind mirrors_skipClause ?_
      rintro _ first _ _ ⟨rfl, -⟩
      refine mirrors_bind (mirrors_iterate roundsMirror_clause) ?_
      rintro _ last _ _ rfl
      exact mirrors_pure (by simp [Stmt.relocate])

/-! ### Simple statements -/

private theorem levelReflects_outermost : LevelReflects bound move Level.outermost :=
  levelReflects_withRoom Level.nestingLimit

theorem reflects_expressions : Reflects bound move expressions :=
  reflects_expressionList levelReflects_outermost.expression

/-- What is left of a statement once its location is known. -/
def MakesAlike (move : Relocation) (other make : Span → Stmt) (_ : Cursor) : Prop :=
  ∀ span, other (move.apply span) = (make span).relocate move

section Rests

variable (admits : bound.Admits cursor.current.kind)
include admits

theorem mirrors_annotatedRest {target : Expr} :
    Mirrors bound move (annotatedRest (target.relocate move)) (annotatedRest target) cursor
      (MakesAlike move) := by
  unfold annotatedRest
  refine mirrors_requireTarget (mirrors_advance admits ?_)
  refine mirrors_bind (levelReflects_outermost.expression _) ?_
  rintro _ annotation _ _ rfl
  refine mirrors_eat (.of rfl) (fun _ => ?_) fun _ => ?_
  · refine mirrors_bind (reflects_expressions _) ?_
    rintro _ value _ _ rfl
    exact mirrors_pure fun _ => rfl
  · simp only [Bool.false_eq_true, if_false, mirrors_currentKind]
    exact mirrors_ite (fun _ => mirrors_pure fun _ => rfl) fun _ => mirrors_unexpected

omit admits in
theorem roundsMirror_target :
    RoundsMirror bound move (Prod.map (List.map (Expr.relocate move)) (Expr.relocate move))
      targetRound := by
  rintro ⟨targets, value⟩ place
  unfold targetRound
  refine mirrors_eat (.of rfl) (fun atEquals => ?_) fun _ => mirrors_pure rfl
  refine mirrors_requireTarget (mirrors_bind (reflects_expressions _) ?_)
  rintro _ next after reaches rfl
  exact mirrors_pure (goesOnAlike_more.mpr
    ⟨by simp, reaches.progress (.advance atEquals rfl)⟩)

theorem mirrors_assignRest {first : Expr} :
    Mirrors bound move (assignRest (first.relocate move)) (assignRest first) cursor
      (MakesAlike move) := by
  rw [assignRest_eq, assignRest_eq]
  refine mirrors_requireTarget (mirrors_advance admits ?_)
  refine mirrors_bind (reflects_expressions _) ?_
  rintro _ value _ _ rfl
  refine mirrors_bind (mirrors_iterate roundsMirror_target) ?_
  rintro _ ⟨targets, last⟩ _ _ rfl
  exact mirrors_pure fun _ => rfl

theorem mirrors_augmentedRest {target : Expr} {symbol : String} :
    Mirrors bound move (augmentedRest (target.relocate move) symbol) (augmentedRest target symbol)
      cursor (MakesAlike move) := by
  unfold augmentedRest
  cases BinaryOp.ofSymbol? symbol with
  | none => exact mirrors_failHere rfl
  | some operator =>
      refine mirrors_advance admits (mirrors_requireTarget ?_)
      refine mirrors_bind (reflects_expressions _) ?_
      rintro _ value _ _ rfl
      exact mirrors_pure fun _ => rfl

end Rests

private theorem mirrors_statementRest {first : Expr} {kind : TokenKind}
    (atKind : cursor.current.kind = kind) :
    Mirrors bound move (statementRest (first.relocate move) kind) (statementRest first kind) cursor
      (MakesAlike move) := by
  cases kind
  case colon => exact mirrors_annotatedRest (.at atKind rfl)
  case equals => exact mirrors_assignRest (.at atKind rfl)
  case augmented symbol => exact mirrors_augmentedRest (.at atKind rfl)
  all_goals exact mirrors_pure fun _ => rfl

/-- A rule that reads the image of a statement at the image of a place. -/
def StatementReflects (bound : Bound) (move : Relocation) (rule : Parser Stmt) : Prop :=
  ∀ cursor, Mirrors bound move rule rule cursor fun other read _ => other = read.relocate move

theorem reflects_expressionStatement : StatementReflects bound move expressionStatement := by
  intro cursor
  rw [expressionStatement_eq, mirrors_currentSpan]
  refine mirrors_bind (reflects_expressions _) ?_
  rintro _ first _ _ rfl
  rw [mirrors_currentKind]
  refine mirrors_bind (mirrors_statementRest rfl) ?_
  intro other make _ _ alike
  rw [mirrors_previousSpan, ← move.cover]
  exact mirrors_pure (alike _)

theorem reflects_simpleStatement : StatementReflects bound move simpleStatement := by
  intro cursor
  unfold simpleStatement
  rw [mirrors_currentKind]
  split
  next atPass => exact mirrors_advance (.at atPass rfl) (mirrors_pure rfl)
  next word atWord =>
    split
    next =>
      have broad (kind : TokenKind) (ended : bound.ends kind = true) :
          kind = .endOfFile ∨ endsSimple kind = true :=
        .inr (by rw [endsSimple, Bound.endsLine_of_ends ended, Bool.or_true])
      refine mirrors_advance (.at atWord rfl) (mirrors_bind (mirrors_takeUntil broad) ?_)
      rintro _ _ _ _ -
      rw [mirrors_previousSpan]
      exact mirrors_pure (by simp [Stmt.relocate])
    next => exact reflects_expressionStatement cursor
  next => exact reflects_expressionStatement cursor

/-! ### Lines and modules -/

theorem mirrors_lineEnd :
    Mirrors .file move lineEnd lineEnd cursor fun other ended _ => other = ended := by
  unfold lineEnd
  refine mirrors_eat (Bound.admits_file _) (fun _ => mirrors_pure rfl) fun _ => ?_
  simp only [Bool.false_eq_true, if_false, mirrors_currentKind]
  exact mirrors_pure rfl

theorem roundsMirror_statement :
    RoundsMirror .file move (List.map (Stmt.relocate move)) statementRound := by
  intro statements place
  unfold statementRound
  refine mirrors_bind (reflects_simpleStatement place) ?_
  rintro _ statement after reaches rfl
  have images : statements.map (Stmt.relocate move) ++ [statement.relocate move] =
      (statements ++ [statement]).map (Stmt.relocate move) := by simp
  simp only [images]
  refine mirrors_eat (.of rfl) (fun atSemicolon => ?_) fun _ => ?_
  · have progress := reaches.thenProgress (.advance atSemicolon rfl)
    refine mirrors_bind mirrors_lineEnd ?_
    rintro _ ended final further rfl
    refine mirrors_ite (fun _ => mirrors_pure rfl) fun _ => ?_
    exact mirrors_pure (goesOnAlike_more.mpr ⟨rfl, further.progress progress⟩)
  · refine mirrors_bind mirrors_lineEnd ?_
    rintro _ ended _ _ rfl
    exact mirrors_ite (fun _ => mirrors_pure rfl) fun _ => mirrors_unexpected

private theorem mirrors_simpleLine :
    Mirrors .file move simpleLine simpleLine cursor fun other statements _ =>
      other = statements.map (Stmt.relocate move) := by
  rw [simpleLine_eq]
  exact mirrors_iterate roundsMirror_statement

theorem mirrors_line :
    Mirrors .file move line line cursor fun other statements _ =>
      other = statements.map (Stmt.relocate move) := by
  unfold line
  refine mirrors_bind mirrors_compoundStatement ?_
  rintro _ compound _ _ rfl
  cases compound with
  | none => exact mirrors_simpleLine
  | some statement => exact mirrors_pure rfl

theorem roundsMirror_line : RoundsMirror .file move (List.map (Stmt.relocate move)) lineRound := by
  intro body place
  unfold lineRound
  rw [mirrors_currentKind]
  cases atKind : place.current.kind
  case endOfFile => exact mirrors_pure rfl
  case newline =>
    exact mirrors_advance (Bound.admits_file _)
      (mirrors_pure (goesOnAlike_more.mpr ⟨rfl, .advance atKind rfl⟩))
  case indent => exact mirrors_failHere rfl
  all_goals
    refine mirrors_bind (mirrors_line.and (yields_of_meets (meets_line (.here place)))) ?_
    rintro _ statements after _ ⟨rfl, -, progress⟩
    exact mirrors_pure (goesOnAlike_more.mpr ⟨by simp, progress⟩)

theorem mirrors_wholeModule :
    Mirrors .file move wholeModule wholeModule cursor fun other tree _ =>
      other = tree.relocate move := by
  rw [wholeModule_eq]
  refine mirrors_bind (mirrors_iterate roundsMirror_line) ?_
  rintro _ body _ _ rfl
  exact mirrors_pure rfl

end Parser

/-- Tokens after the first end of file are not read, and moving the locations of the others
moves those of the module or of the error. -/
theorem Module.ofTokens_image (move : Relocation) (tokens : List Token) :
    ofTokens ((Token.through .file tokens).map (·.relocate move)) =
      ((ofTokens tokens).map (·.relocate move)).mapError (·.relocate move) := by
  have mirrors := @Parser.mirrors_wholeModule move (Cursor.start tokens)
  have image : (Cursor.start tokens).image .file move =
      Cursor.start ((Token.through .file tokens).map (·.relocate move)) := by
    simp [Cursor.image, Cursor.start]
  unfold Parser.Mirrors at mirrors
  rw [image] at mirrors
  unfold ofTokens StateT.run
  cases ran : Parser.wholeModule (Cursor.start tokens) with
  | error error =>
      rw [Parser.meets_of_error ran] at mirrors
      rw [mirrors]
      rfl
  | ok pair =>
      obtain ⟨tree, after⟩ := pair
      rw [Parser.meets_of_ok ran] at mirrors
      obtain ⟨_, _, ranReflected, rfl⟩ := mirrors
      rw [ranReflected]
      rfl

end Transpiler
