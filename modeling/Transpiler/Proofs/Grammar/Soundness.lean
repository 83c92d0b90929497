import Transpiler.Proofs.Grammar.ExpressionSoundness
import Transpiler.Proofs.Grammar.StatementReading
import Transpiler.Proofs.Grammar.Targets

/-!
Contract: what is read from tokens without leaving the subset is a derivation of them.

Owns: that the tokens from which statements, lines and modules are read are derivations of them, and
from this the soundness of reading: if tokens form a module no part of which lies outside the
subset, then the grammar derives that module from all of the tokens before the first end of file.
So no token is dropped unless a node outside the subset says so.
-/

namespace Transpiler

namespace Grammar

/-- A target with the equals sign after it. -/
theorem ExpressionList.precedes {room : Nat} {target : Expr} {kinds : List TokenKind}
    (written : ExpressionList room target kinds) (assignable : Assignable .assign target) :
    Precedes (Targets room) [target] (kinds ++ [.equals]) := by
  intro rest restKinds targets
  rw [List.append_assoc]
  exact .more written assignable targets

/-- A statement with a semicolon after it. -/
theorem Statement.precedes {room : Nat} {statement : Stmt} {kinds : List TokenKind}
    (written : Statement room statement kinds) :
    Precedes (Line room) [statement] (kinds ++ [.semicolon]) := by
  intro rest restKinds others
  rw [List.append_assoc]
  exact .more written others

/-- A line with its end. -/
theorem Line.precedes {room : Nat} {statements : List Stmt} {kinds : List TokenKind}
    (written : Line room statements kinds) :
    Precedes (Lines room) statements (kinds ++ [.newline]) := by
  intro rest restKinds others
  rw [List.append_assoc]
  exact .more written others

/-- A line end with no statement before it. -/
theorem Lines.precedes_blank {room : Nat} : Precedes (Lines room) [] [.newline] :=
  fun _ _ others => .blank others

end Grammar

namespace Reading

variable {tokens : List Token} {stmt : Stmt} {stmts : List Stmt}

theorem Targets.precedes {targets : List Expr} (read : Targets tokens targets)
    (free : targets.all Expr.isOpaqueFree = true) :
    Grammar.Precedes (Grammar.Targets Level.nestingLimit) targets (tokens.map (·.kind)) := by
  induction read with
  | one item accepted isSign =>
      simp only [List.map_append, List.map_cons, List.map_nil, isSign]
      exact (item.written (by simpa using free)).precedes
        (Grammar.checkTarget_eq_ok_iff.mp accepted)
  | append _ _ first second =>
      simp only [List.all_append, Bool.and_eq_true] at free
      rw [List.map_append]
      exact (first free.1).append (second free.2)

/-- A statement that is read is derived from its tokens, if it lies in the subset. -/
theorem Statement.written {make : Span → Stmt} {span : Span} (read : Statement tokens make)
    (free : (make span).isOpaqueFree = true) :
    Grammar.Statement Level.nestingLimit (make span) (tokens.map (·.kind)) := by
  cases read with
  | pass isWord =>
      simp only [List.map_cons, List.map_nil, isWord]
      exact .pass
  | expression only => exact .expression (only.written free)
  | declaration first accepted isColon second =>
      simp only [Stmt.isOpaqueFree, Option.all_none, Bool.and_true, Bool.and_eq_true] at free
      simp only [List.map_append, List.map_cons, isColon]
      exact .declaration (first.written free.1) (Grammar.checkTarget_eq_ok_iff.mp accepted)
        (second.written free.2)
  | annotated first accepted isColon second isSign third =>
      simp only [Stmt.isOpaqueFree, Option.all_some, Bool.and_eq_true] at free
      simp only [List.map_append, List.map_cons, isColon, isSign]
      exact .annotated (first.written free.1.1) (Grammar.checkTarget_eq_ok_iff.mp accepted)
        (second.written free.1.2) (third.written free.2)
  | assign first second =>
      simp only [Stmt.isOpaqueFree, Bool.and_eq_true] at free
      rw [List.map_append]
      exact .assign first.ne_nil.2 ((first.precedes free.1).whole .none) (second.written free.2)
  | augmented first accepted isSign second =>
      simp only [Stmt.isOpaqueFree, Bool.and_eq_true] at free
      simp only [List.map_append, List.map_cons, isSign]
      exact .augmented (first.written free.1) (Grammar.checkTarget_eq_ok_iff.mp accepted)
        (second.written free.2)
  | outside => cases free

theorem Located.written (located : Located tokens stmt) (free : stmt.isOpaqueFree = true) :
    Grammar.Statement Level.nestingLimit stmt (tokens.map (·.kind)) := by
  cases located with
  | cover statement => exact statement.written free

theorem Row.precedes (row : Row tokens stmts) (free : stmts.all Stmt.isOpaqueFree = true) :
    Grammar.Precedes (Grammar.Line Level.nestingLimit) stmts (tokens.map (·.kind)) := by
  induction row with
  | none => exact .nil
  | more _ item isMark inductionHypothesis =>
      simp only [List.all_append, List.all_cons, List.all_nil, Bool.and_true, Bool.and_eq_true]
        at free
      simp only [List.map_append, List.map_cons, List.map_nil, isMark]
      exact (inductionHypothesis free.1).append (item.written free.2).precedes

theorem Line.written (line : Line tokens stmts) (free : stmts.all Stmt.isOpaqueFree = true) :
    Grammar.Line Level.nestingLimit stmts (tokens.map (·.kind)) := by
  cases line with
  | last before item =>
      simp only [List.all_append, List.all_cons, List.all_nil, Bool.and_true, Bool.and_eq_true]
        at free
      rw [List.map_append]
      exact before.precedes free.1 _ _ (.last (item.written free.2))
  | closed before item isMark =>
      simp only [List.all_append, List.all_cons, List.all_nil, Bool.and_true, Bool.and_eq_true]
        at free
      simp only [List.map_append, List.map_cons, List.map_nil, isMark]
      exact before.precedes free.1 _ _ (.closed (item.written free.2))

theorem Lines.precedes (lines : Lines tokens stmts) (free : stmts.all Stmt.isOpaqueFree = true) :
    Grammar.Precedes (Grammar.Lines Level.nestingLimit) stmts (tokens.map (·.kind)) := by
  induction lines with
  | none => exact .nil
  | blank isBreak =>
      simp only [List.map_cons, List.map_nil, isBreak]
      exact Grammar.Lines.precedes_blank
  | line line isBreak =>
      simp only [List.map_append, List.map_cons, List.map_nil, isBreak]
      exact (line.written free).precedes
  | compound => cases free
  | append _ _ first second =>
      simp only [List.all_append, Bool.and_eq_true] at free
      rw [List.map_append]
      exact (first free.1).append (second free.2)

theorem Body.written (body : Body tokens stmts) (free : stmts.all Stmt.isOpaqueFree = true) :
    Grammar.Lines Level.nestingLimit stmts (tokens.map (·.kind)) := by
  cases body with
  | lines lines => exact (lines.precedes free).whole .none
  | last before line =>
      simp only [List.all_append, Bool.and_eq_true] at free
      rw [List.map_append]
      exact before.precedes free.1 _ _ (.last (line.written free.2))

end Reading

namespace Module

/-- The tokens before the first end of file derive what was read from them. -/
theorem lines_of_ofTokens {tokens : List Token} {tree : Module}
    (parsed : ofTokens tokens = .ok tree) (opaqueFree : tree.isOpaqueFree = true) :
    Grammar.Lines Level.nestingLimit tree.body
      ((tokens.takeWhile (·.kind != .endOfFile)).map (·.kind)) :=
  (body_of_ofTokens parsed).written opaqueFree

/-- Reading is sound: if tokens form a module no part of which lies outside the subset, the
grammar derives that module from all of the tokens before the first end of file. -/
theorem ofTokens_sound (tokens : List Token) (tree : Module) (parsed : ofTokens tokens = .ok tree)
    (opaqueFree : tree.isOpaqueFree = true) :
    Grammar.Lines 100 tree.body ((tokens.takeWhile (·.kind != .endOfFile)).map (·.kind)) :=
  lines_of_ofTokens parsed opaqueFree

/-- `(x,) = y;`, a blank line, `f(-z,)` up to the end of file, and a token after it. -/
theorem ofTokens_sound_two_lines :
    let kinds : List TokenKind :=
      [.leftParen, .ident "x", .comma, .rightParen, .equals, .ident "y", .semicolon, .newline,
        .newline, .ident "f", .leftParen, .minus, .ident "z", .comma, .rightParen]
    let tokens : List Token :=
      (kinds ++ [TokenKind.endOfFile, .colon]).map fun kind => ⟨kind, .dummy⟩
    ∃ tree, ofTokens tokens = .ok tree ∧ tree.isOpaqueFree = true ∧
      Grammar.Lines 100 tree.body kinds := by
  intro kinds tokens
  have accepted : (ofTokens tokens).toOption.map isOpaqueFree = some true := by decide +kernel
  obtain ⟨tree, parsed, opaqueFree⟩ := exists_eq_ok_of_toOption_map accepted
  exact ⟨tree, parsed, opaqueFree, ofTokens_sound tokens tree parsed opaqueFree⟩

end Module
end Transpiler
