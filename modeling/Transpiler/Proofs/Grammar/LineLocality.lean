import Transpiler.Proofs.Grammar.StatementMirroring

/-!
Contract: what stands behind a line has no bearing on how it is read.

Owns: that simple statements are read on their line, whatever comes later, and that a line of them
is read through the line break at its end (`Parser.run_simpleLine`).

Does not own: that each rule for expressions and simple statements reads up to the end of its line
only, which holds of the image of a place that is bounded by the line.
-/

namespace Transpiler

/-! ### Lines as images -/

section Images

variable {front others : List Token} {stop : Token} {previous : Span}
  (inLine : ∀ token ∈ front, Parser.endsLine token.kind = false) (isBreak : stop.kind = .newline)
include inLine isBreak

theorem Cursor.image_line :
    (⟨front ++ stop :: others, previous⟩ : Cursor).image .line .identity =
      ⟨front ++ [stop], previous⟩ := by
  have ended : Bound.line.ends stop.kind = true := by
    rw [isBreak]
    rfl
  have same : (front ++ [stop]).map (·.relocate .identity) = front ++ [stop] := by simp
  rw [Cursor.image, Token.through_append _ (Bound.allows_of_inLine inLine),
    Token.through_cons_of_end _ ended, same]
  rfl

/-- From a place on a line, only places on the line are reached within it. -/
theorem Cursor.Reaches.onLine {after : Cursor}
    (reaches : (⟨front ++ stop :: others, previous⟩ : Cursor).Reaches .line after) :
    ∃ rest, after.remaining = rest ++ stop :: others ∧
      ∀ token ∈ rest, Parser.endsLine token.kind = false := by
  obtain ⟨taken, passes, allowed⟩ := reaches
  rcases List.append_eq_append_iff.mp passes.split with
    ⟨more, isTaken, isStop⟩ | ⟨rest, isFront, isRest⟩
  · cases more with
    | nil => exact ⟨[], isStop.symm, by simp⟩
    | cons head tail =>
        obtain ⟨rfl, _⟩ := List.cons.inj isStop
        have goesOn := allowed stop (by rw [isTaken]; simp)
        rw [isBreak] at goesOn
        cases goesOn
  · refine ⟨rest, isRest, ?_⟩
    intro token member
    exact inLine token (by rw [isFront]; exact List.mem_append_right taken member)

end Images

namespace Parser

section Lines

variable {front : List Token} {stop : Token}
  (inLine : ∀ token ∈ front, endsLine token.kind = false) (isBreak : stop.kind = .newline)
include inLine isBreak

/-! ### Statements of a line -/

/-- A simple statement is read on its line or refused, whatever comes later. -/
private theorem simpleStatement_cases (previous : Span) :
    (∃ statement rest span, (∀ token ∈ rest, endsLine token.kind = false) ∧
      ∀ others, simpleStatement ⟨front ++ stop :: others, previous⟩ =
        .ok (statement, ⟨rest ++ stop :: others, span⟩)) ∨
      ∃ error, ∀ others, simpleStatement ⟨front ++ stop :: others, previous⟩ = .error error := by
  have mirrors (others : List Token) := @reflects_simpleStatement .line .identity
    ⟨front ++ stop :: others, previous⟩
  unfold Mirrors at mirrors
  simp only [Cursor.image_line inLine isBreak] at mirrors
  cases alone : simpleStatement ⟨front ++ [stop], previous⟩ with
  | error error =>
      refine .inr ⟨error, fun others => ?_⟩
      cases ran : simpleStatement ⟨front ++ stop :: others, previous⟩ with
      | error other =>
          have failed := (meets_of_error ran).mp (mirrors others)
          rw [alone, ParseError.relocate_identity] at failed
          rw [Except.error.inj failed]
      | ok pair =>
          obtain ⟨_, _, ranAlone, _⟩ := (meets_of_ok ran).mp (mirrors others)
          rw [alone] at ranAlone
          cases ranAlone
  | ok pair =>
      obtain ⟨statement, ⟨remaining, span⟩⟩ := pair
      obtain ⟨reaches, _⟩ := (meets_of_ok alone).mp (mirrors [])
      obtain ⟨rest, rfl, onLine⟩ := reaches.onLine inLine isBreak
      refine .inl ⟨statement, rest, span, onLine, fun others => ?_⟩
      cases ran : simpleStatement ⟨front ++ stop :: others, previous⟩ with
      | error other =>
          have failed := (meets_of_error ran).mp (mirrors others)
          rw [alone] at failed
          cases failed
      | ok pair =>
          obtain ⟨other, ⟨place, last⟩⟩ := pair
          obtain ⟨further, _, ranAlone, rfl⟩ := (meets_of_ok ran).mp (mirrors others)
          obtain ⟨left, rfl, leftOnLine⟩ := further.onLine inLine isBreak
          rw [Cursor.image_line leftOnLine isBreak, alone, Stmt.relocate_identity] at ranAlone
          simp only [Except.ok.injEq, Prod.mk.injEq, Cursor.mk.injEq] at ranAlone
          obtain ⟨rfl, same, rfl⟩ := ranAlone
          rw [List.append_cancel_right same]

omit inLine in
private theorem run_lineEnd_of_break (others : List Token) (previous : Span) :
    lineEnd ⟨stop :: others, previous⟩ = .ok (true, ⟨others, stop.span⟩) := by
  have notEnd : stop.kind ≠ .endOfFile := by simp [isBreak]
  rw [lineEnd, run_bind, run_eat, if_pos (by simpa using isBreak),
    Cursor.advance_cons stop others previous notEnd]
  rfl

omit inLine isBreak in
private theorem run_lineEnd_of_token {token : Token} (goesOn : endsLine token.kind = false)
    (others : List Token) (previous : Span) :
    lineEnd ⟨token :: others, previous⟩ = .ok (false, ⟨token :: others, previous⟩) := by
  have notBreak : token.kind ≠ .newline := by
    intro isKind
    simp [isKind, endsLine] at goesOn
  have notEnd : (token.kind == .endOfFile) = false := by
    rw [beq_eq_false_iff_ne]
    intro isKind
    simp [isKind, endsLine] at goesOn
  rw [lineEnd, run_bind, run_eat, if_neg (by simpa using notBreak)]
  simp [run_bind, run_currentKind, run_pure, notEnd]

/-- One more statement of a line and what separates it from the next. -/
private theorem statementRound_cases (statements : List Stmt) (previous : Span) :
    (∃ last, ∀ others, statementRound statements ⟨front ++ stop :: others, previous⟩ =
      .ok (.done last, ⟨others, stop.span⟩)) ∨
    (∃ next rest span, (∀ token ∈ rest, endsLine token.kind = false) ∧
      ∀ others, statementRound statements ⟨front ++ stop :: others, previous⟩ =
        .ok (.more next, ⟨rest ++ stop :: others, span⟩)) ∨
    ∃ error, ∀ others, statementRound statements ⟨front ++ stop :: others, previous⟩ =
      .error error := by
  rcases simpleStatement_cases inLine isBreak previous with
    ⟨statement, rest, span, onLine, ran⟩ | ⟨error, failed⟩
  case inr =>
    refine .inr (.inr ⟨error, fun others => ?_⟩)
    rw [statementRound, run_bind, failed]
  cases rest with
  | nil =>
      refine .inl ⟨statements ++ [statement], fun others => ?_⟩
      rw [statementRound, run_bind_of_ok (ran others), List.nil_append, run_bind, run_eat,
        if_neg (by simp [isBreak])]
      simp [run_bind, run_lineEnd_of_break isBreak, run_pure]
  | cons token rest =>
      obtain ⟨goesOn, behind⟩ := List.forall_mem_cons.mp onLine
      by_cases atSemicolon : token.kind = .semicolon
      · have eaten (others : List Token) :
            eat .semicolon ⟨token :: (rest ++ stop :: others), span⟩ =
              .ok (true, ⟨rest ++ stop :: others, token.span⟩) := by
          rw [run_eat, if_pos (by simpa using atSemicolon),
            Cursor.advance_cons token _ span (by simp [atSemicolon])]
        cases rest with
        | nil =>
            refine .inl ⟨statements ++ [statement], fun others => ?_⟩
            rw [statementRound, run_bind_of_ok (ran others), List.cons_append,
              run_bind_of_ok (eaten others)]
            simp [run_bind, run_lineEnd_of_break isBreak, run_pure]
        | cons second rest =>
            refine .inr (.inl ⟨statements ++ [statement], second :: rest, token.span, behind,
              fun others => ?_⟩)
            rw [statementRound, run_bind_of_ok (ran others), List.cons_append,
              run_bind_of_ok (eaten others)]
            simp [run_bind, run_lineEnd_of_token (List.forall_mem_cons.mp behind).1, run_pure]
      · refine .inr (.inr ⟨.unexpected token "`;` or end of line", fun others => ?_⟩)
        rw [statementRound, run_bind_of_ok (ran others), List.cons_append, run_bind, run_eat,
          if_neg (by simpa using atSemicolon)]
        simp [run_bind, run_lineEnd_of_token goesOn, run_unexpected]

/-! ### Whole lines -/

/-- A line of simple statements is read through the line break at its end, whatever comes
later. -/
theorem Loops.append {state : List Stmt} {previous : Span}
    {outcome : Except ParseError (List Stmt × Cursor)}
    (loops : Loops statementRound state ⟨front ++ [stop], previous⟩ outcome)
    (others : List Token) :
    Loops statementRound state ⟨front ++ stop :: others, previous⟩
      (outcome.map fun result => (result.1, ⟨others, stop.span⟩)) := by
  generalize isPlace : (⟨front ++ [stop], previous⟩ : Cursor) = place at loops
  induction loops generalizing front previous with
  | @done state last cursor after ran =>
      subst isPlace
      rcases statementRound_cases inLine isBreak state previous with
        ⟨last, ranAll⟩ | ⟨_, _, _, _, ranAll⟩ | ⟨_, ranAll⟩
      all_goals
        have same := ran.symm.trans (ranAll [])
        cases same
      exact .done (ranAll others)
  | @failed state cursor error ran =>
      subst isPlace
      rcases statementRound_cases inLine isBreak state previous with
        ⟨_, ranAll⟩ | ⟨_, _, _, _, ranAll⟩ | ⟨_, ranAll⟩
      all_goals
        have same := ran.symm.trans (ranAll [])
        cases same
      exact .failed (ranAll others)
  | @more state next cursor between outcome ran _ inductionHypothesis =>
      subst isPlace
      rcases statementRound_cases inLine isBreak state previous with
        ⟨_, ranAll⟩ | ⟨next, rest, span, onLine, ranAll⟩ | ⟨_, ranAll⟩
      all_goals
        have same := ran.symm.trans (ranAll [])
        cases same
      exact .more (ranAll others) (inductionHypothesis onLine rfl)

theorem run_simpleLine {others : List Token} {previous : Span} :
    simpleLine ⟨front ++ stop :: others, previous⟩ =
      (simpleLine ⟨front ++ [stop], previous⟩).map
        fun result => (result.1, ⟨others, stop.span⟩) := by
  have consumes := (@roundsMirror_statement .identity).consumes
  rw [simpleLine_eq]
  exact (loops_iterate consumes [] _).unique
    ((loops_iterate consumes [] _).append inLine isBreak others)

end Lines

end Parser
end Transpiler
