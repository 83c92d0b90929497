import Transpiler.Grammar.Statement

/-!
Contract: what the steps of a grammar rule do to a place among the tokens.

Owns: one equation for each step that looks at or takes a token, the law of
sequencing for rules, and the law of repetition. Rules built from these steps are
never unfolded below them.
-/

namespace Transpiler

/-! ### Places -/

namespace Cursor

/-- The kind of the first of some tokens; past the last one, an end of file. -/
def headKind (tokens : List Token) : TokenKind :=
  (tokens.head?.map (·.kind)).getD .endOfFile

@[simp] theorem headKind_nil : headKind [] = .endOfFile := rfl

@[simp] theorem headKind_cons (token : Token) (rest : List Token) :
    headKind (token :: rest) = token.kind := rfl

@[simp] theorem current_cons (token : Token) (rest : List Token) (previous : Span) :
    (⟨token :: rest, previous⟩ : Cursor).current = token := rfl

theorem current_kind (cursor : Cursor) : cursor.current.kind = headKind cursor.remaining := by
  obtain ⟨remaining, previous⟩ := cursor
  cases remaining <;> rfl

@[simp] theorem current_kind_mk (remaining : List Token) (previous : Span) :
    (⟨remaining, previous⟩ : Cursor).current.kind = headKind remaining :=
  current_kind _

theorem advance_cons (token : Token) (rest : List Token) (previous : Span)
    (notEnd : token.kind ≠ .endOfFile) :
    (⟨token :: rest, previous⟩ : Cursor).advance = ⟨rest, token.span⟩ := by
  simp [advance, skip, notEnd]

/-- After the current token comes the one that was looked at ahead of it. -/
theorem current_kind_advance {cursor : Cursor} (notEnd : cursor.current.kind ≠ .endOfFile) :
    cursor.advance.current.kind = cursor.nextKind := by
  obtain ⟨remaining, previous⟩ := cursor
  cases remaining with
  | nil => exact absurd rfl notEnd
  | cons token rest => rw [advance_cons token rest previous notEnd, current_kind_mk]; rfl

end Cursor

namespace Parser

variable {α β σ : Type}

/-! ### Sequencing -/

theorem run_bind (first : Parser α) (next : α → Parser β) (cursor : Cursor) :
    (first >>= next) cursor =
      match first cursor with
      | .ok (value, after) => next value after
      | .error error => .error error := by
  change StateT.bind first next cursor = _
  unfold StateT.bind
  simp only [bind, Except.bind]
  cases first cursor <;> rfl

theorem run_pure (value : α) (cursor : Cursor) :
    (pure value : Parser α) cursor = .ok (value, cursor) := rfl

theorem run_throw (error : ParseError) (cursor : Cursor) :
    (throw error : Parser α) cursor = .error error := rfl

/-- A sequence succeeds when both of its parts do, one after the other. -/
theorem bind_eq_ok {first : Parser α} {next : α → Parser β} {cursor after : Cursor} {result : β} :
    (first >>= next) cursor = .ok (result, after) ↔
      ∃ value between, first cursor = .ok (value, between) ∧
        next value between = .ok (result, after) := by
  rw [run_bind]
  constructor
  · intro succeeds
    cases ran : first cursor with
    | error error => simp [ran] at succeeds
    | ok pair =>
        obtain ⟨value, between⟩ := pair
        rw [ran] at succeeds
        exact ⟨value, between, rfl, succeeds⟩
  · rintro ⟨value, between, ran, continued⟩
    rw [ran]
    exact continued

/-- What a sequence does once its first part has succeeded. -/
theorem run_bind_of_ok {first : Parser α} {next : α → Parser β} {cursor between : Cursor}
    {value : α} (ran : first cursor = .ok (value, between)) :
    (first >>= next) cursor = next value between := by
  rw [run_bind, ran]

/-! ### Single steps -/

theorem run_get (cursor : Cursor) : (get : Parser Cursor) cursor = .ok (cursor, cursor) := rfl

theorem run_set (place cursor : Cursor) : (set place : Parser PUnit) cursor = .ok (⟨⟩, place) := rfl

theorem run_current (cursor : Cursor) : current cursor = .ok (cursor.current, cursor) := rfl

theorem run_currentKind (cursor : Cursor) :
    currentKind cursor = .ok (cursor.current.kind, cursor) := rfl

theorem run_currentSpan (cursor : Cursor) :
    currentSpan cursor = .ok (cursor.current.span, cursor) := rfl

theorem run_previousSpan (cursor : Cursor) :
    previousSpan cursor = .ok (cursor.previous, cursor) := rfl

theorem run_advance (cursor : Cursor) :
    advance cursor = .ok (cursor.current.span, cursor.advance) := rfl

theorem run_isAt (kind : TokenKind) (cursor : Cursor) :
    isAt kind cursor = .ok (cursor.current.kind == kind, cursor) := rfl

theorem run_isAtKeyword (word : String) (cursor : Cursor) :
    isAtKeyword word cursor = .ok (cursor.current.kind == .keyword word, cursor) := rfl

theorem run_eat (kind : TokenKind) (cursor : Cursor) :
    eat kind cursor =
      if cursor.current.kind = kind then .ok (true, cursor.advance) else .ok (false, cursor) := by
  simp only [eat, run_bind, run_isAt, beq_iff_eq]
  split <;> rfl

theorem run_liftM (outcome : Except ParseError α) (cursor : Cursor) :
    (liftM outcome : Parser α) cursor = outcome.map (·, cursor) := by
  cases outcome <;> rfl

theorem run_failHere (kind : ParseErrorKind) (cursor : Cursor) :
    (failHere kind : Parser α) cursor = .error ⟨kind, cursor.current.span⟩ := rfl

theorem run_unexpected (expected : String) (cursor : Cursor) :
    (unexpected expected : Parser α) cursor = .error (.unexpected cursor.current expected) := rfl

theorem run_unsupportedSince (kindName : String) (start : Span) (cursor : Cursor) :
    unsupportedSince kindName start cursor =
      .ok (.unsupported kindName (start.cover cursor.previous), cursor) := rfl

/-- A closing delimiter is taken where it stands; anything else is an error. -/
theorem run_expectClosing (closing : TokenKind) (opening : String) (openedAt : Span)
    (expected : String) (cursor : Cursor) :
    expectClosing closing opening openedAt expected cursor =
      if cursor.current.kind = closing then .ok (cursor.current.span, cursor.advance)
      else if endsLine cursor.current.kind then
        .error ⟨.unclosedDelimiter opening openedAt, cursor.current.span⟩
      else .error (.unexpected cursor.current expected) := by
  simp only [expectClosing, run_bind, run_isAt, beq_iff_eq]
  split
  · rfl
  · simp only [run_bind, run_currentKind]
    split <;> rfl

/-! ### Repetition -/

/-- A finished repetition: rounds that ask for more, each of which takes a token, and a
last one that is done. -/
inductive Repeats (round : σ → Parser (Round σ)) : σ → Cursor → σ → Cursor → Prop where
  | done {state last : σ} {cursor after : Cursor}
      (ran : round state cursor = .ok (.done last, after)) :
      Repeats round state cursor last after
  | more {state next last : σ} {cursor between after : Cursor}
      (ran : round state cursor = .ok (.more next, between))
      (shorter : between.remaining.length < cursor.remaining.length)
      (others : Repeats round next between last after) :
      Repeats round state cursor last after

/-- The bound on the rounds is never met by a repetition whose rounds take tokens. -/
private theorem iterateOver_of_repeats {round : σ → Parser (Round σ)} {state last : σ}
    {cursor after : Cursor} (repeats : Repeats round state cursor last after) :
    ∀ bound : List Token, cursor.remaining.length ≤ bound.length →
      iterateOver round bound state cursor = .ok (last, after) := by
  induction repeats with
  | done ran =>
      intro bound _
      cases bound with
      | nil =>
          rw [iterateOver, run_bind_of_ok ran]
          rfl
      | cons head bound =>
          rw [iterateOver, run_bind_of_ok ran]
          rfl
  | more ran shorter others inductionHypothesis =>
      intro bound fits
      cases bound with
      | nil => exact absurd (Nat.lt_of_lt_of_le shorter fits) (Nat.not_lt_zero _)
      | cons head bound =>
          rw [iterateOver, run_bind_of_ok ran]
          apply inductionHypothesis
          exact Nat.le_of_lt_succ (Nat.lt_of_lt_of_le shorter fits)

/-- A finished repetition is what `iterate` yields. -/
theorem iterate_of_repeats {round : σ → Parser (Round σ)} {state last : σ}
    {cursor after : Cursor} (repeats : Repeats round state cursor last after) :
    iterate round state cursor = .ok (last, after) :=
  iterateOver_of_repeats repeats cursor.remaining (Nat.le_refl _)

end Parser
end Transpiler
