import Transpiler.Proofs.Grammar.Yields

/-!
Contract: what holds of every run of a rule, whether it succeeds or fails.

Owns: the judgment that a rule yields what satisfies a condition or stops with an error that
satisfies another, with one law for each step; what a repetition comes to without its bound
(`Parser.Loops`), and the laws of repetition; and the tokens between two places, together with the
location that the place after them remembers.
-/

namespace Transpiler

/-! ### Tokens between two places -/

namespace Cursor

/-- The tokens between two places. None is an end of file, and the later place remembers the
location of the last one. -/
structure Passes (start : Cursor) (taken : List Token) (stop : Cursor) : Prop where
  split : start.remaining = taken ++ stop.remaining
  noEnd : ∀ token ∈ taken, token.kind ≠ .endOfFile
  previous : stop.previous = (taken.getLast?.map (·.span)).getD start.previous

namespace Passes

variable {start middle stop cursor : Cursor} {taken more : List Token}

theorem refl (cursor : Cursor) : cursor.Passes [] cursor where
  split := rfl
  noEnd := by simp
  previous := rfl

theorem trans (first : start.Passes taken middle) (second : middle.Passes more stop) :
    start.Passes (taken ++ more) stop where
  split := by rw [first.split, second.split, List.append_assoc]
  noEnd := by
    intro token member
    rcases List.mem_append.mp member with inFirst | inSecond
    · exact first.noEnd token inFirst
    · exact second.noEnd token inSecond
  previous := by
    rw [second.previous, first.previous, List.getLast?_append]
    cases more.getLast? <;> rfl

theorem skip {count : Nat}
    (noEnd : ∀ token ∈ cursor.remaining.take count, token.kind ≠ .endOfFile) :
    cursor.Passes (cursor.remaining.take count) (cursor.skip count) where
  split := (List.take_append_drop count cursor.remaining).symm
  noEnd := noEnd
  previous := rfl

theorem skip_of_isPrefix (isPrefix : taken <+: cursor.remaining)
    (noEnd : ∀ token ∈ taken, token.kind ≠ .endOfFile) :
    cursor.Passes taken (cursor.skip taken.length) := by
  have isTaken := List.prefix_iff_eq_take.mp isPrefix
  have passes := @skip cursor taken.length (by rw [← isTaken]; exact noEnd)
  rwa [← isTaken] at passes

theorem advance (notEnd : cursor.current.kind ≠ .endOfFile) :
    cursor.Passes [cursor.current] cursor.advance := by
  obtain ⟨remaining, previous⟩ := cursor
  cases remaining with
  | nil => exact absurd rfl notEnd
  | cons token rest =>
      rw [advance_cons token rest previous notEnd]
      exact ⟨rfl, by simpa using notEnd, rfl⟩

/-- A token of a known kind. -/
theorem advance_of {kind : TokenKind} (atKind : cursor.current.kind = kind)
    (notEnd : (kind == .endOfFile) = false) : cursor.Passes [cursor.current] cursor.advance := by
  apply advance
  rw [atKind]
  exact ne_of_beq_false notEnd

theorem takes (passes : start.Passes taken stop) : start.Takes (taken.map (·.kind)) stop := by
  refine ⟨?_, taken, rfl, passes.split⟩
  intro member
  obtain ⟨token, inTaken, isEnd⟩ := List.mem_map.mp member
  exact passes.noEnd token inTaken isEnd

theorem progress (passes : start.Passes taken stop) (nonempty : taken ≠ []) :
    start.Progress stop :=
  ⟨_, passes.takes, by simpa using nonempty⟩

theorem head?_eq (passes : start.Passes taken stop) (nonempty : taken ≠ []) :
    taken.head? = some start.current := by
  cases taken with
  | nil => exact absurd rfl nonempty
  | cons first rest => simp [Cursor.current, passes.split]

theorem previous_of {last : Token} (passes : start.Passes taken stop)
    (isLast : taken.getLast? = some last) : stop.previous = last.span := by
  rw [passes.previous, isLast]
  rfl

end Passes

/-- A place among the given tokens, with no end of file before it. -/
def In (all : List Token) (cursor : Cursor) : Prop :=
  ∃ read, all = read ++ cursor.remaining ∧ ∀ token ∈ read, token.kind ≠ .endOfFile

namespace In

variable {all taken : List Token} {start stop cursor : Cursor}

theorem here (cursor : Cursor) : cursor.In cursor.remaining :=
  ⟨[], rfl, by simp⟩

theorem passes (inside : start.In all) (passes : start.Passes taken stop) : stop.In all := by
  obtain ⟨read, rfl, noEnd⟩ := inside
  refine ⟨read ++ taken, by rw [passes.split, List.append_assoc], ?_⟩
  intro token member
  rcases List.mem_append.mp member with isRead | isTaken
  · exact noEnd token isRead
  · exact passes.noEnd token isTaken

theorem advance_of {kind : TokenKind} (inside : cursor.In all)
    (atKind : cursor.current.kind = kind) (notEnd : (kind == .endOfFile) = false) :
    cursor.advance.In all :=
  inside.passes (.advance_of atKind notEnd)

theorem taken_isInfix (inside : start.In all) (passes : start.Passes taken stop) :
    taken <:+: all := by
  obtain ⟨read, rfl, _⟩ := inside
  exact ⟨read, stop.remaining, by rw [passes.split, List.append_assoc]⟩

theorem remaining_suffix (inside : cursor.In all) : cursor.remaining <:+ all := by
  obtain ⟨read, rfl, _⟩ := inside
  exact List.suffix_append read cursor.remaining

/-- An end of file among the tokens is still ahead. -/
theorem end_ahead (inside : cursor.In all) (ends : ∃ token ∈ all, token.kind = .endOfFile) :
    ∃ token ∈ cursor.remaining, token.kind = .endOfFile := by
  obtain ⟨read, rfl, noEnd⟩ := inside
  obtain ⟨token, member, isEnd⟩ := ends
  rcases List.mem_append.mp member with isRead | isAhead
  · exact absurd isEnd (noEnd token isRead)
  · exact ⟨token, isAhead, isEnd⟩

theorem current_mem (inside : cursor.In all) (ends : ∃ token ∈ all, token.kind = .endOfFile) :
    cursor.current ∈ cursor.remaining := by
  have ahead := inside.end_ahead ends
  obtain ⟨remaining, previous⟩ := cursor
  cases remaining with
  | nil => simp at ahead
  | cons token rest => exact List.mem_cons_self

end In
end Cursor

/-! ### Outcomes of rules -/

namespace Parser

variable {α β σ : Type}

/-- What the rule yields at a place satisfies a condition, together with the place it stops
at; and if it fails, the error satisfies another condition. -/
def Meets (rule : Parser α) (cursor : Cursor) (post : α → Cursor → Prop)
    (fault : ParseError → Prop) : Prop :=
  match rule cursor with
  | .ok (value, after) => post value after
  | .error error => fault error

section Steps

variable {rule : Parser α} {cursor : Cursor} {post : α → Cursor → Prop}
  {fault : ParseError → Prop}

theorem meets_of_ok {value : α} {after : Cursor} (ran : rule cursor = .ok (value, after)) :
    rule.Meets cursor post fault ↔ post value after := by
  rw [Meets, ran]

theorem meets_of_error {error : ParseError} (failed : rule cursor = .error error) :
    rule.Meets cursor post fault ↔ fault error := by
  rw [Meets, failed]

theorem Meets.mono {strong : α → Cursor → Prop} (meets : rule.Meets cursor strong fault)
    (weaker : ∀ value after, strong value after → post value after) :
    rule.Meets cursor post fault := by
  unfold Meets at *
  split at meets
  · exact weaker _ _ meets
  · exact meets

@[simp] theorem meets_pure {value : α} :
    (pure value : Parser α).Meets cursor post fault ↔ post value cursor :=
  meets_of_ok (run_pure value cursor)

@[simp] theorem meets_bind {first : Parser β} {next : β → Parser α} :
    (first >>= next).Meets cursor post fault ↔
      first.Meets cursor (fun value after => (next value).Meets after post fault) fault := by
  unfold Meets
  rw [run_bind]
  cases first cursor <;> rfl

@[simp] theorem meets_ite {condition : Prop} [Decidable condition] {first second : Parser α} :
    (if condition then first else second).Meets cursor post fault ↔
      (condition → first.Meets cursor post fault) ∧
        (¬ condition → second.Meets cursor post fault) := by
  split <;> simp [*]

@[simp] theorem meets_throw {error : ParseError} :
    (throw error : Parser α).Meets cursor post fault ↔ fault error :=
  meets_of_error (run_throw error cursor)

@[simp] theorem meets_failHere {kind : ParseErrorKind} :
    (failHere kind : Parser α).Meets cursor post fault ↔ fault ⟨kind, cursor.current.span⟩ :=
  meets_of_error (run_failHere kind cursor)

@[simp] theorem meets_unexpected {expected : String} :
    (unexpected expected : Parser α).Meets cursor post fault ↔
      fault (.unexpected cursor.current expected) :=
  meets_of_error (run_unexpected expected cursor)

@[simp] theorem meets_get {post : Cursor → Cursor → Prop} :
    (get : Parser Cursor).Meets cursor post fault ↔ post cursor cursor :=
  meets_of_ok (run_get cursor)

@[simp] theorem meets_set {place : Cursor} {post : PUnit → Cursor → Prop} :
    (set place : Parser PUnit).Meets cursor post fault ↔ post ⟨⟩ place :=
  meets_of_ok (run_set place cursor)

@[simp] theorem meets_current {post : Token → Cursor → Prop} :
    current.Meets cursor post fault ↔ post cursor.current cursor :=
  meets_of_ok (run_current cursor)

@[simp] theorem meets_currentKind {post : TokenKind → Cursor → Prop} :
    currentKind.Meets cursor post fault ↔ post cursor.current.kind cursor :=
  meets_of_ok (run_currentKind cursor)

@[simp] theorem meets_currentSpan {post : Span → Cursor → Prop} :
    currentSpan.Meets cursor post fault ↔ post cursor.current.span cursor :=
  meets_of_ok (run_currentSpan cursor)

@[simp] theorem meets_previousSpan {post : Span → Cursor → Prop} :
    previousSpan.Meets cursor post fault ↔ post cursor.previous cursor :=
  meets_of_ok (run_previousSpan cursor)

@[simp] theorem meets_advance {post : Span → Cursor → Prop} :
    advance.Meets cursor post fault ↔ post cursor.current.span cursor.advance :=
  meets_of_ok (run_advance cursor)

@[simp] theorem meets_isAt {kind : TokenKind} {post : Bool → Cursor → Prop} :
    (isAt kind).Meets cursor post fault ↔ post (cursor.current.kind == kind) cursor :=
  meets_of_ok (run_isAt kind cursor)

@[simp] theorem meets_isAtKeyword {word : String} {post : Bool → Cursor → Prop} :
    (isAtKeyword word).Meets cursor post fault ↔
      post (cursor.current.kind == .keyword word) cursor :=
  meets_of_ok (run_isAtKeyword word cursor)

@[simp] theorem meets_eat {kind : TokenKind} {post : Bool → Cursor → Prop} :
    (eat kind).Meets cursor post fault ↔
      (cursor.current.kind = kind → post true cursor.advance) ∧
        (cursor.current.kind ≠ kind → post false cursor) := by
  have ran := run_eat kind cursor
  split at ran
  next atKind => simp [meets_of_ok ran, atKind]
  next notAt => simp [meets_of_ok ran, notAt]

@[simp] theorem meets_eatKeyword {word : String} {post : Bool → Cursor → Prop} :
    (eatKeyword word).Meets cursor post fault ↔
      (cursor.current.kind = .keyword word → post true cursor.advance) ∧
        (cursor.current.kind ≠ .keyword word → post false cursor) :=
  meets_eat

@[simp] theorem meets_liftM {outcome : Except ParseError α} :
    (liftM outcome : Parser α).Meets cursor post fault ↔
      (∀ value, outcome = .ok value → post value cursor) ∧
        ∀ error, outcome = .error error → fault error := by
  have ran := run_liftM outcome cursor
  cases outcome with
  | error error => simpa using meets_of_error ran
  | ok value => simpa using meets_of_ok ran

@[simp] theorem meets_unsupportedSince {kindName : String} {start : Span}
    {post : Expr → Cursor → Prop} :
    (unsupportedSince kindName start).Meets cursor post fault ↔
      post (.unsupported kindName (start.cover cursor.previous)) cursor :=
  meets_of_ok (run_unsupportedSince kindName start cursor)

@[simp] theorem meets_expectClosing {closing : TokenKind} {opening : String} {openedAt : Span}
    {expected : String} {post : Span → Cursor → Prop} :
    (expectClosing closing opening openedAt expected).Meets cursor post fault ↔
      (cursor.current.kind = closing → post cursor.current.span cursor.advance) ∧
      (cursor.current.kind ≠ closing →
        (endsLine cursor.current.kind = true →
          fault ⟨.unclosedDelimiter opening openedAt, cursor.current.span⟩) ∧
        (endsLine cursor.current.kind = false →
          fault (.unexpected cursor.current expected))) := by
  have ran := run_expectClosing closing opening openedAt expected cursor
  split at ran
  next atClosing => simp [meets_of_ok ran, atClosing]
  next notAt =>
    split at ran
    next ends => simp [meets_of_error ran, notAt, ends]
    next goesOn => simp [meets_of_error ran, notAt, goesOn]

end Steps

/-! ### Successful runs -/

theorem yields_of_meets {rule : Parser α} {cursor : Cursor} {post : α → Cursor → Prop}
    {fault : ParseError → Prop} (meets : rule.Meets cursor post fault) :
    rule.Yields cursor post :=
  fun _ _ ran => (meets_of_ok ran).mp meets

private theorem yields_iff_meets {rule : Parser α} {cursor : Cursor} {post : α → Cursor → Prop} :
    rule.Yields cursor post ↔ rule.Meets cursor post fun _ => True := by
  refine ⟨?_, yields_of_meets⟩
  intro yields
  unfold Meets
  split
  next value after ran => exact yields value after ran
  next => trivial

/-! ### Repetition -/

/-- What a round leaves in a repetition over some tokens: a state for the tokens after the first,
or the result, if it is done or no token is left. -/
def Continues (invariant : List Token → σ → Cursor → Prop) (post : σ → Cursor → Prop) :
    List Token → Round σ → Cursor → Prop
  | _, .done last, after => post last after
  | [], .more next, after => post next after
  | _ :: bound, .more next, after => invariant bound next after

/-- An invariant of the tokens that bound a repetition, of the state and of the place. All other
laws of repetition come from this one. -/
private theorem meets_iterateOver {round : σ → Parser (Round σ)} {post : σ → Cursor → Prop}
    {fault : ParseError → Prop} (invariant : List Token → σ → Cursor → Prop)
    (preserved : ∀ bound state place, invariant bound state place →
      (round state).Meets place (Continues invariant post bound) fault)
    (bound : List Token) (state : σ) (place : Cursor) (holds : invariant bound state place) :
    (iterateOver round bound state).Meets place post fault := by
  induction bound generalizing state place with
  | nil =>
      rw [iterateOver, meets_bind]
      refine (preserved [] state place holds).mono ?_
      intro outcome after kept
      cases outcome <;> exact meets_pure.mpr kept
  | cons head bound inductionHypothesis =>
      rw [iterateOver, meets_bind]
      refine (preserved (head :: bound) state place holds).mono ?_
      intro outcome after kept
      cases outcome with
      | more next => exact inductionHypothesis next after kept
      | done last => exact meets_pure.mpr kept

section Laws

variable {round : σ → Parser (Round σ)} {cursor : Cursor} {initial : σ}
  {post : σ → Cursor → Prop} {fault : ParseError → Prop}

/-- An invariant that every round keeps holds until the last round, which establishes the
result, or until a round fails. Rounds that ask for more take tokens, so that the bound is never
met. -/
theorem meets_iterate (invariant : σ → Cursor → Prop) (holds : invariant initial cursor)
    (preserved : ∀ state place, invariant state place →
      (round state).Meets place (Keeps invariant post place) fault) :
    (iterate round initial).Meets cursor post fault := by
  rw [iterate, meets_bind, meets_get]
  refine meets_iterateOver (fun bound state place =>
    place.remaining.length ≤ bound.length ∧ invariant state place) ?_ _ _ _ ⟨Nat.le_refl _, holds⟩
  rintro bound state place ⟨fits, holds⟩
  refine (preserved state place holds).mono ?_
  intro outcome after kept
  cases outcome with
  | done last => exact kept
  | more next =>
      obtain ⟨nextHolds, kinds, takes, nonempty⟩ := kept
      have shorter := Nat.lt_of_lt_of_le (takes.length_lt nonempty) fits
      cases bound with
      | nil => exact absurd shorter (Nat.not_lt_zero _)
      | cons head bound => exact ⟨Nat.le_of_lt_succ shorter, nextHolds⟩

/-- The state that a round leaves. -/
def Round.state : Round σ → σ
  | .more state | .done state => state

/-- What every round keeps, of the state and of the place, holds in the end. -/
theorem yields_iterate_of_rounds (invariant : σ → Cursor → Prop) (holds : invariant initial cursor)
    (preserved : ∀ state place, invariant state place →
      (round state).Yields place fun outcome after => invariant outcome.state after) :
    (iterate round initial).Yields cursor invariant := by
  rw [yields_iff_meets, iterate, meets_bind, meets_get]
  refine meets_iterateOver (fun _ => invariant) ?_ _ _ _ holds
  intro bound state place holds
  refine (yields_iff_meets.mp (preserved state place holds)).mono ?_
  intro outcome after kept
  cases outcome with
  | done last => exact kept
  | more next => cases bound <;> exact kept

/-- An invariant that every round keeps holds until the last round, which establishes the
result. -/
theorem yields_iterate (invariant : σ → Cursor → Prop) (holds : invariant initial cursor)
    (preserved : ∀ state place, invariant state place →
      (round state).Yields place (Keeps invariant post place)) :
    (iterate round initial).Yields cursor post :=
  yields_of_meets (meets_iterate invariant holds fun state place kept =>
    yields_iff_meets.mp (preserved state place kept))

end Laws

/-! ### Repetition without a bound -/

/-- What a repetition comes to that goes on for as long as its rounds ask for more: the result
of a last round that is done, or the error of one that fails. -/
inductive Loops (round : σ → Parser (Round σ)) :
    σ → Cursor → Except ParseError (σ × Cursor) → Prop where
  | done {state last : σ} {cursor after : Cursor}
      (ran : round state cursor = .ok (.done last, after)) :
      Loops round state cursor (.ok (last, after))
  | failed {state : σ} {cursor : Cursor} {error : ParseError}
      (ran : round state cursor = .error error) :
      Loops round state cursor (.error error)
  | more {state next : σ} {cursor between : Cursor} {outcome : Except ParseError (σ × Cursor)}
      (ran : round state cursor = .ok (.more next, between))
      (others : Loops round next between outcome) :
      Loops round state cursor outcome

/-- Every round that asks for more takes a token. -/
def Consumes (round : σ → Parser (Round σ)) : Prop :=
  ∀ state cursor next after,
    round state cursor = .ok (.more next, after) → cursor.Progress after

/-- The bound of a repetition whose rounds take tokens is never met. -/
theorem loops_iterate {round : σ → Parser (Round σ)} (consumes : Consumes round) (initial : σ)
    (cursor : Cursor) : Loops round initial cursor (iterate round initial cursor) := by
  have meets : (iterate round initial).Meets cursor
      (fun last after => Loops round initial cursor (.ok (last, after)))
      (fun error => Loops round initial cursor (.error error)) := by
    refine meets_iterate (fun state place =>
      ∀ outcome, Loops round state place outcome → Loops round initial cursor outcome)
      (fun _ loops => loops) ?_
    intro state place goesOn
    cases ran : round state place with
    | error error => exact (meets_of_error ran).mpr (goesOn _ (.failed ran))
    | ok pair =>
        obtain ⟨outcome, after⟩ := pair
        rw [meets_of_ok ran]
        cases outcome with
        | done last => exact goesOn _ (.done ran)
        | more next =>
            exact ⟨fun _ others => goesOn _ (.more ran others), consumes state place next after ran⟩
  cases ran : iterate round initial cursor with
  | error error => exact (meets_of_error ran).mp meets
  | ok pair => exact (meets_of_ok ran).mp meets

theorem Loops.unique {round : σ → Parser (Round σ)} {state : σ} {cursor : Cursor}
    {outcome other : Except ParseError (σ × Cursor)} (loops : Loops round state cursor outcome)
    (loopsToo : Loops round state cursor other) : outcome = other := by
  induction loops with
  | done ran =>
      cases loopsToo with
      | done ranToo => simpa [ran] using ranToo
      | failed ranToo => simp [ran] at ranToo
      | more ranToo => simp [ran] at ranToo
  | failed ran =>
      cases loopsToo with
      | done ranToo => simp [ran] at ranToo
      | failed ranToo => simpa [ran] using ranToo
      | more ranToo => simp [ran] at ranToo
  | more ran _ inductionHypothesis =>
      cases loopsToo with
      | done ranToo => simp [ran] at ranToo
      | failed ranToo => simp [ran] at ranToo
      | more ranToo others =>
          rw [ran] at ranToo
          cases ranToo
          exact inductionHypothesis others

end Parser
end Transpiler
