import Transpiler.Proofs.Grammar.Rules
import Transpiler.Proofs.Grammar.Running

/-!
Contract: what holds of every successful run of a rule.

Owns: the judgment that whatever a rule yields satisfies a condition, with one law for each step;
what a round of a repetition leaves; and the kinds of the tokens between two places.
-/

namespace Transpiler

/-! ### Tokens between two places -/

namespace Cursor

/-- The tokens between two places have the given kinds, and none is an end of file. -/
def Takes (start : Cursor) (kinds : List TokenKind) (stop : Cursor) : Prop :=
  TokenKind.endOfFile ∉ kinds ∧
    ∃ tokens, tokens.map (·.kind) = kinds ∧ start.remaining = tokens ++ stop.remaining

namespace Takes

theorem trans {start middle stop : Cursor} {kinds others : List TokenKind}
    (first : start.Takes kinds middle) (second : middle.Takes others stop) :
    start.Takes (kinds ++ others) stop := by
  obtain ⟨notIn, tokens, shape, split⟩ := first
  obtain ⟨notInOthers, otherTokens, otherShape, otherSplit⟩ := second
  refine ⟨by simp [notIn, notInOthers], tokens ++ otherTokens, ?_, ?_⟩
  · rw [List.map_append, shape, otherShape]
  · rw [split, otherSplit, List.append_assoc]

theorem advance {cursor : Cursor} {kind : TokenKind} (atKind : cursor.current.kind = kind)
    (notEnd : (kind == .endOfFile) = false) : cursor.Takes [kind] cursor.advance := by
  subst atKind
  rw [beq_eq_false_iff_ne] at notEnd
  obtain ⟨remaining, previous⟩ := cursor
  cases remaining with
  | nil => exact absurd rfl notEnd
  | cons token rest =>
      rw [advance_cons token rest previous notEnd]
      exact ⟨by simpa [eq_comm] using notEnd, [token], rfl, rfl⟩

theorem length_lt {start stop : Cursor} {kinds : List TokenKind} (takes : start.Takes kinds stop)
    (nonempty : kinds ≠ []) : stop.remaining.length < start.remaining.length := by
  obtain ⟨_, tokens, rfl, split⟩ := takes
  have some : 0 < tokens.length := by
    rw [List.length_pos_iff]
    rintro rfl
    exact nonempty rfl
  rw [split, List.length_append]
  omega

end Takes

/-- At least one token is taken. -/
def Progress (start stop : Cursor) : Prop :=
  ∃ kinds, start.Takes kinds stop ∧ kinds ≠ []

theorem Progress.then {start middle stop : Cursor} {kinds : List TokenKind}
    (progress : start.Progress middle) (takes : middle.Takes kinds stop) : start.Progress stop := by
  obtain ⟨earlier, takesEarlier, nonempty⟩ := progress
  exact ⟨earlier ++ kinds, takesEarlier.trans takes, by simp [nonempty]⟩

theorem Progress.trans {start middle stop : Cursor} (first : start.Progress middle)
    (second : middle.Progress stop) : start.Progress stop := by
  obtain ⟨kinds, takes, _⟩ := second
  exact first.then takes

theorem Progress.advance {cursor : Cursor} {kind : TokenKind}
    (atKind : cursor.current.kind = kind) (notEnd : (kind == .endOfFile) = false) :
    cursor.Progress cursor.advance :=
  ⟨[kind], .advance atKind notEnd, by simp⟩

end Cursor

/-! ### What rules yield -/

namespace Parser

variable {α β σ : Type}

/-- Whatever the rule yields at a place satisfies a condition, together with the place it
stops at. -/
def Yields (rule : Parser α) (cursor : Cursor) (post : α → Cursor → Prop) : Prop :=
  ∀ value after, rule cursor = .ok (value, after) → post value after

theorem Yields.mono {rule : Parser α} {cursor : Cursor} {weak strong : α → Cursor → Prop}
    (yields : rule.Yields cursor strong)
    (weaker : ∀ value after, strong value after → weak value after) :
    rule.Yields cursor weak :=
  fun value after ran => weaker value after (yields value after ran)

section Steps

variable {cursor : Cursor} {post : α → Cursor → Prop}

/-- A rule that runs one way only. -/
theorem yields_of_ok {rule : Parser α} {value : α} {after : Cursor}
    (ran : rule cursor = .ok (value, after)) : rule.Yields cursor post ↔ post value after := by
  constructor
  · intro yields
    exact yields value after ran
  · intro holds value' after' ran'
    rw [ran] at ran'
    cases ran'
    exact holds

theorem yields_of_error {rule : Parser α} {error : ParseError}
    (failed : rule cursor = .error error) : rule.Yields cursor post := by
  intro value after ran
  rw [failed] at ran
  cases ran

@[simp] theorem yields_pure {value : α} :
    (pure value : Parser α).Yields cursor post ↔ post value cursor :=
  yields_of_ok (run_pure value cursor)

@[simp] theorem yields_bind {first : Parser β} {next : β → Parser α} :
    (first >>= next).Yields cursor post ↔
      first.Yields cursor fun value after => (next value).Yields after post := by
  constructor
  · intro yields value between ran result after continued
    exact yields result after (bind_eq_ok.mpr ⟨value, between, ran, continued⟩)
  · intro yields result after ran
    obtain ⟨value, between, ranFirst, continued⟩ := bind_eq_ok.mp ran
    exact yields value between ranFirst result after continued

@[simp] theorem yields_ite {condition : Prop} [Decidable condition] {first second : Parser α} :
    (if condition then first else second).Yields cursor post ↔
      (condition → first.Yields cursor post) ∧ (¬ condition → second.Yields cursor post) := by
  split <;> simp [*]

@[simp] theorem yields_throw {error : ParseError} :
    (throw error : Parser α).Yields cursor post :=
  yields_of_error (run_throw error cursor)

@[simp] theorem yields_failHere {kind : ParseErrorKind} :
    (failHere kind : Parser α).Yields cursor post :=
  yields_of_error (run_failHere kind cursor)

@[simp] theorem yields_unexpected {expected : String} :
    (unexpected expected : Parser α).Yields cursor post :=
  yields_of_error (run_unexpected expected cursor)

@[simp] theorem yields_get {post : Cursor → Cursor → Prop} :
    (get : Parser Cursor).Yields cursor post ↔ post cursor cursor :=
  yields_of_ok (run_get cursor)

@[simp] theorem yields_set {place : Cursor} {post : PUnit → Cursor → Prop} :
    (set place : Parser PUnit).Yields cursor post ↔ post ⟨⟩ place :=
  yields_of_ok (run_set place cursor)

@[simp] theorem yields_current {post : Token → Cursor → Prop} :
    current.Yields cursor post ↔ post cursor.current cursor :=
  yields_of_ok (run_current cursor)

@[simp] theorem yields_currentKind {post : TokenKind → Cursor → Prop} :
    currentKind.Yields cursor post ↔ post cursor.current.kind cursor :=
  yields_of_ok (run_currentKind cursor)

@[simp] theorem yields_currentSpan {post : Span → Cursor → Prop} :
    currentSpan.Yields cursor post ↔ post cursor.current.span cursor :=
  yields_of_ok (run_currentSpan cursor)

@[simp] theorem yields_advance {post : Span → Cursor → Prop} :
    advance.Yields cursor post ↔ post cursor.current.span cursor.advance :=
  yields_of_ok (run_advance cursor)

@[simp] theorem yields_isAt {kind : TokenKind} {post : Bool → Cursor → Prop} :
    (isAt kind).Yields cursor post ↔ post (cursor.current.kind == kind) cursor :=
  yields_of_ok (run_isAt kind cursor)

@[simp] theorem yields_isAtKeyword {word : String} {post : Bool → Cursor → Prop} :
    (isAtKeyword word).Yields cursor post ↔ post (cursor.current.kind == .keyword word) cursor :=
  yields_of_ok (run_isAtKeyword word cursor)

@[simp] theorem yields_eat {kind : TokenKind} {post : Bool → Cursor → Prop} :
    (eat kind).Yields cursor post ↔
      (cursor.current.kind = kind → post true cursor.advance) ∧
        (cursor.current.kind ≠ kind → post false cursor) := by
  have ran := run_eat kind cursor
  split at ran
  next atKind => simp [yields_of_ok ran, atKind]
  next notAt => simp [yields_of_ok ran, notAt]

@[simp] theorem yields_expectClosing {closing : TokenKind} {opening : String} {openedAt : Span}
    {expected : String} {post : Span → Cursor → Prop} :
    (expectClosing closing opening openedAt expected).Yields cursor post ↔
      (cursor.current.kind = closing → post cursor.current.span cursor.advance) := by
  have ran := run_expectClosing closing opening openedAt expected cursor
  split at ran
  next atClosing => simp [yields_of_ok ran, atClosing]
  next notAt =>
    have failed : (expectClosing closing opening openedAt expected).Yields cursor post := by
      split at ran <;> exact yields_of_error ran
    simp [failed, notAt]

end Steps

/-! ### Repetition -/

/-- What a round leaves: the invariant and fewer tokens, or the result. -/
def Keeps (invariant post : σ → Cursor → Prop) (start : Cursor) : Round σ → Cursor → Prop
  | .more next, after => invariant next after ∧ start.Progress after
  | .done last, after => post last after

@[simp] theorem keeps_more {invariant post : σ → Cursor → Prop} {start after : Cursor} {next : σ} :
    Keeps invariant post start (.more next) after ↔ invariant next after ∧ start.Progress after :=
  .rfl

@[simp] theorem keeps_done {invariant post : σ → Cursor → Prop} {start after : Cursor} {last : σ} :
    Keeps invariant post start (.done last) after ↔ post last after :=
  .rfl

/-! ### Tokens that are passed over -/

theorem blockTokens_isPrefix (depth : Nat) (tokens : List Token) :
    blockTokens depth tokens <+: tokens ∧
      ∀ token ∈ blockTokens depth tokens, token.kind ≠ .endOfFile := by
  fun_induction blockTokens depth tokens <;> simp_all

end Parser
end Transpiler
