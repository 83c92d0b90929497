import Transpiler.Proofs.Grammar.Unread
import Transpiler.Proofs.Syntax.Relocation

/-!
Contract: what a rule can tell apart.

Owns: how far a rule may read (`Bound`); the image of a place, which has no tokens after the first
that bounds the reading and every location moved; the judgment that a rule does at the image of a
place what another does at the place itself (`Parser.Mirrors`), with one law for each step and for
repetition; and the stretches of tokens that are passed over unread. The judgment also says that a
rule only moves forward, and never past what bounds it.

Does not own: the rules of the grammar.
-/

namespace Transpiler

/-! ### Bounds of reading -/

/-- How far is read: to the end of the file, or to the end of the line. -/
inductive Bound where
  | file
  | line

namespace Bound

/-- The kinds of tokens that are not read past. -/
def ends : Bound → TokenKind → Bool
  | .file, kind => kind == .endOfFile
  | .line, kind => Parser.endsLine kind

/-- None of the tokens bounds the reading. -/
def Allows (bound : Bound) (tokens : List Token) : Prop :=
  ∀ token ∈ tokens, bound.ends token.kind = false

/-- Taking a token of the kind does not go past the bound: an end of file is not taken. -/
def Admits (bound : Bound) (kind : TokenKind) : Prop :=
  bound.ends kind = true → kind = .endOfFile

variable {bound : Bound} {kind : TokenKind}

theorem newline_or_end (ends : Parser.endsLine kind = true) :
    kind = .newline ∨ kind = .endOfFile := by
  cases kind <;> simp_all [Parser.endsLine]

/-- Whatever bounds the reading ends a line. -/
theorem endsLine_of_ends (ended : bound.ends kind = true) : Parser.endsLine kind = true := by
  cases bound with
  | file =>
      rw [eq_of_beq ended]
      rfl
  | line => exact ended

theorem ends_eq_false (goesOn : Parser.endsLine kind = false) : bound.ends kind = false := by
  cases ended : bound.ends kind with
  | false => rfl
  | true =>
      rw [endsLine_of_ends ended] at goesOn
      cases goesOn

theorem allows_of_inLine {tokens : List Token}
    (inLine : ∀ token ∈ tokens, Parser.endsLine token.kind = false) : bound.Allows tokens :=
  fun token member => ends_eq_false (inLine token member)

theorem allows_of_noEnd {tokens : List Token}
    (noEnd : ∀ token ∈ tokens, token.kind ≠ .endOfFile) : Bound.file.Allows tokens :=
  fun token member => beq_eq_false_iff_ne.mpr (noEnd token member)

theorem allows_takeWhile {goesOn : TokenKind → Bool}
    (stops : ∀ kind, bound.ends kind = true → goesOn kind = false) (tokens : List Token) :
    bound.Allows (tokens.takeWhile (goesOn ·.kind)) := by
  intro token member
  have kept := List.all_eq_true.mp List.all_takeWhile token member
  cases ended : bound.ends token.kind with
  | false => rfl
  | true =>
      rw [stops token.kind ended] at kept
      cases kept

theorem admits_file (kind : TokenKind) : Bound.file.Admits kind :=
  fun ended => eq_of_beq ended

theorem Admits.of (notBreak : (kind == .newline) = false) : bound.Admits kind := by
  intro ended
  rcases newline_or_end (endsLine_of_ends ended) with rfl | isEnd
  · cases notBreak
  · exact isEnd

/-- A token of a known kind. -/
theorem Admits.at {cursor : Cursor} (atKind : cursor.current.kind = kind)
    (notBreak : (kind == .newline) = false) : bound.Admits cursor.current.kind := by
  rw [atKind]
  exact .of notBreak

end Bound

namespace Token

/-- The tokens through the first that bounds the reading. -/
def through (bound : Bound) : List Token → List Token
  | [] => []
  | token :: rest => if bound.ends token.kind then [token] else token :: through bound rest

variable {bound : Bound} {token : Token}

theorem through_cons_of_end (rest : List Token) (ended : bound.ends token.kind = true) :
    through bound (token :: rest) = [token] := by
  simp [through, ended]

theorem through_cons (rest : List Token) (goesOn : bound.ends token.kind = false) :
    through bound (token :: rest) = token :: through bound rest := by
  simp [through, goesOn]

theorem through_append {taken : List Token} (rest : List Token) (allowed : bound.Allows taken) :
    through bound (taken ++ rest) = taken ++ through bound rest := by
  induction taken with
  | nil => rfl
  | cons token others inductionHypothesis =>
      rw [List.cons_append, through_cons _ (allowed token List.mem_cons_self),
        inductionHypothesis fun other member => allowed other (List.mem_cons_of_mem _ member),
        List.cons_append]

theorem through_map_relocate (bound : Bound) (move : Relocation) (tokens : List Token) :
    through bound (tokens.map (·.relocate move)) =
      (through bound tokens).map (·.relocate move) := by
  induction tokens with
  | nil => rfl
  | cons token rest inductionHypothesis =>
      simp only [List.map_cons, through, relocate_kind, inductionHypothesis]
      split <;> rfl

end Token

/-! ### Images of places -/

namespace Cursor

/-- Whether the later place is reached from the earlier one without passing the bound. -/
def Reaches (bound : Bound) (start stop : Cursor) : Prop :=
  ∃ taken, start.Passes taken stop ∧ bound.Allows taken

namespace Reaches

variable {bound : Bound} {start middle stop cursor : Cursor}

theorem refl (cursor : Cursor) : cursor.Reaches bound cursor :=
  ⟨[], .refl cursor, by simp [Bound.Allows]⟩

theorem trans (first : start.Reaches bound middle) (second : middle.Reaches bound stop) :
    start.Reaches bound stop := by
  obtain ⟨taken, passes, allowed⟩ := first
  obtain ⟨more, passesMore, allowedMore⟩ := second
  refine ⟨taken ++ more, passes.trans passesMore, ?_⟩
  intro token member
  exact (List.mem_append.mp member).elim (allowed token) (allowedMore token)

/-- An end of file is not taken. -/
theorem advance (admits : bound.Admits cursor.current.kind) :
    cursor.Reaches bound cursor.advance := by
  by_cases isEnd : cursor.current.kind = .endOfFile
  · rw [Cursor.advance, if_pos isEnd]
    exact refl cursor
  · refine ⟨_, .advance isEnd, ?_⟩
    simpa [Bound.Allows] using fun ended => isEnd (admits ended)

theorem progress (progress : start.Progress middle) (reaches : middle.Reaches bound stop) :
    start.Progress stop := by
  obtain ⟨taken, passes, _⟩ := reaches
  exact progress.then passes.takes

theorem thenProgress (reaches : start.Reaches bound middle) (progress : middle.Progress stop) :
    start.Progress stop := by
  obtain ⟨taken, passes, _⟩ := reaches
  obtain ⟨kinds, takes, nonempty⟩ := progress
  exact ⟨_, passes.takes.trans takes, by simp [nonempty]⟩

end Reaches

variable {bound : Bound} (move : Relocation)

/-- A place as it looks with every location moved and nothing after the first token that bounds
the reading. -/
def image (bound : Bound) (move : Relocation) (cursor : Cursor) : Cursor :=
  ⟨(Token.through bound cursor.remaining).map (·.relocate move), move.apply cursor.previous⟩

@[simp] theorem image_previous (cursor : Cursor) :
    (cursor.image bound move).previous = move.apply cursor.previous := rfl

@[simp] theorem image_current (cursor : Cursor) :
    (cursor.image bound move).current = cursor.current.relocate move := by
  obtain ⟨remaining, previous⟩ := cursor
  cases remaining with
  | nil => simp [image, Token.through, current, Token.relocate]
  | cons token rest =>
      cases ended : bound.ends token.kind with
      | true => simp [image, Token.through_cons_of_end rest ended]
      | false => simp [image, Token.through_cons rest ended]

/-- The image of a place keeps the token after the current one, unless that is the last. -/
theorem image_nextKind {cursor : Cursor} (goesOn : bound.ends cursor.current.kind = false) :
    (cursor.image bound move).nextKind = cursor.nextKind := by
  obtain ⟨remaining, previous⟩ := cursor
  cases remaining with
  | nil => cases bound <;> cases goesOn
  | cons token rest =>
      have goesOn : bound.ends token.kind = false := goesOn
      have ahead := congrArg (·.kind) (@image_current bound move ⟨rest, previous⟩)
      simpa [current_kind, headKind, nextKind, image, Token.through_cons rest goesOn] using ahead

section Passing

variable {start stop : Cursor} {taken : List Token}

/-- Images keep what lies between two places. -/
theorem Passes.image (passes : start.Passes taken stop) (allowed : bound.Allows taken) :
    (start.image bound move).Passes (taken.map (·.relocate move)) (stop.image bound move) where
  split := by
    rw [Cursor.image, Cursor.image, passes.split, Token.through_append _ allowed,
      List.map_append]
  noEnd := by
    intro token member
    obtain ⟨original, inTaken, rfl⟩ := List.mem_map.mp member
    exact passes.noEnd original inTaken
  previous := by
    rw [image_previous, image_previous, passes.previous, List.getLast?_map]
    cases taken.getLast? <;> rfl

/-- The later place is the earlier one with the tokens in between skipped. -/
theorem Passes.skip_eq (passes : start.Passes taken stop) : start.skip taken.length = stop := by
  obtain ⟨remaining, previous⟩ := stop
  have split : start.remaining = taken ++ remaining := passes.split
  have isPrevious : previous = (taken.getLast?.map (·.span)).getD start.previous := passes.previous
  simp [Cursor.skip, split, isPrevious]

theorem Passes.image_skip (passes : start.Passes taken stop) (allowed : bound.Allows taken) :
    (start.image bound move).skip taken.length = stop.image bound move := by
  have skipped := (passes.image move allowed).skip_eq
  rwa [List.length_map] at skipped

theorem image_advance {cursor : Cursor} (admits : bound.Admits cursor.current.kind) :
    (cursor.image bound move).advance = cursor.advance.image bound move := by
  by_cases isEnd : cursor.current.kind = .endOfFile
  · simp [advance, isEnd]
  · have allowed : bound.Allows [cursor.current] := by
      simpa [Bound.Allows] using fun ended => isEnd (admits ended)
    have one := (Passes.advance isEnd).image_skip move allowed
    rw [advance, if_neg (by simpa using isEnd)]
    exact one

end Passing
end Cursor

/-! ### Rules that do the same -/

namespace Parser

variable {α β σ : Type} {bound : Bound} {move : Relocation}

/-- At the image of a place, `reflected` yields a value that is related to what `rule` yields
at the place itself, and stops at the image of the place where `rule` stops; or both fail, with
an error and its image. The rule moves forward only. -/
def Mirrors (bound : Bound) (move : Relocation) (reflected rule : Parser α) (cursor : Cursor)
    (post : α → α → Cursor → Prop) : Prop :=
  rule.Meets cursor
    (fun value after => cursor.Reaches bound after ∧ ∃ other,
      reflected (cursor.image bound move) = .ok (other, after.image bound move) ∧
        post other value after)
    (fun error => reflected (cursor.image bound move) = .error (error.relocate move))

section Steps

variable {reflected rule : Parser α} {cursor : Cursor} {post : α → α → Cursor → Prop}

theorem Mirrors.reaches {value : α} {after : Cursor}
    (mirrors : Mirrors bound move reflected rule cursor post)
    (ran : rule cursor = .ok (value, after)) :
    cursor.Reaches bound after :=
  ((meets_of_ok ran).mp mirrors).1

theorem Mirrors.and {also : α → Cursor → Prop}
    (mirrors : Mirrors bound move reflected rule cursor post) (yields : rule.Yields cursor also) :
    Mirrors bound move reflected rule cursor fun other value after =>
      post other value after ∧ also value after := by
  unfold Mirrors at *
  cases ran : rule cursor with
  | error error =>
      rw [meets_of_error ran] at mirrors ⊢
      exact mirrors
  | ok pair =>
      obtain ⟨value, after⟩ := pair
      rw [meets_of_ok ran] at mirrors ⊢
      obtain ⟨reaches, other, ranReflected, holds⟩ := mirrors
      exact ⟨reaches, other, ranReflected, holds, yields value after ran⟩

theorem mirrors_of_ok {other value : α} {after : Cursor}
    (ran : rule cursor = .ok (value, after))
    (ranReflected : reflected (cursor.image bound move) = .ok (other, after.image bound move))
    (reaches : cursor.Reaches bound after) (holds : post other value after) :
    Mirrors bound move reflected rule cursor post :=
  (meets_of_ok ran).mpr ⟨reaches, other, ranReflected, holds⟩

theorem mirrors_of_error {error : ParseError} (failed : rule cursor = .error error)
    (failedReflected : reflected (cursor.image bound move) = .error (error.relocate move)) :
    Mirrors bound move reflected rule cursor post :=
  (meets_of_error failed).mpr failedReflected

theorem mirrors_pure {other value : α} (holds : post other value cursor) :
    Mirrors bound move (pure other) (pure value) cursor post :=
  mirrors_of_ok (run_pure value cursor) (run_pure other _) (.refl cursor) holds

theorem mirrors_bind {first firstReflected : Parser β} {next nextReflected : β → Parser α}
    {between : β → β → Cursor → Prop}
    (mirrors : Mirrors bound move firstReflected first cursor between)
    (continues : ∀ other value after, cursor.Reaches bound after → between other value after →
      Mirrors bound move (nextReflected other) (next value) after post) :
    Mirrors bound move (firstReflected >>= nextReflected) (first >>= next) cursor post := by
  unfold Mirrors at *
  rw [meets_bind]
  cases ran : first cursor with
  | error error =>
      rw [meets_of_error ran] at mirrors ⊢
      rw [run_bind, mirrors]
  | ok pair =>
      obtain ⟨value, after⟩ := pair
      rw [meets_of_ok ran] at mirrors ⊢
      obtain ⟨reaches, other, ranReflected, holds⟩ := mirrors
      rw [run_bind_of_ok ranReflected]
      refine (continues other value after reaches holds).mono ?_
      rintro result final ⟨further, found⟩
      exact ⟨reaches.trans further, found⟩

theorem mirrors_ite {condition : Prop} [Decidable condition]
    {first second firstReflected secondReflected : Parser α}
    (whenTrue : condition → Mirrors bound move firstReflected first cursor post)
    (whenFalse : ¬ condition → Mirrors bound move secondReflected second cursor post) :
    Mirrors bound move (if condition then firstReflected else secondReflected)
      (if condition then first else second) cursor post := by
  split
  next holds => exact whenTrue holds
  next fails => exact whenFalse fails

/-- Nothing follows a rule that fails. -/
private theorem mirrors_bind_of_never {first firstReflected : Parser β}
    {next nextReflected : β → Parser α}
    (fails : Mirrors bound move firstReflected first cursor fun _ _ _ => False) :
    Mirrors bound move (firstReflected >>= nextReflected) (first >>= next) cursor post :=
  mirrors_bind fails fun _ _ _ _ impossible => impossible.elim

theorem mirrors_throw {error errorReflected : ParseError}
    (same : errorReflected = error.relocate move) :
    Mirrors bound move (throw errorReflected) (throw error) cursor post :=
  mirrors_of_error (run_throw error cursor) (by rw [run_throw, same])

theorem mirrors_failHere {kind kindReflected : ParseErrorKind}
    (same : kindReflected = kind.relocate move) :
    Mirrors bound move (failHere kindReflected) (failHere kind) cursor post := by
  apply mirrors_of_error (run_failHere kind cursor)
  rw [run_failHere, same, Cursor.image_current]
  rfl

theorem mirrors_unexpected {expected : String} :
    Mirrors bound move (unexpected expected) (unexpected expected) cursor post :=
  mirrors_of_error (run_unexpected expected cursor)
    (by rw [run_unexpected, Cursor.image_current, ParseError.relocate_unexpected])

end Steps

/-! ### Steps that are followed by others -/

section Reading

variable {cursor : Cursor} {post : α → α → Cursor → Prop}

/-- A step that only reads. -/
theorem mirrors_read {read : Parser β} {other value : β} {next nextReflected : β → Parser α}
    (ran : read cursor = .ok (value, cursor))
    (ranReflected : read (cursor.image bound move) = .ok (other, cursor.image bound move)) :
    Mirrors bound move (read >>= nextReflected) (read >>= next) cursor post ↔
      Mirrors bound move (nextReflected other) (next value) cursor post := by
  unfold Mirrors Meets
  rw [run_bind_of_ok ran, run_bind_of_ok ranReflected]

theorem mirrors_get {next nextReflected : Cursor → Parser α} :
    Mirrors bound move (get >>= nextReflected) (get >>= next) cursor post ↔
      Mirrors bound move (nextReflected (cursor.image bound move)) (next cursor) cursor post :=
  mirrors_read (run_get cursor) (run_get _)

theorem mirrors_current {next nextReflected : Token → Parser α} :
    Mirrors bound move (current >>= nextReflected) (current >>= next) cursor post ↔
      Mirrors bound move (nextReflected (cursor.current.relocate move)) (next cursor.current)
        cursor post :=
  mirrors_read (run_current cursor) (by rw [run_current, Cursor.image_current])

theorem mirrors_currentKind {next nextReflected : TokenKind → Parser α} :
    Mirrors bound move (currentKind >>= nextReflected) (currentKind >>= next) cursor post ↔
      Mirrors bound move (nextReflected cursor.current.kind) (next cursor.current.kind)
        cursor post :=
  mirrors_read (run_currentKind cursor) (by rw [run_currentKind, Cursor.image_current]; rfl)

theorem mirrors_currentSpan {next nextReflected : Span → Parser α} :
    Mirrors bound move (currentSpan >>= nextReflected) (currentSpan >>= next) cursor post ↔
      Mirrors bound move (nextReflected (move.apply cursor.current.span)) (next cursor.current.span)
        cursor post :=
  mirrors_read (run_currentSpan cursor) (by rw [run_currentSpan, Cursor.image_current]; rfl)

theorem mirrors_previousSpan {next nextReflected : Span → Parser α} :
    Mirrors bound move (previousSpan >>= nextReflected) (previousSpan >>= next) cursor post ↔
      Mirrors bound move (nextReflected (move.apply cursor.previous)) (next cursor.previous)
        cursor post :=
  mirrors_read (run_previousSpan cursor) (run_previousSpan _)

theorem mirrors_isAt {kind : TokenKind} {next nextReflected : Bool → Parser α} :
    Mirrors bound move (isAt kind >>= nextReflected) (isAt kind >>= next) cursor post ↔
      Mirrors bound move (nextReflected (cursor.current.kind == kind))
        (next (cursor.current.kind == kind)) cursor post :=
  mirrors_read (run_isAt kind cursor) (by rw [run_isAt, Cursor.image_current]; rfl)

theorem mirrors_isAtKeyword {word : String} {next nextReflected : Bool → Parser α} :
    Mirrors bound move (isAtKeyword word >>= nextReflected) (isAtKeyword word >>= next)
        cursor post ↔
      Mirrors bound move (nextReflected (cursor.current.kind == .keyword word))
        (next (cursor.current.kind == .keyword word)) cursor post :=
  mirrors_isAt

end Reading

section Moving

variable {cursor : Cursor} {post : α → α → Cursor → Prop}

private theorem mirrors_set {place placeReflected : Cursor} {next nextReflected : PUnit → Parser α}
    (same : placeReflected = place.image bound move) (reaches : cursor.Reaches bound place)
    (continues : Mirrors bound move (nextReflected ⟨⟩) (next ⟨⟩) place post) :
    Mirrors bound move (set placeReflected >>= nextReflected) (set place >>= next) cursor post := by
  have sets : Mirrors bound move (set placeReflected) (set place) cursor
      fun _ _ after => after = place :=
    mirrors_of_ok (run_set place cursor) (by rw [run_set, same]) reaches rfl
  refine mirrors_bind sets ?_
  rintro _ _ _ _ rfl
  exact continues

/-- Taking the tokens between two places. -/
theorem mirrors_skip {after : Cursor} {taken : List Token} {count : Nat}
    {next nextReflected : PUnit → Parser α} (passes : cursor.Passes taken after)
    (allowed : bound.Allows taken) (counted : count = taken.length)
    (continues : Mirrors bound move (nextReflected ⟨⟩) (next ⟨⟩) after post) :
    Mirrors bound move (set ((cursor.image bound move).skip count) >>= nextReflected)
      (set (cursor.skip count) >>= next) cursor post := by
  subst counted
  rw [passes.skip_eq, passes.image_skip move allowed]
  exact mirrors_set rfl ⟨taken, passes, allowed⟩ continues

theorem mirrors_advance {next nextReflected : Span → Parser α}
    (admits : bound.Admits cursor.current.kind)
    (continues : Mirrors bound move (nextReflected (move.apply cursor.current.span))
      (next cursor.current.span) cursor.advance post) :
    Mirrors bound move (advance >>= nextReflected) (advance >>= next) cursor post := by
  have advances : Mirrors bound move advance advance cursor fun other value after =>
      other = move.apply cursor.current.span ∧ value = cursor.current.span ∧
        after = cursor.advance := by
    refine mirrors_of_ok (run_advance cursor) ?_ (.advance admits) ⟨rfl, rfl, rfl⟩
    rw [run_advance, Cursor.image_current, Cursor.image_advance move admits]
    rfl
  refine mirrors_bind advances ?_
  rintro _ _ _ _ ⟨rfl, rfl, rfl⟩
  exact continues

theorem mirrors_eat {kind : TokenKind} {next nextReflected : Bool → Parser α}
    (admits : bound.Admits kind)
    (taken : cursor.current.kind = kind →
      Mirrors bound move (nextReflected true) (next true) cursor.advance post)
    (left : cursor.current.kind ≠ kind →
      Mirrors bound move (nextReflected false) (next false) cursor post) :
    Mirrors bound move (eat kind >>= nextReflected) (eat kind >>= next) cursor post := by
  have ran := run_eat kind cursor
  have ranReflected := run_eat kind (cursor.image bound move)
  rw [Cursor.image_current, Token.relocate_kind] at ranReflected
  by_cases atKind : cursor.current.kind = kind
  · rw [← atKind] at admits
    rw [if_pos atKind] at ran ranReflected
    rw [Cursor.image_advance move admits] at ranReflected
    have eats : Mirrors bound move (eat kind) (eat kind) cursor fun other value after =>
        other = true ∧ value = true ∧ after = cursor.advance :=
      mirrors_of_ok ran ranReflected (.advance admits) ⟨rfl, rfl, rfl⟩
    refine mirrors_bind eats ?_
    rintro _ _ _ _ ⟨rfl, rfl, rfl⟩
    exact taken atKind
  · rw [if_neg atKind] at ran ranReflected
    rw [mirrors_read ran ranReflected]
    exact left atKind

/-- Whether or not the token is taken. -/
theorem mirrors_eatAlone {kind : TokenKind} (admits : bound.Admits kind) :
    Mirrors bound move (eat kind) (eat kind) cursor fun other eaten _ => other = eaten := by
  rw [← bind_pure (eat kind)]
  exact mirrors_eat admits (fun _ => mirrors_pure rfl) fun _ => mirrors_pure rfl

theorem mirrors_eatKeyword {word : String} {next nextReflected : Bool → Parser α}
    (taken : cursor.current.kind = .keyword word →
      Mirrors bound move (nextReflected true) (next true) cursor.advance post)
    (left : cursor.current.kind ≠ .keyword word →
      Mirrors bound move (nextReflected false) (next false) cursor post) :
    Mirrors bound move (eatKeyword word >>= nextReflected) (eatKeyword word >>= next) cursor post :=
  mirrors_eat (.of rfl) taken left

theorem mirrors_expectClosing {closing : TokenKind} {opening expected : String}
    {openedAt : Span} {next nextReflected : Span → Parser α} (admits : bound.Admits closing)
    (continues : cursor.current.kind = closing →
      Mirrors bound move (nextReflected (move.apply cursor.current.span)) (next cursor.current.span)
        cursor.advance post) :
    Mirrors bound move
      (expectClosing closing opening (move.apply openedAt) expected >>= nextReflected)
      (expectClosing closing opening openedAt expected >>= next) cursor post := by
  unfold expectClosing
  simp only [bind_assoc, mirrors_isAt]
  by_cases atClosing : cursor.current.kind = closing
  · simp only [atClosing, beq_self_eq_true, if_true]
    rw [← atClosing] at admits
    exact mirrors_advance admits (continues atClosing)
  · have notAt : (cursor.current.kind == closing) = false := by simpa using atClosing
    simp only [notAt, Bool.false_eq_true, if_false, bind_assoc, mirrors_currentKind]
    by_cases ends : endsLine cursor.current.kind = true
    · simp only [ends, if_true]
      exact mirrors_bind_of_never (mirrors_failHere rfl)
    · simp only [ends, Bool.false_eq_true, if_false]
      exact mirrors_bind_of_never mirrors_unexpected

end Moving

/-! ### Repetition -/

/-- A round and the one that it mirrors go on alike, and one that asks for more takes a token. -/
def GoesOnAlike (reflect : σ → σ) (start : Cursor) (other : Round σ) :
    Round σ → Cursor → Prop
  | .more next, after => other = .more (reflect next) ∧ start.Progress after
  | .done last, _ => other = .done (reflect last)

@[simp] theorem goesOnAlike_more {reflect : σ → σ} {start after : Cursor} {other next : σ} :
    GoesOnAlike reflect start (.more other) (.more next) after ↔
      other = reflect next ∧ start.Progress after := by
  simp [GoesOnAlike]

@[simp] theorem goesOnAlike_done {reflect : σ → σ} {start after : Cursor} {other last : σ} :
    GoesOnAlike reflect start (.done other) (.done last) after ↔ other = reflect last := by
  simp [GoesOnAlike]

/-- The rounds of a repetition, each from a state and its image. -/
def RoundsMirror (bound : Bound) (move : Relocation) (reflect : σ → σ)
    (round : σ → Parser (Round σ)) : Prop :=
  ∀ state place,
    Mirrors bound move (round (reflect state)) (round state) place (GoesOnAlike reflect place)

section Repetition

variable {reflect : σ → σ} {round : σ → Parser (Round σ)}
  (rounds : RoundsMirror bound move reflect round)
include rounds

theorem RoundsMirror.consumes : Consumes round := by
  intro state cursor next after ran
  obtain ⟨_, _, _, _, progress⟩ := (meets_of_ok ran).mp (rounds state cursor)
  exact progress

/-- What a repetition comes to at a place, it comes to at the image as well. -/
theorem Loops.image {state : σ} {cursor : Cursor} {outcome : Except ParseError (σ × Cursor)}
    (loops : Loops round state cursor outcome) :
    Loops round (reflect state) (cursor.image bound move)
        ((outcome.map (Prod.map reflect (Cursor.image bound move))).mapError
          (·.relocate move)) ∧
      ∀ last after, outcome = .ok (last, after) → cursor.Reaches bound after := by
  induction loops with
  | @done state last cursor after ran =>
      obtain ⟨reaches, other, ranReflected, alike⟩ := (meets_of_ok ran).mp (rounds state cursor)
      obtain rfl : other = .done (reflect last) := alike
      refine ⟨.done ranReflected, ?_⟩
      rintro _ _ ⟨⟩
      exact reaches
  | @failed state cursor error ran =>
      exact ⟨.failed ((meets_of_error ran).mp (rounds state cursor)), by rintro _ _ ⟨⟩⟩
  | @more state next cursor between outcome ran _ inductionHypothesis =>
      obtain ⟨reaches, other, ranReflected, alike, _⟩ :=
        (meets_of_ok ran).mp (rounds state cursor)
      obtain rfl : other = .more (reflect next) := alike
      obtain ⟨others, reachesEnd⟩ := inductionHypothesis
      exact ⟨.more ranReflected others, fun last after isEnd =>
        reaches.trans (reachesEnd last after isEnd)⟩

theorem mirrors_iterate {initial : σ} {cursor : Cursor} :
    Mirrors bound move (iterate round (reflect initial)) (iterate round initial) cursor
      fun other last _ => other = reflect last := by
  have loops := loops_iterate rounds.consumes initial cursor
  obtain ⟨loopsReflected, reaches⟩ := loops.image rounds
  have same := (loops_iterate rounds.consumes (reflect initial) (cursor.image bound move)).unique
    loopsReflected
  cases ran : iterate round initial cursor with
  | error error => exact mirrors_of_error ran (by rw [same, ran]; rfl)
  | ok pair =>
      obtain ⟨last, after⟩ := pair
      exact mirrors_of_ok ran (by rw [same, ran]; rfl) (reaches last after ran) rfl

end Repetition

end Parser

/-! ### Tokens that are passed over -/

section Stretches

variable {bound : Bound} (move : Relocation)

theorem Token.map_kind_getLast?_relocate (tokens : List Token) :
    (tokens.map (·.relocate move)).getLast?.map (·.kind) = tokens.getLast?.map (·.kind) := by
  rw [List.getLast?_map, Option.map_map]
  rfl

theorem Token.lastSpan_relocate (tokens : List Token) (otherwise : Span) :
    ((tokens.map (·.relocate move)).getLast?.map (·.span)).getD (move.apply otherwise) =
      move.apply ((tokens.getLast?.map (·.span)).getD otherwise) := by
  rw [List.getLast?_map]
  cases tokens.getLast? <;> rfl

/-- Tokens up to one of a kind that what bounds the reading counts as. -/
theorem Token.takeWhile_image {goesOn : TokenKind → Bool}
    (stops : ∀ kind, bound.ends kind = true → goesOn kind = false) (tokens : List Token) :
    ((Token.through bound tokens).map (·.relocate move)).takeWhile (goesOn ·.kind) =
      (tokens.takeWhile (goesOn ·.kind)).map (·.relocate move) := by
  induction tokens with
  | nil => rfl
  | cons token rest inductionHypothesis =>
      cases ended : bound.ends token.kind with
      | true => simp [Token.through_cons_of_end rest ended, stops token.kind ended]
      | false =>
          rw [Token.through_cons rest ended]
          cases further : goesOn token.kind <;> simp [further, inductionHypothesis]

theorem BracketContents.measureFrom_image (depth lambdas : Nat) (contents : BracketContents)
    (tokens : List Token) :
    measureFrom depth lambdas contents ((Token.through bound tokens).map (·.relocate move)) =
      measureFrom depth lambdas contents tokens := by
  induction tokens generalizing depth lambdas contents with
  | nil => rfl
  | cons token rest inductionHypothesis =>
      cases ended : bound.ends token.kind with
      | true =>
          rw [Token.through_cons_of_end rest ended]
          rcases Bound.newline_or_end (Bound.endsLine_of_ends ended) with isKind | isKind <;>
            simp [measureFrom, isKind]
      | false =>
          rw [Token.through_cons rest ended, List.map_cons]
          simp only [measureFrom, Token.relocate_kind, inductionHypothesis]

theorem lambdaParameters_image (depth : Nat) (tokens : List Token) :
    lambdaParameters depth ((Token.through bound tokens).map (·.relocate move)) =
      (lambdaParameters depth tokens).mapError (·.relocate move) := by
  induction tokens generalizing depth with
  | nil => simp [Token.through, lambdaParameters, Except.mapError, Token.relocate]
  | cons token rest inductionHypothesis =>
      have onward : ∀ depth,
          (lambdaParameters depth ((Token.through bound rest).map (·.relocate move))).map (· + 1) =
            ((lambdaParameters depth rest).map (· + 1)).mapError (·.relocate move) := by
        intro depth
        rw [inductionHypothesis]
        cases lambdaParameters depth rest <;> rfl
      cases ended : bound.ends token.kind with
      | true =>
          rw [Token.through_cons_of_end rest ended]
          rcases Bound.newline_or_end (Bound.endsLine_of_ends ended) with isKind | isKind <;>
            simp [lambdaParameters, isKind, Except.mapError]
      | false =>
          rw [Token.through_cons rest ended, List.map_cons]
          simp only [lambdaParameters, Token.relocate_kind, onward]
          cases token.kind
          case rightParen | rightBracket | rightBrace => cases depth <;> rfl
          case colon => by_cases outermost : depth = 0 <;> simp [outermost, Except.mapError]
          all_goals rfl

private theorem blockTokens_image (depth : Nat) (tokens : List Token) :
    blockTokens depth ((Token.through .file tokens).map (·.relocate move)) =
      (blockTokens depth tokens).map (·.relocate move) := by
  induction tokens generalizing depth with
  | nil => simp [Token.through, blockTokens]
  | cons token rest inductionHypothesis =>
      cases depth with
      | zero => by_cases isEnd : token.kind = .endOfFile <;>
          simp [Token.through, Bound.ends, isEnd, blockTokens]
      | succ outer =>
          by_cases isEnd : token.kind = .endOfFile
          · simp [Token.through, Bound.ends, blockTokens, isEnd]
          · have goesOn : Bound.file.ends token.kind = false := beq_eq_false_iff_ne.mpr isEnd
            rw [Token.through_cons rest goesOn, List.map_cons]
            simp only [blockTokens, Token.relocate_kind, inductionHypothesis]
            cases token.kind <;> rfl

end Stretches

namespace Parser

variable {bound : Bound} {move : Relocation} {cursor : Cursor}

theorem mirrors_takeUntil {stops : TokenKind → Bool}
    (broad : ∀ kind, bound.ends kind = true → kind = .endOfFile ∨ stops kind = true) :
    Mirrors bound move (takeUntil stops) (takeUntil stops) cursor fun other tokens after =>
      other = tokens.map (·.relocate move) ∧
        (cursor.current.kind ≠ .endOfFile → stops cursor.current.kind = false →
          cursor.Progress after) := by
  have ended (kind : TokenKind) (ends : bound.ends kind = true) :
      (kind != .endOfFile && !stops kind) = false := by
    rcases broad kind ends with rfl | stopped
    · rfl
    · rw [stopped, Bool.not_true, Bool.and_false]
  have sameTokens := Token.takeWhile_image move ended cursor.remaining
  have noEnd : ∀ token ∈ cursor.remaining.takeWhile fun token =>
      token.kind != .endOfFile && !stops token.kind, token.kind ≠ .endOfFile := by
    intro token member
    have kept := List.all_eq_true.mp List.all_takeWhile token member
    simp_all
  have allowed := Bound.allows_takeWhile ended cursor.remaining
  have passes := Cursor.Passes.skip_of_isPrefix (List.takeWhile_prefix _) noEnd
  unfold takeUntil
  rw [mirrors_get]
  simp only [show (cursor.image bound move).remaining =
    (Token.through bound cursor.remaining).map (·.relocate move) from rfl, sameTokens,
    List.length_map]
  refine mirrors_skip passes allowed rfl (mirrors_pure ⟨rfl, ?_⟩)
  intro notEnd further
  apply passes.progress
  obtain ⟨remaining, previous⟩ := cursor
  cases remaining with
  | nil => exact absurd rfl notEnd
  | cons token rest => simp_all

theorem mirrors_skipBracketContents :
    Mirrors bound move skipBracketContents skipBracketContents cursor fun other contents _ =>
      other = contents := by
  have sameContents : BracketContents.measure (cursor.image bound move).remaining =
      BracketContents.measure cursor.remaining :=
    BracketContents.measureFrom_image move 0 0 _ cursor.remaining
  obtain ⟨taken, rest, split, total, unread⟩ :=
    Extent.unread_measureFrom 0 0 ⟨0, false, false⟩ cursor.remaining
  have passes : cursor.Passes taken (cursor.skip taken.length) := by
    apply Cursor.Passes.skip_of_isPrefix ⟨rest, split.symm⟩
    intro token member isEnd
    have inLine := unread.inLine token member
    simp [isEnd, endsLine] at inLine
  unfold skipBracketContents
  rw [mirrors_get]
  simp only [sameContents]
  refine mirrors_skip passes (Bound.allows_of_inLine unread.inLine) ?_ (mirrors_pure rfl)
  rw [BracketContents.measure, total, Nat.zero_add]

/-- A clause has a header, so that a token is taken. -/
theorem mirrors_skipClause :
    Mirrors .file move skipClause skipClause cursor fun other last after =>
      other = move.apply last ∧ (endsLine cursor.current.kind = false → cursor.Progress after) := by
  unfold skipClause
  rw [mirrors_currentSpan]
  refine mirrors_bind (mirrors_takeUntil fun kind ended => .inl (eq_of_beq ended)) ?_
  rintro _ header afterHeader _ ⟨rfl, progress⟩
  have sameColon : (header.map (·.relocate move)).any (·.kind == .colon) =
      header.any (·.kind == .colon) := by
    rw [List.any_map]
    rfl
  have headerEnds : endsLine cursor.current.kind = false → cursor.Progress afterHeader := by
    intro goesOn
    apply progress _ goesOn
    rintro isEnd
    simp [isEnd, endsLine] at goesOn
  simp only [sameColon, Token.map_kind_getLast?_relocate, Token.lastSpan_relocate]
  refine mirrors_ite (fun _ => mirrors_unexpected) fun _ => ?_
  refine mirrors_bind (mirrors_eatAlone (Bound.admits_file _)) ?_
  rintro _ _ afterLine reachesLine -
  have lineEnds (goesOn : endsLine cursor.current.kind = false) : cursor.Progress afterLine :=
    reachesLine.progress (headerEnds goesOn)
  refine mirrors_ite (fun _ => mirrors_pure ⟨rfl, lineEnds⟩) fun _ => ?_
  refine mirrors_eat (Bound.admits_file _) ?_ fun _ => mirrors_failHere rfl
  intro atIndent
  obtain ⟨isPrefix, noEnd⟩ := blockTokens_isPrefix 1 afterLine.advance.remaining
  have passes := Cursor.Passes.skip_of_isPrefix isPrefix noEnd
  have allowed := Bound.allows_of_noEnd noEnd
  have sameBody : blockTokens 1 (afterLine.advance.image .file move).remaining =
      (blockTokens 1 afterLine.advance.remaining).map (·.relocate move) :=
    blockTokens_image move 1 afterLine.advance.remaining
  simp only [Bool.not_true, Bool.false_eq_true, if_false, mirrors_get, sameBody, List.length_map,
    List.filter_map]
  refine mirrors_skip passes allowed rfl (mirrors_pure ⟨?_, ?_⟩)
  · exact Token.lastSpan_relocate move _ _
  · intro goesOn
    have block := Cursor.Reaches.trans (.advance (Bound.admits_file _)) ⟨_, passes, allowed⟩
    exact block.progress (lineEnds goesOn)

end Parser
end Transpiler
