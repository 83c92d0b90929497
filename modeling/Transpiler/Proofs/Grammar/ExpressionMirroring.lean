import Transpiler.Proofs.Grammar.ExpressionOutline
import Transpiler.Proofs.Grammar.Mirroring

/-!
Contract: the expression rules tell places apart by the kinds of tokens only.

Owns: that every expression rule, run at the image of a place, reads the image of what it
reads at the place itself, or fails with the image of the error (`Parser.levelReflects_withRoom`).
-/

namespace Transpiler
namespace Parser

variable {bound : Bound} {move : Relocation}

/-! ### Rules that read expressions -/

/-- At the image of a place the rule reads the image of an expression. -/
def ReflectsAt (bound : Bound) (move : Relocation) (rule : Parser Expr) (cursor : Cursor) : Prop :=
  Mirrors bound move rule rule cursor fun other read _ => other = read.relocate move

/-- A rule that does so at every place. -/
def Reflects (bound : Bound) (move : Relocation) (rule : Parser Expr) : Prop :=
  ∀ cursor, ReflectsAt bound move rule cursor

/-- All rules of a level do. -/
structure LevelReflects (bound : Bound) (move : Relocation) (level : Level) : Prop where
  expression : Reflects bound move level.expression
  namedExpression : Reflects bound move level.namedExpression
  inversion : Reflects bound move level.inversion
  factor : Reflects bound move level.factor
  primary : Reflects bound move level.primary

/-- All rules of the level below do, if there is one. -/
def BelowReflects (bound : Bound) (move : Relocation) (deeper : Option Level) : Prop :=
  ∀ level, deeper = some level → LevelReflects bound move level

theorem mirrors_nested {α : Type} {deeper : Option Level} {rule reflected : Level → Parser α}
    {cursor : Cursor} {post : α → α → Cursor → Prop} (below : BelowReflects bound move deeper)
    (enters : ∀ level, LevelReflects bound move level →
      Mirrors bound move (reflected level) (rule level) cursor post) :
    Mirrors bound move (nested deeper reflected) (nested deeper rule) cursor post := by
  cases deeper with
  | none => exact mirrors_failHere rfl
  | some level => exact enters level (below level rfl)

theorem mirrors_unsupportedSince {kindName : String} {start : Span} {cursor : Cursor} :
    Mirrors bound move (unsupportedSince kindName (move.apply start))
      (unsupportedSince kindName start) cursor fun other read _ => other = read.relocate move := by
  unfold unsupportedSince
  rw [mirrors_previousSpan]
  exact mirrors_pure (by simp [Expr.relocate])

/-! ### Lists of expressions -/

section Lists

variable {expression : Parser Expr} (reflects : Reflects bound move expression)
include reflects

theorem roundsMirror_tuple :
    RoundsMirror bound move (List.map (Expr.relocate move)) (tupleRound expression) := by
  intro elements place
  unfold tupleRound
  refine mirrors_eat (.of rfl) ?_ fun _ => mirrors_pure rfl
  intro atComma
  have progress := Cursor.Progress.advance atComma rfl
  simp only [Bool.not_true, Bool.false_eq_true, if_false, mirrors_currentKind]
  refine mirrors_ite (fun _ => ?_) fun _ => mirrors_pure rfl
  refine mirrors_bind (reflects _) ?_
  rintro _ read after reaches rfl
  exact mirrors_pure (goesOnAlike_more.mpr ⟨by simp, reaches.progress progress⟩)

theorem mirrors_tupleRest {first : Expr} {cursor : Cursor} :
    Mirrors bound move (tupleRest expression (first.relocate move)) (tupleRest expression first)
      cursor fun other read _ => other = read.relocate move := by
  rw [tupleRest_eq, tupleRest_eq, mirrors_isAt]
  refine mirrors_ite (fun _ => mirrors_pure rfl) fun _ => ?_
  refine mirrors_bind (mirrors_iterate (roundsMirror_tuple reflects)) ?_
  rintro _ elements after _ rfl
  rw [mirrors_previousSpan]
  exact mirrors_pure (by simp [Expr.relocate])

theorem reflectsAt_yieldExpression {cursor : Cursor} (admits : bound.Admits cursor.current.kind) :
    ReflectsAt bound move (yieldExpression expression) cursor := by
  unfold ReflectsAt yieldExpression
  refine mirrors_advance admits (mirrors_eatKeyword ?_ ?_)
  · intro _
    refine mirrors_bind (reflects _) ?_
    rintro _ _ _ _ -
    exact mirrors_unsupportedSince
  · intro _
    simp only [Bool.false_eq_true, if_false, mirrors_currentKind]
    refine mirrors_ite (fun _ => ?_) fun _ => mirrors_unsupportedSince
    refine mirrors_bind (reflects _) ?_
    rintro _ _ _ _ rfl
    refine mirrors_bind (mirrors_tupleRest reflects) ?_
    rintro _ _ _ _ -
    exact mirrors_unsupportedSince

theorem reflects_expressionList : Reflects bound move (expressionList expression) := by
  intro cursor
  unfold ReflectsAt expressionList
  rw [mirrors_isAtKeyword]
  refine mirrors_ite (fun atYield =>
    reflectsAt_yieldExpression reflects (.at (eq_of_beq atYield) rfl)) fun _ => ?_
  refine mirrors_bind (reflects cursor) ?_
  rintro _ _ _ _ rfl
  exact mirrors_tupleRest reflects

end Lists

/-! ### Atoms -/

private theorem simpleAtom?_relocate (token : Token) :
    simpleAtom? (token.relocate move) = (simpleAtom? token).map (Expr.relocate move) := by
  unfold simpleAtom?
  simp only [Token.relocate_kind]
  cases token.kind <;> rfl

theorem isStringToken_relocate (token : Token) :
    isStringToken (token.relocate move) = isStringToken token := rfl

/-- How strings are joined depends on the kinds of their tokens only. -/
private theorem mirrors_joinStrings {parts : List Token} {span : Span} {cursor : Cursor} :
    Mirrors bound move (liftM (joinStrings (parts.map (·.relocate move)) (move.apply span)))
      (liftM (joinStrings parts span)) cursor fun other read _ => other = read.relocate move := by
  have sameKinds : (parts.map (·.relocate move)).map (·.kind) = parts.map (·.kind) := by
    simp
  rw [joinStrings_eq, joinStrings_eq, sameKinds]
  dsimp only
  split
  · exact mirrors_throw rfl
  · split
    · exact mirrors_pure rfl
    · split <;> exact mirrors_pure rfl

theorem reflects_strings : Reflects bound move strings := by
  intro cursor
  have ended (kind : TokenKind) (ends : bound.ends kind = true) :
      isStringToken ⟨kind, .dummy⟩ = false := by
    rcases Bound.newline_or_end (Bound.endsLine_of_ends ends) with rfl | rfl <;> rfl
  have sameParts : (cursor.image bound move).remaining.takeWhile isStringToken =
      (cursor.remaining.takeWhile isStringToken).map (·.relocate move) :=
    Token.takeWhile_image move ended cursor.remaining
  have noEnd : ∀ token ∈ cursor.remaining.takeWhile isStringToken, token.kind ≠ .endOfFile := by
    intro token member isEnd
    have isString := List.all_eq_true.mp List.all_takeWhile token member
    simp [isStringToken, isEnd] at isString
  have passes := Cursor.Passes.skip_of_isPrefix (List.takeWhile_prefix _) noEnd
  unfold ReflectsAt strings
  rw [mirrors_currentSpan, mirrors_get]
  simp only [sameParts, List.length_map]
  refine mirrors_skip passes (Bound.allows_takeWhile ended cursor.remaining) rfl ?_
  rw [mirrors_previousSpan, ← move.cover]
  exact mirrors_joinStrings

theorem reflectsAt_parenthesized {level : Level} {cursor : Cursor}
    (reflects : LevelReflects bound move level) (admits : bound.Admits cursor.current.kind) :
    ReflectsAt bound move (parenthesized level) cursor := by
  unfold ReflectsAt parenthesized
  refine mirrors_advance admits ?_
  extract_lets close closeReflected
  rw [mirrors_isAt]
  refine mirrors_ite (fun atClose => ?_) fun _ => ?_
  · exact mirrors_advance (.at (eq_of_beq atClose) rfl) (mirrors_pure (by simp [Expr.relocate]))
  rw [mirrors_isAtKeyword]
  refine mirrors_ite (fun atYield => ?_) fun _ => ?_
  · refine mirrors_bind (reflectsAt_yieldExpression reflects.expression
      (.at (eq_of_beq atYield) rfl)) ?_
    rintro _ inner _ _ rfl
    exact mirrors_expectClosing (.of rfl) fun _ => mirrors_pure rfl
  refine mirrors_bind (reflects.namedExpression _) ?_
  rintro _ first _ _ rfl
  rw [mirrors_isAtKeyword]
  refine mirrors_ite (fun _ => ?_) fun _ => ?_
  · refine mirrors_bind mirrors_skipBracketContents ?_
    rintro _ _ _ _ -
    exact mirrors_expectClosing (.of rfl) fun _ => mirrors_pure (by simp [Expr.relocate])
  · refine mirrors_bind (mirrors_tupleRest reflects.expression) ?_
    rintro _ inner _ _ rfl
    refine mirrors_expectClosing (.of rfl) fun _ => ?_
    cases inner with
    | tuple elements span => exact mirrors_pure (by simp [Expr.relocate])
    | _ => exact mirrors_pure rfl

theorem roundsMirror_element {level : Level} (reflects : LevelReflects bound move level) :
    RoundsMirror bound move (Prod.map (List.map (Expr.relocate move)) id) (elementRound level) := by
  rintro ⟨elements, isComprehension⟩ place
  unfold elementRound
  rw [mirrors_currentKind]
  refine mirrors_ite (fun _ => mirrors_pure rfl) fun _ => ?_
  refine mirrors_bind (reflects.namedExpression place) ?_
  rintro _ element after reaches rfl
  have images : elements.map (Expr.relocate move) ++ [element.relocate move] =
      (elements ++ [element]).map (Expr.relocate move) := by simp
  simp only [Prod.map_fst, images, List.length_map, mirrors_isAtKeyword]
  refine mirrors_ite (fun _ => mirrors_pure rfl) fun _ => ?_
  refine mirrors_eat (.of rfl) (fun atComma => ?_) fun _ => mirrors_pure rfl
  exact mirrors_pure (goesOnAlike_more.mpr ⟨rfl, reaches.thenProgress (.advance atComma rfl)⟩)

theorem reflectsAt_listDisplay {level : Level} {cursor : Cursor}
    (reflects : LevelReflects bound move level) (admits : bound.Admits cursor.current.kind) :
    ReflectsAt bound move (listDisplay level) cursor := by
  rw [ReflectsAt, listDisplay_eq]
  refine mirrors_advance admits ?_
  refine mirrors_bind (mirrors_iterate (roundsMirror_element reflects)) ?_
  rintro _ ⟨elements, isComprehension⟩ _ _ rfl
  simp only [Prod.map_apply, id]
  refine mirrors_ite (fun _ => ?_) fun _ => ?_
  · refine mirrors_bind mirrors_skipBracketContents ?_
    rintro _ _ _ _ -
    exact mirrors_expectClosing (.of rfl) fun _ => mirrors_pure (by simp [Expr.relocate])
  · exact mirrors_expectClosing (.of rfl) fun _ => mirrors_pure (by simp [Expr.relocate])

theorem reflectsAt_braces {cursor : Cursor} (admits : bound.Admits cursor.current.kind) :
    ReflectsAt bound move braces cursor := by
  unfold ReflectsAt braces
  refine mirrors_advance admits ?_
  rw [mirrors_isAt]
  refine mirrors_bind mirrors_skipBracketContents ?_
  rintro _ contents _ _ rfl
  exact mirrors_expectClosing (.of rfl) fun _ => mirrors_pure (by simp [Expr.relocate])

theorem reflects_atom {deeper : Option Level} (below : BelowReflects bound move deeper) :
    Reflects bound move (atom deeper) := by
  intro cursor
  unfold ReflectsAt atom
  rw [mirrors_current, simpleAtom?_relocate]
  cases isSimple : simpleAtom? cursor.current with
  | some expression =>
      refine mirrors_advance (.of ?_) (mirrors_pure rfl)
      generalize cursor.current = token at isSimple
      unfold simpleAtom? at isSimple
      split at isSimple <;> simp_all
  | none =>
      simp only [Option.map_none, isStringToken_relocate, Token.relocate_kind]
      refine mirrors_ite (fun _ => reflects_strings cursor) fun _ => ?_
      cases atKind : cursor.current.kind
      case leftParen =>
        exact mirrors_nested below fun level reflects =>
          reflectsAt_parenthesized reflects (.at atKind rfl)
      case leftBracket =>
        exact mirrors_nested below fun level reflects =>
          reflectsAt_listDisplay reflects (.at atKind rfl)
      case leftBrace =>
        exact mirrors_nested below fun level _ => reflectsAt_braces (.at atKind rfl)
      all_goals exact mirrors_throw (ParseError.relocate_noExpression move _).symm

/-! ### Calls, members and subscripts -/

theorem roundsMirror_argument {level : Level} (reflects : LevelReflects bound move level) :
    RoundsMirror bound move (List.map (Expr.relocate move)) (argumentRound level) := by
  intro arguments place
  unfold argumentRound
  rw [mirrors_currentKind]
  cases place.current.kind
  case rightParen | newline | endOfFile => exact mirrors_pure rfl
  case star | doubleStar => exact mirrors_failHere rfl
  all_goals
    refine mirrors_bind (reflects.namedExpression place) ?_
    rintro _ argument after reaches rfl
    rw [mirrors_isAt, Expr.relocate_isName, Expr.relocate_span]
    refine mirrors_ite (fun _ => mirrors_throw rfl) fun _ => ?_
    rw [mirrors_isAtKeyword]
    refine mirrors_ite (fun _ => ?_) fun _ => ?_
    · refine mirrors_bind mirrors_skipBracketContents ?_
      rintro _ _ _ _ -
      refine mirrors_bind mirrors_unsupportedSince ?_
      rintro _ _ _ _ rfl
      exact mirrors_pure (by simp)
    · refine mirrors_eat (.of rfl) (fun atComma => ?_) fun _ => mirrors_pure (by simp)
      exact mirrors_pure (goesOnAlike_more.mpr
        ⟨by simp, reaches.thenProgress (.advance atComma rfl)⟩)

theorem mirrors_callArguments {opened : Span} {level : Level} {cursor : Cursor}
    (reflects : LevelReflects bound move level) :
    Mirrors bound move (callArguments (move.apply opened) level) (callArguments opened level) cursor
      fun other arguments _ => other = arguments.map (Expr.relocate move) := by
  rw [callArguments_eq, callArguments_eq]
  refine mirrors_bind (mirrors_iterate (roundsMirror_argument reflects)) ?_
  rintro _ arguments _ _ rfl
  exact mirrors_expectClosing (.of rfl) fun _ => mirrors_pure rfl

theorem roundsMirror_trailer {deeper : Option Level} (below : BelowReflects bound move deeper) :
    RoundsMirror bound move (Expr.relocate move) (trailer deeper) := by
  intro value place
  unfold trailer
  rw [mirrors_currentKind]
  cases atKind : place.current.kind
  case leftParen =>
    refine mirrors_advance (.at atKind rfl) (mirrors_bind
      (mirrors_nested below fun level reflects => mirrors_callArguments reflects) ?_)
    rintro _ arguments after reaches rfl
    rw [mirrors_previousSpan]
    exact mirrors_pure (goesOnAlike_more.mpr
      ⟨by simp [Expr.relocate], reaches.progress (.advance atKind rfl)⟩)
  case dot =>
    refine mirrors_advance (.at atKind rfl) ?_
    rw [mirrors_currentKind]
    cases atName : place.advance.current.kind
    case ident name =>
      refine mirrors_advance (.at atName rfl)
        (mirrors_pure (goesOnAlike_more.mpr ⟨by simp [Expr.relocate], ?_⟩))
      exact (Cursor.Progress.advance atKind rfl).trans (.advance atName rfl)
    all_goals exact mirrors_unexpected
  case leftBracket =>
    refine mirrors_advance (.at atKind rfl) (mirrors_bind mirrors_skipBracketContents ?_)
    rintro _ _ after reaches -
    refine mirrors_expectClosing (.of rfl) fun atClosing => ?_
    rw [Expr.relocate_span]
    refine mirrors_bind mirrors_unsupportedSince ?_
    rintro _ _ final further rfl
    have progress := (reaches.progress (.advance atKind rfl)).trans (.advance atClosing rfl)
    exact mirrors_pure (goesOnAlike_more.mpr ⟨rfl, further.progress progress⟩)
  all_goals exact mirrors_pure rfl

theorem reflects_primary {deeper : Option Level} (below : BelowReflects bound move deeper) :
    Reflects bound move (primary deeper) := by
  intro cursor
  rw [primary_eq]
  refine mirrors_bind (reflects_atom below cursor) ?_
  rintro _ _ _ _ rfl
  exact mirrors_iterate (roundsMirror_trailer below)

/-! ### Operators -/

private theorem mirrors_exponentRest {deeper : Option Level} {base : Expr} {cursor : Cursor}
    (below : BelowReflects bound move deeper) :
    Mirrors bound move (exponentRest deeper (base.relocate move)) (exponentRest deeper base) cursor
      fun other read _ => other = read.relocate move := by
  unfold exponentRest
  refine mirrors_eat (.of rfl) (fun _ => ?_) fun _ => mirrors_pure rfl
  refine mirrors_bind (mirrors_nested below fun level reflects => reflects.factor _) ?_
  rintro _ _ _ _ rfl
  exact mirrors_pure (by simp [Expr.relocate])

theorem reflects_power {deeper : Option Level} (below : BelowReflects bound move deeper) :
    Reflects bound move (power deeper) := by
  intro cursor
  rw [ReflectsAt, power_eq, mirrors_isAtKeyword]
  refine mirrors_ite (fun atAwait => ?_) fun _ => ?_
  · refine mirrors_advance (.at (eq_of_beq atAwait) rfl) (mirrors_bind
      (mirrors_nested below fun level reflects => reflects.primary _) ?_)
    rintro _ _ _ _ -
    refine mirrors_bind mirrors_unsupportedSince ?_
    rintro _ _ _ _ rfl
    exact mirrors_exponentRest below
  · refine mirrors_bind (reflects_primary below cursor) ?_
    rintro _ _ _ _ rfl
    exact mirrors_exponentRest below

private theorem reflects_factor {deeper : Option Level} (below : BelowReflects bound move deeper) :
    Reflects bound move (factor deeper) := by
  intro cursor
  unfold ReflectsAt factor
  rw [mirrors_currentKind]
  cases isSign : signOperator? cursor.current.kind with
  | none => exact reflects_power below cursor
  | some operator =>
      have notBreak : (cursor.current.kind == .newline) = false := by
        rw [beq_eq_false_iff_ne]
        intro isBreak
        simp [isBreak, signOperator?] at isSign
      refine mirrors_advance (.of notBreak) (mirrors_bind
        (mirrors_nested below fun level reflects => reflects.factor _) ?_)
      rintro _ _ _ _ rfl
      exact mirrors_pure (by simp [Expr.relocate])

theorem roundsMirror_operator {operand : Parser Expr} {rank : Nat}
    (reflects : Reflects bound move operand) :
    RoundsMirror bound move (Expr.relocate move) (operatorRound operand rank) := by
  intro left place
  unfold operatorRound
  rw [mirrors_currentKind]
  cases found : (binaryOperator? place.current.kind).filter (·.precedence == rank) with
  | none => exact mirrors_pure rfl
  | some operator =>
      have notEnd : place.current.kind ≠ .endOfFile := by
        intro isEnd
        simp [isEnd, binaryOperator?] at found
      have notBreak : (place.current.kind == .newline) = false := by
        rw [beq_eq_false_iff_ne]
        intro isBreak
        simp [isBreak, binaryOperator?] at found
      refine mirrors_advance (.of notBreak) (mirrors_bind (reflects _) ?_)
      rintro _ right after reaches rfl
      exact mirrors_pure (goesOnAlike_more.mpr ⟨by simp [Expr.relocate],
        reaches.progress (.advance rfl (by simpa using notEnd))⟩)

private theorem reflects_binaryLevel {operand : Parser Expr} {rank : Nat}
    (reflects : Reflects bound move operand) : Reflects bound move (binaryLevel operand rank) := by
  intro cursor
  rw [binaryLevel_eq]
  refine mirrors_bind (reflects cursor) ?_
  rintro _ _ _ _ rfl
  exact mirrors_iterate (roundsMirror_operator reflects)

/-- Operands joined by the operators of some ranks. -/
theorem reflects_operators {deeper : Option Level} (below : BelowReflects bound move deeper)
    (ranks : List Nat) : Reflects bound move (ranks.foldl binaryLevel (factor deeper)) := by
  have folded : ∀ operand : Parser Expr, Reflects bound move operand →
      Reflects bound move (ranks.foldl binaryLevel operand) := by
    induction ranks with
    | nil => exact fun operand reflects => reflects
    | cons rank ranks inductionHypothesis =>
        exact fun operand reflects => inductionHypothesis _ (reflects_binaryLevel reflects)
  exact folded _ (reflects_factor below)

theorem reflects_binary {deeper : Option Level} (below : BelowReflects bound move deeper) :
    Reflects bound move (binary deeper) :=
  reflects_operators below binaryRanks

/-! ### Chains -/

/-- A rule that takes a separator where there is one. -/
def SeparatesAlike (bound : Bound) (move : Relocation) (separator : Parser Bool) : Prop :=
  ∀ cursor, Mirrors bound move separator separator cursor fun other found after =>
    other = found ∧ (found = true → cursor.Progress after)

theorem separatesAlike_eatKeyword (word : String) :
    SeparatesAlike bound move (eatKeyword word) := by
  intro cursor
  rw [← bind_pure (eatKeyword word)]
  refine mirrors_eatKeyword (fun atWord => ?_) fun _ => mirrors_pure ⟨rfl, by simp⟩
  exact mirrors_pure ⟨rfl, fun _ => .advance atWord rfl⟩

theorem separatesAlike_comparisonOperator : SeparatesAlike bound move comparisonOperator := by
  intro cursor
  unfold comparisonOperator
  rw [mirrors_currentKind]
  split
  next atSign =>
    exact mirrors_advance (.at atSign rfl) (mirrors_pure ⟨rfl, fun _ => .advance atSign rfl⟩)
  next atIn => exact mirrors_advance (.at atIn rfl) (mirrors_pure ⟨rfl, fun _ => .advance atIn rfl⟩)
  next atNot =>
    have taken : cursor.Progress cursor.advance := .advance atNot rfl
    rw [mirrors_get, Cursor.image_nextKind move (Bound.ends_eq_false (by rw [atNot]; rfl))]
    refine mirrors_ite (fun beforeIn => ?_) fun _ => mirrors_pure ⟨rfl, by simp⟩
    have atIn : cursor.advance.current.kind = .keyword "in" := by
      rw [Cursor.current_kind_advance (by simp [atNot])]
      exact eq_of_beq beforeIn
    refine mirrors_advance (.at atNot rfl)
      (mirrors_advance (.at atIn rfl) (mirrors_pure ⟨rfl, fun _ => ?_⟩))
    exact taken.trans (.advance atIn rfl)
  next atIs =>
    have taken : cursor.Progress cursor.advance := .advance atIs rfl
    refine mirrors_advance (.at atIs rfl) (mirrors_bind (mirrors_eatAlone (.of rfl)) ?_)
    rintro _ _ after reaches -
    exact mirrors_pure ⟨rfl, fun _ => reaches.progress taken⟩
  next => exact mirrors_pure ⟨rfl, by simp⟩

theorem roundsMirror_chain {separator : Parser Bool} {operand : Parser Expr}
    (separates : SeparatesAlike bound move separator) (reflects : Reflects bound move operand) :
    RoundsMirror bound move id (chainRound separator operand) := by
  intro state place
  unfold chainRound
  refine mirrors_bind (separates place) ?_
  rintro _ found after reaches ⟨rfl, progress⟩
  refine mirrors_ite (fun isFound => ?_) fun _ => mirrors_pure rfl
  refine mirrors_bind (reflects after) ?_
  rintro _ _ final further -
  exact mirrors_pure (goesOnAlike_more.mpr ⟨rfl, further.progress (progress isFound)⟩)

theorem reflects_chain {kindName : String} {separator : Parser Bool} {operand : Parser Expr}
    (separates : SeparatesAlike bound move separator) (reflects : Reflects bound move operand) :
    Reflects bound move (chain kindName separator operand) := by
  intro cursor
  rw [chain_eq]
  refine mirrors_bind (reflects cursor) ?_
  rintro _ first _ _ rfl
  refine mirrors_bind (separates _) ?_
  rintro _ found _ _ ⟨rfl, -⟩
  refine mirrors_ite (fun _ => ?_) fun _ => mirrors_pure rfl
  refine mirrors_bind (reflects _) ?_
  rintro _ _ _ _ -
  refine mirrors_bind (mirrors_iterate (roundsMirror_chain separates reflects)) ?_
  rintro _ _ _ _ -
  rw [Expr.relocate_span]
  exact mirrors_unsupportedSince

theorem reflects_comparison {deeper : Option Level} (below : BelowReflects bound move deeper) :
    Reflects bound move (comparison deeper) :=
  reflects_chain separatesAlike_comparisonOperator (reflects_binary below)

theorem reflects_inversion {deeper : Option Level} (below : BelowReflects bound move deeper) :
    Reflects bound move (inversion deeper) := by
  intro cursor
  unfold ReflectsAt inversion
  rw [mirrors_isAt]
  refine mirrors_ite (fun atNot => ?_) fun _ => ?_
  · refine mirrors_advance (.at (eq_of_beq atNot) rfl) (mirrors_bind
      (mirrors_nested below fun level reflects => reflects.inversion _) ?_)
    rintro _ _ _ _ rfl
    exact mirrors_pure (by simp [Expr.relocate])
  · exact reflects_comparison below cursor

theorem reflects_conjunction {deeper : Option Level} (below : BelowReflects bound move deeper) :
    Reflects bound move (conjunction deeper) :=
  reflects_chain (separatesAlike_eatKeyword "and") (reflects_inversion below)

theorem reflects_disjunction {deeper : Option Level} (below : BelowReflects bound move deeper) :
    Reflects bound move (disjunction deeper) :=
  reflects_chain (separatesAlike_eatKeyword "or") (reflects_conjunction below)

/-! ### Whole expressions -/

theorem reflectsAt_lambda {level : Level} {cursor : Cursor}
    (reflects : LevelReflects bound move level) (admits : bound.Admits cursor.current.kind) :
    ReflectsAt bound move (lambda level) cursor := by
  unfold ReflectsAt lambda
  refine mirrors_advance admits ?_
  rw [mirrors_get]
  have sameParameters : lambdaParameters 0 (cursor.advance.image bound move).remaining =
      (lambdaParameters 0 cursor.advance.remaining).mapError (·.relocate move) :=
    lambdaParameters_image move 0 cursor.advance.remaining
  rw [sameParameters]
  cases found : lambdaParameters 0 cursor.advance.remaining with
  | error token => exact mirrors_throw (ParseError.relocate_unexpected move _ _).symm
  | ok count =>
      obtain ⟨taken, colon, rest, split, counted, isColon, parameters⟩ :=
        (@Extent.lambdaParameters_eq_ok_iff [] _ _).mp found
      have inLine : ∀ token ∈ taken ++ [colon], endsLine token.kind = false := by
        have goesOn : endsLine colon.kind = false := by
          rw [isColon]
          rfl
        simpa [or_imp, forall_and, goesOn] using parameters.inLine
      refine mirrors_skip (parameters.passes split isColon) (Bound.allows_of_inLine inLine)
        (by simp [counted]) ?_
      refine mirrors_bind (reflects.expression _) ?_
      rintro _ _ _ _ -
      exact mirrors_unsupportedSince

theorem reflects_expression {deeper : Option Level} (below : BelowReflects bound move deeper) :
    Reflects bound move (Parser.expression deeper) := by
  intro cursor
  unfold ReflectsAt Parser.expression
  rw [mirrors_isAtKeyword]
  refine mirrors_ite (fun atLambda => ?_) fun _ => ?_
  · exact mirrors_nested below fun level reflects =>
      reflectsAt_lambda reflects (.at (eq_of_beq atLambda) rfl)
  refine mirrors_bind (reflects_disjunction below cursor) ?_
  rintro _ body _ _ rfl
  refine mirrors_eatKeyword (fun _ => ?_) fun _ => mirrors_pure rfl
  refine mirrors_bind (reflects_disjunction below _) ?_
  rintro _ _ _ _ -
  refine mirrors_eatKeyword (fun _ => ?_) fun _ => mirrors_unexpected
  refine mirrors_bind (mirrors_nested below fun level reflects => reflects.expression _) ?_
  rintro _ _ _ _ -
  rw [Expr.relocate_span]
  exact mirrors_unsupportedSince

theorem reflects_namedExpression {deeper : Option Level} (below : BelowReflects bound move deeper) :
    Reflects bound move (Parser.namedExpression deeper) := by
  intro cursor
  unfold Parser.namedExpression
  refine mirrors_bind (reflects_expression below cursor) ?_
  rintro _ value _ _ rfl
  rw [mirrors_isAt, Expr.relocate_isName]
  refine mirrors_ite (fun atBinding => ?_) fun _ => mirrors_pure rfl
  have atSign := eq_of_beq (Bool.and_eq_true_iff.mp atBinding).2
  refine mirrors_advance (.at atSign rfl) (mirrors_bind (mirrors_nested below fun level reflects =>
    reflects.expression _) ?_)
  rintro _ _ _ _ -
  rw [Expr.relocate_span]
  exact mirrors_unsupportedSince

/-! ### Levels -/

private theorem levelReflects_above {deeper : Option Level}
    (below : BelowReflects bound move deeper) :
    LevelReflects bound move (Level.above deeper) where
  expression := reflects_expression below
  namedExpression := reflects_namedExpression below
  inversion := reflects_inversion below
  factor := reflects_factor below
  primary := reflects_primary below

/-- Every rule for expressions reads images as it reads what they are images of. -/
theorem levelReflects_withRoom (room : Nat) : LevelReflects bound move (Level.withRoom room) := by
  induction room with
  | zero => exact levelReflects_above fun level isSome => by cases isSome
  | succ room inductionHypothesis =>
      apply levelReflects_above
      rintro level isSome
      cases isSome
      exact inductionHypothesis

end Parser
end Transpiler
