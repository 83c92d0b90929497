import Transpiler.Proofs.Grammar.Reading

/-!
Contract: from which tokens the expression rules read an expression.

Owns: for every expression rule, that the tokens which it takes and the expression that it yields
are related as `Reading` says, and that an error which stops it points from one token to another
(`Parser.levelReads_withRoom`).

Does not own: the statement rules.
-/

namespace Transpiler

open Extent

/-- Tokens in order, among them an end of file. -/
structure Stream (all : List Token) : Prop where
  orderly : Orderly all
  ends : ∃ token ∈ all, token.kind = .endOfFile

/-! ### Errors at tokens -/

/-- Every label of the error goes from one token to another. -/
def ParseError.PointsInto (error : ParseError) (all : List Token) : Prop :=
  ∀ label ∈ error.diagnostic.labels, Anchored all label.span

/-- A kind of errors that point at one place only. -/
def ParseErrorKind.isLocal : ParseErrorKind → Bool
  | .lexical _ | .unclosedDelimiter .. => false
  | _ => true

theorem Stream.anchored {all : List Token} (stream : Stream all) {token : Token}
    (member : token ∈ all) : Anchored all token.span :=
  ⟨⟨token, member, rfl⟩, ⟨token, member, rfl⟩, stream.orderly.forward token member⟩

namespace ParseError

variable {all : List Token} {kind : ParseErrorKind} {span openedAt : Span} {token : Token}

theorem pointsInto (isLocal : kind.isLocal = true) (anchored : Anchored all span) :
    PointsInto ⟨kind, span⟩ all := by
  intro label member
  have atSpan : label.span = span := by
    cases kind <;> first
      | contradiction
      | simp_all [diagnostic, Diagnostic.withLabel, Diagnostic.withNote, Diagnostic.error]
  rwa [atSpan]

theorem pointsInto_unclosed {opening : String} (opened : Anchored all openedAt)
    (anchored : Anchored all span) :
    PointsInto ⟨.unclosedDelimiter opening openedAt, span⟩ all := by
  intro label member
  have known : label.span = span ∨ label.span = openedAt := by
    simp only [diagnostic, Diagnostic.withLabel, Diagnostic.withSecondaryLabel, Diagnostic.error,
      List.nil_append, List.cons_append, List.mem_cons, List.not_mem_nil, or_false] at member
    rcases member with rfl | rfl
    · exact .inl rfl
    · exact .inr rfl
  rcases known with same | same
  · rwa [same]
  · rwa [same]

theorem pointsInto_unexpected {expected : String} (anchored : Anchored all token.span) :
    (unexpected token expected).PointsInto all := by
  unfold unexpected
  split
  · exact pointsInto rfl anchored
  · exact pointsInto rfl anchored

theorem pointsInto_noExpression (anchored : Anchored all token.span) :
    (noExpression token).PointsInto all := by
  unfold noExpression
  split
  · exact pointsInto rfl anchored
  · exact pointsInto rfl anchored

end ParseError

namespace Parser

/-! ### Places after an expression -/

/-- An expression is read from the tokens between two places. -/
def Parsed (room rank : Nat) (start : Cursor) (expr : Expr) (stop : Cursor) : Prop :=
  ∃ tokens, start.Passes tokens stop ∧ Reading.Expression room rank tokens expr

/-- An expression or a tuple is read from the tokens between two places. -/
def ParsedWhole (room : Nat) (start : Cursor) (expr : Expr) (stop : Cursor) : Prop :=
  ∃ tokens, start.Passes tokens stop ∧ Reading.Whole room tokens expr

/-- Expressions are read from the tokens between two places, with commas between them. -/
def ParsedItems (room : Nat) (isItem : Bool) (start : Cursor) (exprs : List Expr)
    (stop : Cursor) : Prop :=
  ∃ tokens, start.Passes tokens stop ∧ Reading.Sequence room isItem tokens exprs

/-- The tokens between two places are made up like an expression outside brackets. -/
def Weaves (start stop : Cursor) : Prop :=
  ∃ tokens, start.Passes tokens stop ∧ Woven tokens

section

variable {all tokens : List Token} {room rank : Nat} {start middle stop : Cursor} {expr : Expr}
  {exprs : List Expr} {kind : TokenKind} {kindName : String}

theorem notEnd_of_isPlain (isPlain : kind.isPlain = true) : (kind == .endOfFile) = false := by
  cases kind <;> first | rfl | contradiction

theorem exists_last (passes : start.Passes tokens stop) (nonempty : tokens ≠ []) :
    ∃ last, tokens.getLast? = some last ∧ stop.previous = last.span := by
  cases isLast : tokens.getLast? with
  | none => exact absurd (List.getLast?_eq_none_iff.mp isLast) nonempty
  | some last => exact ⟨last, rfl, passes.previous_of isLast⟩

theorem Weaves.refl (cursor : Cursor) : Weaves cursor cursor :=
  ⟨[], .refl cursor, .none⟩

theorem Weaves.trans (first : Weaves start middle) (second : Weaves middle stop) :
    Weaves start stop := by
  obtain ⟨tokens, passes, woven⟩ := first
  obtain ⟨more, passesMore, wovenMore⟩ := second
  exact ⟨tokens ++ more, passes.trans passesMore, woven.append wovenMore⟩

theorem Weaves.plain (atKind : start.current.kind = kind) (isPlain : kind.isPlain = true)
    (notColon : (kind == .colon) = false) : Weaves start start.advance := by
  subst atKind
  exact ⟨_, .advance_of rfl (notEnd_of_isPlain isPlain),
    .plain isPlain (ne_of_beq_false notColon) .none⟩

theorem Parsed.weaves (parsed : Parsed room rank start expr stop) : Weaves start stop := by
  obtain ⟨tokens, passes, read⟩ := parsed
  exact ⟨tokens, passes, read.woven⟩

theorem Parsed.progress (parsed : Parsed room rank start expr stop) : start.Progress stop := by
  obtain ⟨tokens, passes, read⟩ := parsed
  exact passes.progress read.occupies.ne_nil

theorem Parsed.inside (parsed : Parsed room rank start expr stop) (inside : start.In all) :
    stop.In all := by
  obtain ⟨tokens, passes, _⟩ := parsed
  exact inside.passes passes

theorem Parsed.of_le {looser : Nat} (le : looser ≤ rank)
    (parsed : Parsed room rank start expr stop) : Parsed room looser start expr stop := by
  obtain ⟨tokens, passes, read⟩ := parsed
  exact ⟨tokens, passes, read.of_le le⟩

theorem Parsed.whole (parsed : Parsed room 0 start expr stop) :
    ParsedWhole room start expr stop := by
  obtain ⟨tokens, passes, read⟩ := parsed
  exact ⟨tokens, passes, .single read⟩

theorem ParsedWhole.weaves (parsed : ParsedWhole room start expr stop) : Weaves start stop := by
  obtain ⟨tokens, passes, read⟩ := parsed
  exact ⟨tokens, passes, read.woven⟩

theorem Weaves.inside (weaves : Weaves start stop) (inside : start.In all) : stop.In all := by
  obtain ⟨tokens, passes, _⟩ := weaves
  exact inside.passes passes

/-- A construct outside the subset. -/
theorem Parsed.outside {first : Token} (passes : start.Passes (first :: tokens) stop)
    (visible : first.kind.isLayout = false) (woven : Woven (first :: tokens))
    (isOutside : kindName ∈ outsideExpressions) :
    Parsed room rank start (.unsupported kindName (first.span.cover stop.previous)) stop := by
  obtain ⟨last, isLast, previous⟩ := exists_last passes (List.cons_ne_nil _ _)
  rw [previous]
  exact ⟨_, passes, .outside isOutside visible rfl isLast woven⟩

/-- A construct outside the subset that begins with a plain token. -/
theorem Weaves.outside (rest : Weaves start.advance stop) (atKind : start.current.kind = kind)
    (isPlain : kind.isPlain = true) (notColon : (kind == .colon) = false)
    (isOutside : kindName ∈ outsideExpressions) :
    Parsed room rank start (.unsupported kindName (start.current.span.cover stop.previous))
      stop := by
  subst atKind
  have visible : start.current.kind.isLayout = false := by
    simp only [TokenKind.isPlain, Bool.and_eq_true, Bool.not_eq_true'] at isPlain
    exact isPlain.2
  obtain ⟨more, passes, woven⟩ := rest
  exact .outside (.trans (.advance_of rfl (notEnd_of_isPlain isPlain)) passes) visible
    (.plain isPlain (ne_of_beq_false notColon) woven) isOutside

/-- A construct outside the subset that begins with an expression. -/
theorem Parsed.since {inner innerRank : Nat} (parsed : Parsed inner innerRank start expr middle)
    (rest : Weaves middle stop) (isOutside : kindName ∈ outsideExpressions) :
    Parsed room rank start (.unsupported kindName (expr.span.cover stop.previous)) stop := by
  obtain ⟨tokens, passes, read⟩ := parsed
  obtain ⟨more, passesMore, woven⟩ := rest
  have whole := passes.trans passesMore
  obtain ⟨last, isLast, previous⟩ :=
    exists_last whole (List.append_ne_nil_of_left_ne_nil read.occupies.ne_nil more)
  rw [previous]
  exact ⟨tokens ++ more, whole, .since isOutside read woven isLast⟩

/-- Brackets are passed over with their contents. -/
private theorem passes_bracketed (opens : start.current.kind.opensBracket = true)
    (passes : start.advance.Passes tokens stop)
    (closes : stop.current.kind.closesBracket = true) :
    start.Passes (start.current :: (tokens ++ [stop.current])) stop.advance := by
  have first : start.Passes [start.current] start.advance := by
    apply Cursor.Passes.advance
    intro isEnd
    simp [isEnd, TokenKind.opensBracket] at opens
  have last : stop.Passes [stop.current] stop.advance := by
    apply Cursor.Passes.advance
    intro isEnd
    simp [isEnd, TokenKind.closesBracket] at closes
  exact first.trans (passes.trans last)

/-- Contents of brackets outside the subset. -/
theorem Parsed.bracketed (opens : start.current.kind.opensBracket = true)
    (passes : start.advance.Passes tokens stop) (closed : Closed false tokens)
    (closes : stop.current.kind.closesBracket = true)
    (isOutside : kindName ∈ outsideExpressions) :
    Parsed room rank start (.unsupported kindName (start.current.span.cover stop.current.span))
      stop.advance := by
  have whole := passes_bracketed opens passes closes
  have parsed := @Parsed.outside _ room rank _ _ _ _ whole (isLayout_of_opensBracket opens)
    (.bracketed opens closed closes .none) isOutside
  rwa [whole.previous_of (getLast?_bracketed [] tokens _ _)] at parsed

end

/-! ### Rules -/

/-- The error points at tokens, if they are in order. -/
def Points (all : List Token) (error : ParseError) : Prop :=
  Stream all → error.PointsInto all

/-- At every place among the tokens, the rule reads an expression of a rank or stops with an error
that points at tokens. -/
def Reader (all : List Token) (room rank : Nat) (rule : Parser Expr) : Prop :=
  ∀ cursor, cursor.In all → rule.Meets cursor (Parsed room rank cursor) (Points all)

/-- The rules of a level, with room for a number of levels below it. -/
structure LevelReads (all : List Token) (room : Nat) (level : Level) : Prop where
  expression : Reader all room 0 level.expression
  namedExpression : Reader all room 0 level.namedExpression
  inversion : Reader all room 0 level.inversion
  factor : Reader all room 7 level.factor
  primary : Reader all room 9 level.primary

/-- The rules of the level below, if there is room for one. -/
def BelowReads (all : List Token) (room : Nat) (deeper : Option Level) : Prop :=
  ∀ level, deeper = some level → ∃ inner, room = inner + 1 ∧ LevelReads all inner level

section

variable {α : Type} {all : List Token} {cursor : Cursor} {post : α → Cursor → Prop}

theorem anchored_current (stream : Stream all) (inside : cursor.In all) :
    Anchored all cursor.current.span :=
  stream.anchored (inside.remaining_suffix.subset (inside.current_mem stream.ends))

theorem failHere_points (inside : cursor.In all) {kind : ParseErrorKind}
    (isLocal : kind.isLocal = true) : (failHere kind : Parser α).Meets cursor post (Points all) :=
  meets_failHere.mpr fun stream => ParseError.pointsInto isLocal (anchored_current stream inside)

theorem unexpected_points (inside : cursor.In all) {expected : String} :
    (unexpected expected : Parser α).Meets cursor post (Points all) :=
  meets_unexpected.mpr fun stream =>
    ParseError.pointsInto_unexpected (anchored_current stream inside)

/-- A closing delimiter stands where it should, or the error points at it and where it was
opened. -/
theorem expectClosing_points {opened : Cursor} (openedInside : opened.In all)
    (inside : cursor.In all) {closing : TokenKind} {opening expected : String}
    {post : Span → Cursor → Prop}
    (closes : cursor.current.kind = closing → post cursor.current.span cursor.advance) :
    (expectClosing closing opening opened.current.span expected).Meets cursor post
      (Points all) := by
  rw [meets_expectClosing]
  refine ⟨closes, fun _ => ⟨fun _ stream => ?_, fun _ stream => ?_⟩⟩
  · exact ParseError.pointsInto_unclosed (anchored_current stream openedInside)
      (anchored_current stream inside)
  · exact ParseError.pointsInto_unexpected (anchored_current stream inside)

theorem nested_points {room : Nat} {deeper : Option Level} {rule : Level → Parser α}
    (inside : cursor.In all) (below : BelowReads all room deeper)
    (each : ∀ inner level, room = inner + 1 → LevelReads all inner level →
      (rule level).Meets cursor post (Points all)) :
    (nested deeper rule).Meets cursor post (Points all) := by
  cases deeper with
  | none => exact failHere_points inside rfl
  | some level =>
      obtain ⟨inner, isRoom, levelReads⟩ := below level rfl
      exact each inner level isRoom levelReads

/-- What stands in brackets closes its own brackets, if a bracket closes it. -/
theorem meets_skipBracketContents {fault : ParseError → Prop} :
    skipBracketContents.Meets cursor
      (fun _ after => ∃ taken, cursor.Passes taken after ∧
        (after.current.kind.closesBracket = true → Closed false taken)) fault := by
  obtain ⟨taken, rest, shape, total, unread⟩ :=
    unread_measureFrom 0 0 ⟨0, false, false⟩ cursor.remaining
  have measured : (BracketContents.measure cursor.remaining).count = taken.length := by
    rw [BracketContents.measure, total, Nat.zero_add]
  have passes : cursor.Passes taken (cursor.skip taken.length) := by
    refine .skip_of_isPrefix ⟨rest, shape.symm⟩ ?_
    intro token member isEnd
    have goesOn := unread.inLine token member
    rw [isEnd] at goesOn
    contradiction
  simp only [skipBracketContents, meets_bind, meets_get, meets_set, meets_pure, measured]
  refine ⟨taken, passes, ?_⟩
  intro closes
  have split := passes.split
  rw [shape] at split
  rw [Cursor.current_kind, ← List.append_cancel_left split] at closes
  exact unread.closed closes

end

/-! ### Expressions between commas -/

/-- What follows the first element of a tuple so far: nothing but a comma to come, or a comma and
more elements. -/
def Tail (room : Nat) (others : List Expr) (tokens : List Token) (place : Cursor) : Prop :=
  (others = [] ∧ tokens = [] ∧ place.current.kind = .comma) ∨
    ∃ comma rest, tokens = comma :: rest ∧ comma.kind = .comma ∧
      Reading.Sequence room true rest others

theorem Tail.comma {room : Nat} {others : List Expr} {tokens : List Token} {place : Cursor}
    (tail : Tail room others tokens place) (atComma : place.current.kind = .comma) :
    ∃ comma rest, tokens ++ [place.current] = comma :: rest ∧ comma.kind = .comma ∧
      Reading.Sequence room false rest others := by
  rcases tail with ⟨rfl, rfl, _⟩ | ⟨comma, rest, rfl, isComma, items⟩
  · exact ⟨_, [], rfl, atComma, .none⟩
  · exact ⟨comma, _, rfl, isComma, items.comma atComma⟩

section

variable {all tokens : List Token} {room : Nat} {isItem : Bool} {start middle stop cursor : Cursor}
  {first expr : Expr} {elements : List Expr} {expression : Parser Expr}

theorem ParsedWhole.tuple {rest : List Token} {comma : Token} (passes : start.Passes tokens middle)
    (head : Reading.Expression room 0 tokens first) (further : middle.Passes (comma :: rest) stop)
    (isComma : comma.kind = .comma) (items : Reading.Sequence room isItem rest elements) :
    ParsedWhole room start (.tuple (first :: elements) (first.span.cover stop.previous)) stop := by
  have whole := passes.trans further
  obtain ⟨last, isLast, previous⟩ := exists_last whole (by simp)
  rw [previous]
  exact ⟨_, whole, .tuple head isComma items isLast⟩

theorem meets_tupleRest (reader : Reader all room 0 expression) (inside : start.In all)
    (item : Parsed room 0 start first cursor) :
    (tupleRest expression first).Meets cursor (ParsedWhole room start) (Points all) := by
  obtain ⟨tokens, passes, head⟩ := id item
  rw [tupleRest_eq]
  simp only [meets_bind, meets_isAt, meets_ite, meets_pure, meets_previousSpan]
  refine ⟨fun _ => item.whole, fun atComma => ?_⟩
  refine meets_iterate (fun elements place => ∃ others rest, elements = first :: others ∧
    cursor.Passes rest place ∧ Tail room others rest place)
    ⟨[], [], rfl, .refl cursor, .inl ⟨rfl, rfl, by simpa using atComma⟩⟩ ?_
  rintro elements place ⟨others, rest, rfl, further, tail⟩
  simp only [tupleRound, meets_bind, meets_eat, meets_ite, meets_currentKind, meets_pure,
    keeps_more, keeps_done, Bool.not_true, Bool.not_false, Bool.false_eq_true,
    not_false_eq_true, not_true_eq_false, false_implies, true_and, and_true, forall_const]
  constructor
  · intro atComma
    obtain ⟨comma, others', shape, isComma, items⟩ := tail.comma atComma
    have passed := further.trans (.advance_of atComma rfl)
    rw [shape] at passed
    refine ⟨?_, fun _ => .tuple passes head passed isComma items⟩
    intro _
    refine (reader place.advance (inside.passes (passes.trans passed))).mono ?_
    rintro expr stop item
    obtain ⟨own, passesOwn, read⟩ := id item
    refine ⟨⟨others ++ [expr], _, rfl, passed.trans passesOwn,
      .inr ⟨comma, _, rfl, isComma, items.item read⟩⟩, ?_⟩
    exact (Cursor.Progress.advance atComma rfl).trans item.progress
  · intro notAt
    rcases tail with ⟨_, _, atComma⟩ | ⟨comma, more, rfl, isComma, items⟩
    · exact absurd atComma notAt
    · exact .tuple passes head further isComma items

private theorem meets_yieldExpression (reader : Reader all room 0 expression)
    (inside : cursor.In all) (atYield : cursor.current.kind = .keyword "yield") :
    (yieldExpression expression).Meets cursor (Parsed room 0 cursor) (Points all) := by
  have started := inside.advance_of atYield rfl
  simp only [yieldExpression, meets_bind, meets_advance, meets_eatKeyword, meets_ite,
    meets_currentKind, meets_unsupportedSince, Bool.false_eq_true, not_false_eq_true,
    not_true_eq_false, false_implies, true_and, and_true, forall_const]
  constructor
  · intro atFrom
    refine (reader cursor.advance.advance (started.advance_of atFrom rfl)).mono ?_
    intro operand stop item
    have rest := Weaves.trans (.plain atFrom rfl rfl) item.weaves
    exact rest.outside atYield rfl rfl (by decide)
  · intro _
    refine ⟨?_, fun _ => (Weaves.refl _).outside atYield rfl rfl (by decide)⟩
    intro _
    refine (reader cursor.advance started).mono ?_
    intro first middle item
    refine (meets_tupleRest reader started item).mono ?_
    intro whole stop operands
    exact operands.weaves.outside atYield rfl rfl (by decide)

theorem meets_expressionList (reader : Reader all room 0 expression) (inside : cursor.In all) :
    (expressionList expression).Meets cursor (ParsedWhole room cursor) (Points all) := by
  simp only [expressionList, meets_bind, meets_isAtKeyword, meets_ite, beq_iff_eq]
  constructor
  · intro atYield
    exact (meets_yieldExpression reader inside atYield).mono fun _ _ item => item.whole
  · intro _
    refine (reader cursor inside).mono ?_
    intro first middle item
    exact meets_tupleRest reader inside item

/-! ### Atoms -/

/-- Parentheses around an expression. -/
theorem ParsedWhole.group (opens : start.current.kind = .leftParen)
    (inner : ParsedWhole room start.advance expr stop)
    (closes : stop.current.kind = .rightParen) :
    Parsed (room + 1) 10 start expr stop.advance := by
  obtain ⟨tokens, passes, read⟩ := inner
  exact ⟨_, .trans (.advance_of opens rfl) (passes.trans (.advance_of closes rfl)),
    .group opens read closes⟩

/-- Parentheses around a tuple become its own. -/
theorem ParsedWhole.relocate {span : Span} (opens : start.current.kind = .leftParen)
    (inner : ParsedWhole room start.advance (.tuple elements span) stop)
    (closes : stop.current.kind = .rightParen) :
    Parsed (room + 1) 10 start (.tuple elements (start.current.span.cover stop.current.span))
      stop.advance := by
  obtain ⟨tokens, passes, read⟩ := inner
  exact ⟨_, .trans (.advance_of opens rfl) (passes.trans (.advance_of closes rfl)),
    .tuple opens read closes⟩

variable {level : Level}

private theorem meets_parenthesized (levelReads : LevelReads all room level)
    (inside : cursor.In all) (opens : cursor.current.kind = .leftParen) :
    (parenthesized level).Meets cursor (Parsed (room + 1) 10 cursor) (Points all) := by
  have started := inside.advance_of opens rfl
  simp only [parenthesized, meets_bind, meets_advance, meets_isAt, meets_ite, meets_pure,
    meets_isAtKeyword, beq_iff_eq]
  refine ⟨?_, fun _ => ⟨?_, fun _ => ?_⟩⟩
  · intro closes
    exact ⟨_, .trans (.advance_of opens rfl) (.advance_of closes rfl), .unit opens closes⟩
  · intro atYield
    refine (meets_yieldExpression levelReads.expression started atYield).mono ?_
    intro inner place item
    refine expectClosing_points inside (item.inside started) ?_
    intro closes
    exact item.whole.group opens closes
  · refine (levelReads.namedExpression cursor.advance started).mono ?_
    intro first middle item
    constructor
    · intro _
      obtain ⟨own, passesOwn, read⟩ := item
      refine meets_skipBracketContents.mono ?_
      rintro contents place ⟨rest, passes, closed⟩
      refine expectClosing_points inside (started.passes (passesOwn.trans passes)) ?_
      intro closes
      have closesBracket : place.current.kind.closesBracket = true := by rw [closes]; rfl
      exact .bracketed (by rw [opens]; rfl) (passesOwn.trans passes)
        (read.woven.closed.append (closed closesBracket)) closesBracket (by decide)
    · intro _
      refine (meets_tupleRest levelReads.expression started item).mono ?_
      intro inner place whole
      refine expectClosing_points inside (whole.weaves.inside started) ?_
      intro closes
      split
      · exact meets_pure.mpr (whole.relocate opens closes)
      · exact meets_pure.mpr (whole.group opens closes)

private theorem meets_elements (levelReads : LevelReads all room level) (inside : cursor.In all) :
    (iterate (elementRound level) ([], false)).Meets cursor
      (fun state stop => ∃ isItem, ParsedItems room isItem cursor state.1 stop) (Points all) := by
  refine meets_iterate (fun state place => ParsedItems room false cursor state.1 place)
    ⟨[], .refl cursor, .none⟩ ?_
  rintro state place ⟨tokens, passes, items⟩
  simp only [elementRound, meets_bind, meets_currentKind, meets_ite, meets_pure,
    meets_isAtKeyword, meets_eat, keeps_more, keeps_done, Bool.false_eq_true,
    not_true_eq_false, not_false_eq_true, false_implies, true_and, and_true, forall_const]
  refine ⟨fun _ => ⟨false, tokens, passes, items⟩, fun _ => ?_⟩
  refine (levelReads.namedExpression place (inside.passes passes)).mono ?_
  intro expr stop item
  obtain ⟨own, passesOwn, read⟩ := id item
  have longer : ParsedItems room true cursor (state.1 ++ [expr]) stop :=
    ⟨_, passes.trans passesOwn, items.item read⟩
  refine ⟨fun _ => ⟨true, longer⟩, fun _ => ⟨?_, fun _ => ⟨true, longer⟩⟩⟩
  intro atComma
  exact ⟨⟨_, (passes.trans passesOwn).trans (.advance_of atComma rfl),
    (items.item read).comma atComma⟩, item.progress.trans (.advance atComma rfl)⟩

private theorem meets_listDisplay (levelReads : LevelReads all room level) (inside : cursor.In all)
    (opens : cursor.current.kind = .leftBracket) :
    (listDisplay level).Meets cursor (Parsed (room + 1) 10 cursor) (Points all) := by
  have started := inside.advance_of opens rfl
  rw [listDisplay_eq]
  simp only [meets_bind, meets_advance, meets_ite, meets_pure]
  refine (meets_elements levelReads started).mono ?_
  rintro state place ⟨isItem, tokens, passes, items⟩
  constructor
  · intro _
    refine meets_skipBracketContents.mono ?_
    rintro contents stop ⟨rest, passesRest, closed⟩
    refine expectClosing_points inside (started.passes (passes.trans passesRest)) ?_
    intro closes
    have closesBracket : stop.current.kind.closesBracket = true := by rw [closes]; rfl
    exact .bracketed (by rw [opens]; rfl) (passes.trans passesRest)
      (items.woven.closed.append (closed closesBracket)) closesBracket (by decide)
  · intro _
    refine expectClosing_points inside (started.passes passes) ?_
    intro closes
    exact ⟨_, .trans (.advance_of opens rfl) (passes.trans (.advance_of closes rfl)),
      .list opens items closes⟩

private theorem mem_outside_braceKind (startsWithUnpacking : Bool) (contents : BracketContents) :
    braceKind startsWithUnpacking contents ∈ outsideExpressions := by
  unfold braceKind
  split
  · decide
  · split
    · split <;> decide
    · split <;> decide

private theorem meets_braces {rank : Nat} (inside : cursor.In all)
    (opens : cursor.current.kind = .leftBrace) :
    braces.Meets cursor (Parsed room rank cursor) (Points all) := by
  simp only [braces, meets_bind, meets_advance, meets_isAt, meets_pure]
  refine meets_skipBracketContents.mono ?_
  rintro contents stop ⟨tokens, passes, closed⟩
  refine expectClosing_points inside ((inside.advance_of opens rfl).passes passes) ?_
  intro closes
  have closesBracket : stop.current.kind.closesBracket = true := by rw [closes]; rfl
  exact .bracketed (by rw [opens]; rfl) passes (closed closesBracket) closesBracket
    (mem_outside_braceKind _ _)

private theorem meets_strings (inside : cursor.In all)
    (atString : isStringToken cursor.current = true) :
    strings.Meets cursor (Parsed room 10 cursor) (Points all) := by
  have literals : ∀ part ∈ cursor.remaining.takeWhile isStringToken, isStringToken part = true :=
    List.all_eq_true.mp List.all_takeWhile
  have isFirst : (cursor.remaining.takeWhile isStringToken).head? = some cursor.current := by
    obtain ⟨remaining, previous⟩ := cursor
    cases remaining with
    | nil => cases atString
    | cons token rest =>
        have isString : isStringToken token = true := atString
        simp [List.takeWhile_cons_of_pos isString]
  have passes : cursor.Passes (cursor.remaining.takeWhile isStringToken)
      (cursor.skip (cursor.remaining.takeWhile isStringToken).length) := by
    refine .skip_of_isPrefix (List.takeWhile_prefix _) ?_
    intro part member isEnd
    have isLiteral := literals part member
    simp [isStringToken, isEnd] at isLiteral
  obtain ⟨last, isLast, previous⟩ :=
    exists_last passes (List.ne_nil_of_mem (List.mem_of_mem_head? isFirst))
  simp only [strings, meets_bind, meets_currentSpan, meets_get, meets_set, meets_previousSpan,
    meets_liftM, previous]
  constructor
  · intro expr joined
    exact ⟨_, passes, .strings literals isFirst isLast joined⟩
  · intro error isMixed stream
    rw [(Reading.joinStrings_located _).2 error isMixed]
    have within := inside.taken_isInfix passes
    have orderly := stream.orderly.of_isInfix within
    have visible : cursor.current.kind.isLayout = false := by
      have isPlain := (Reading.plain_of_isStringToken atString).1
      simp only [TokenKind.isPlain, Bool.and_eq_true, Bool.not_eq_true'] at isPlain
      exact isPlain.2
    have bounds := Bounds.cover orderly visible isFirst isLast
    exact ParseError.pointsInto rfl ((bounds.anchored orderly).mono within.subset)

variable {deeper : Option Level}

private theorem reader_atom (below : BelowReads all room deeper) :
    Reader all room 10 (atom deeper) := by
  intro cursor inside
  rw [atom, meets_bind, meets_current]
  split
  next expr found =>
    rw [meets_bind, meets_advance, meets_pure]
    have isPlain := (Reading.plain_of_simpleAtom? found).1
    exact ⟨_, .advance_of rfl (notEnd_of_isPlain isPlain), .simple found⟩
  next =>
    rw [meets_ite]
    refine ⟨meets_strings inside, fun _ => ?_⟩
    split
    next opens =>
      refine nested_points inside below ?_
      rintro inner level rfl levelReads
      exact meets_parenthesized levelReads inside opens
    next opens =>
      refine nested_points inside below ?_
      rintro inner level rfl levelReads
      exact meets_listDisplay levelReads inside opens
    next opens =>
      refine nested_points inside below ?_
      intro _ _ _ _
      exact meets_braces inside opens
    next =>
      exact meets_throw.mpr fun stream =>
        ParseError.pointsInto_noExpression (anchored_current stream inside)

/-! ### Calls, members and subscripts -/

/-- The tokens between two places are those of the arguments, if a bracket closes them. -/
def Argued (room : Nat) (start : Cursor) (arguments : List Expr) (stop : Cursor) : Prop :=
  ∃ tokens, start.Passes tokens stop ∧
    (stop.current.kind.closesBracket = true → Reading.Arguments room tokens arguments)

private theorem meets_arguments (levelReads : LevelReads all room level) (inside : cursor.In all) :
    (iterate (argumentRound level) []).Meets cursor (Argued room cursor) (Points all) := by
  refine meets_iterate (ParsedItems room false cursor) ⟨[], .refl cursor, .none⟩ ?_
  rintro arguments place ⟨tokens, passes, items⟩
  have here := inside.passes passes
  rw [argumentRound, meets_bind, meets_currentKind]
  split
  case h_1 | h_2 | h_3 => exact meets_pure.mpr ⟨tokens, passes, fun _ => .items items⟩
  case h_4 | h_5 => exact failHere_points here rfl
  simp only [meets_bind, meets_isAt, meets_isAtKeyword, meets_ite, meets_throw, meets_pure,
    meets_unsupportedSince, meets_eat, keeps_more, keeps_done, Bool.false_eq_true,
    not_true_eq_false, not_false_eq_true, false_implies, true_and, and_true, forall_const]
  refine (levelReads.namedExpression place here).mono ?_
  intro argument stop item
  obtain ⟨own, passesOwn, read⟩ := id item
  have longer := passes.trans passesOwn
  refine ⟨?_, fun _ => ⟨fun _ => ?_, fun _ => ⟨?_, fun _ => ?_⟩⟩⟩
  · intro _ stream
    have holds := read.occupies.holds argument.mem_nodes_self
    exact ParseError.pointsInto rfl
      ((holds.mono (here.taken_isInfix passesOwn)).anchored stream.orderly)
  · refine meets_skipBracketContents.mono ?_
    rintro contents after ⟨skipped, passesMore, closed⟩
    have rest := passesOwn.trans passesMore
    obtain ⟨last, isLast, previous⟩ :=
      exists_last rest (List.append_ne_nil_of_left_ne_nil read.occupies.ne_nil skipped)
    rw [previous]
    exact ⟨_, passes.trans rest, fun closes => .generator items read (closed closes) isLast⟩
  · intro atComma
    exact ⟨⟨_, longer.trans (.advance_of atComma rfl), (items.item read).comma atComma⟩,
      item.progress.trans (.advance atComma rfl)⟩
  · exact ⟨_, longer, fun _ => .items (items.item read)⟩

/-- One more trailer makes an expression of the tokens before it and its own. -/
private theorem meets_trailer {value : Expr} {place : Cursor} (below : BelowReads all room deeper)
    (inside : start.In all) (parsed : Parsed room 9 start value place) :
    (trailer deeper value).Meets place
      (Keeps (Parsed room 9 start) (Parsed room 9 start) place) (Points all) := by
  have here := parsed.inside inside
  obtain ⟨tokens, passes, read⟩ := id parsed
  rw [trailer, meets_bind, meets_currentKind]
  split
  next opens =>
    have started := here.advance_of opens rfl
    simp only [meets_bind, meets_advance, meets_previousSpan, meets_pure]
    refine nested_points started below ?_
    rintro inner level rfl levelReads
    rw [callArguments_eq]
    simp only [meets_bind, meets_pure]
    refine (meets_arguments levelReads started).mono ?_
    rintro arguments stop ⟨inner, passesInner, items⟩
    refine expectClosing_points here (started.passes passesInner) ?_
    intro closes
    have own := Cursor.Passes.trans (.advance_of opens rfl)
      (passesInner.trans (.advance_of closes rfl))
    refine ⟨⟨_, passes.trans own, ?_⟩, own.progress (List.cons_ne_nil _ _)⟩
    rw [(Cursor.Passes.advance_of closes rfl).previous_of rfl]
    exact .call read opens (items (by rw [closes]; rfl)) closes
  next atDot =>
    have started := here.advance_of atDot rfl
    rw [meets_bind, meets_advance, meets_bind, meets_currentKind]
    split
    next memberName atName =>
      simp only [meets_bind, meets_advance, meets_pure]
      have own := Cursor.Passes.trans (.advance_of atDot rfl) (.advance_of atName rfl)
      exact ⟨⟨_, passes.trans own, .member read atDot atName⟩,
        own.progress (List.cons_ne_nil _ _)⟩
    next => exact unexpected_points started
  next opens =>
    have opensBracket : place.current.kind.opensBracket = true := by rw [opens]; rfl
    simp only [meets_bind, meets_advance, meets_unsupportedSince, meets_pure]
    refine meets_skipBracketContents.mono ?_
    rintro contents stop ⟨inner, passesInner, closed⟩
    refine expectClosing_points here ((here.advance_of opens rfl).passes passesInner) ?_
    intro closes
    have closesBracket : stop.current.kind.closesBracket = true := by rw [closes]; rfl
    have own := passes_bracketed opensBracket passesInner closesBracket
    have brackets : Weaves place stop.advance :=
      ⟨_, own, .bracketed opensBracket (closed closesBracket) closesBracket .none⟩
    exact ⟨parsed.since brackets (by decide), own.progress (List.cons_ne_nil _ _)⟩
  next => exact meets_pure.mpr parsed

private theorem reader_primary (below : BelowReads all room deeper) :
    Reader all room 9 (primary deeper) := by
  intro cursor inside
  rw [primary_eq, meets_bind]
  refine (reader_atom below cursor inside).mono ?_
  intro value place parsed
  refine meets_iterate (Parsed room 9 cursor) (parsed.of_le (by decide)) ?_
  intro value place parsed
  exact meets_trailer below inside parsed

/-! ### Operators -/

private theorem meets_exponentRest {base : Expr} (below : BelowReads all room deeper)
    (inside : start.In all) (parsed : Parsed room 9 start base cursor) :
    (exponentRest deeper base).Meets cursor (Parsed room 8 start) (Points all) := by
  simp only [exponentRest, meets_bind, meets_eat, meets_ite, meets_pure, Bool.false_eq_true,
    not_true_eq_false, not_false_eq_true, false_implies, true_and, and_true, forall_const]
  refine ⟨?_, fun _ => parsed.of_le (by decide)⟩
  intro atPower
  have started := (parsed.inside inside).advance_of atPower rfl
  refine nested_points started below ?_
  rintro inner level rfl levelReads
  refine (levelReads.factor cursor.advance started).mono ?_
  rintro exponent stop ⟨others, passesOthers, second⟩
  obtain ⟨tokens, passes, first⟩ := parsed
  exact ⟨_, passes.trans (.trans (.advance_of atPower rfl) passesOthers),
    .power first atPower second⟩

private theorem reader_power (below : BelowReads all room deeper) :
    Reader all room 8 (power deeper) := by
  intro cursor inside
  rw [power_eq]
  simp only [meets_bind, meets_isAtKeyword, meets_ite, meets_advance, meets_unsupportedSince,
    beq_iff_eq]
  constructor
  · intro atAwait
    have started := inside.advance_of atAwait rfl
    refine nested_points started below ?_
    intro inner level _ levelReads
    refine (levelReads.primary cursor.advance started).mono ?_
    intro operand stop item
    exact meets_exponentRest below inside (item.weaves.outside atAwait rfl rfl (by decide))
  · intro _
    refine (reader_primary below cursor inside).mono ?_
    intro base place parsed
    exact meets_exponentRest below inside parsed

private theorem reader_factor (below : BelowReads all room deeper) :
    Reader all room 7 (factor deeper) := by
  intro cursor inside
  rw [factor, meets_bind, meets_currentKind]
  split
  next operator isSign =>
    have notEnd := notEnd_of_isPlain (Reading.plain_of_signOperator? isSign).1
    have started := inside.advance_of rfl notEnd
    simp only [meets_bind, meets_advance, meets_pure]
    refine nested_points started below ?_
    rintro inner level rfl levelReads
    refine (levelReads.factor cursor.advance started).mono ?_
    rintro operand stop ⟨tokens, passes, read⟩
    exact ⟨_, .trans (.advance_of rfl notEnd) passes, .sign isSign read⟩
  next =>
    exact (reader_power below cursor inside).mono fun _ _ parsed => parsed.of_le (by decide)

/-- Operands of the next tighter rank, joined by the operators of a rank. -/
private theorem reader_binaryLevel {rank : Nat} {operand : Parser Expr}
    (reader : Reader all room (rank + 1) operand) :
    Reader all room rank (binaryLevel operand rank) := by
  intro cursor inside
  rw [binaryLevel_eq, meets_bind]
  refine (reader cursor inside).mono ?_
  intro first place parsed
  refine meets_iterate (Parsed room rank cursor) (parsed.of_le (Nat.le_succ rank)) ?_
  intro left place parsed
  rw [operatorRound, meets_bind, meets_currentKind]
  split
  next operator found =>
    obtain ⟨isOperator, ofRank⟩ := Option.filter_eq_some_iff.mp found
    have notEnd := notEnd_of_isPlain (Reading.plain_of_binaryOperator? isOperator).1
    have started := (parsed.inside inside).advance_of rfl notEnd
    simp only [meets_bind, meets_advance, meets_pure, keeps_more]
    refine (reader place.advance started).mono ?_
    intro right stop item
    refine ⟨?_, .trans (.advance rfl notEnd) item.progress⟩
    obtain ⟨tokens, passes, first⟩ := parsed
    obtain ⟨others, passesOthers, second⟩ := item
    exact ⟨_, passes.trans (.trans (.advance_of rfl notEnd) passesOthers),
      .binary first isOperator (by simpa using ofRank) second⟩
  next => exact meets_pure.mpr parsed

private theorem reader_binary (below : BelowReads all room deeper) :
    Reader all room 1 (binary deeper) :=
  reader_binaryLevel (reader_binaryLevel (reader_binaryLevel (reader_binaryLevel
    (reader_binaryLevel (reader_binaryLevel (reader_factor below))))))

/-- The tokens of a separator between operands. -/
structure Separated (start stop : Cursor) : Prop where
  weaves : Weaves start stop
  progress : start.Progress stop

theorem Separated.plain {kind : TokenKind} (atKind : start.current.kind = kind)
    (isPlain : kind.isPlain = true) (notColon : (kind == .colon) = false) :
    Separated start start.advance :=
  ⟨.plain atKind isPlain notColon, .advance atKind (notEnd_of_isPlain isPlain)⟩

theorem Separated.trans (first : Separated start middle) (second : Separated middle stop) :
    Separated start stop :=
  ⟨first.weaves.trans second.weaves, first.progress.trans second.progress⟩

/-- Finds a separator and passes it, or stays where it is. -/
def Divides (separator : Parser Bool) : Prop :=
  ∀ cursor fault, separator.Meets cursor (fun found after =>
    (found = true → Separated cursor after) ∧ (found = false → after = cursor)) fault

private theorem divides_eatKeyword (word : String) : Divides (eatKeyword word) := by
  intro cursor fault
  rw [meets_eatKeyword]
  refine ⟨?_, fun _ => ⟨by simp, fun _ => rfl⟩⟩
  intro atWord
  exact ⟨fun _ => .plain atWord rfl rfl, by simp⟩

private theorem divides_comparisonOperator : Divides comparisonOperator := by
  intro cursor fault
  rw [comparisonOperator, meets_bind, meets_currentKind]
  split
  next atSign =>
    rw [meets_bind, meets_advance, meets_pure]
    exact ⟨fun _ => .plain atSign rfl rfl, by simp⟩
  next atIn =>
    rw [meets_bind, meets_advance, meets_pure]
    exact ⟨fun _ => .plain atIn rfl rfl, by simp⟩
  next atNot =>
    rw [meets_bind, meets_get, meets_ite]
    constructor
    · intro beforeIn
      have atIn : cursor.advance.current.kind = .keyword "in" := by
        rw [Cursor.current_kind_advance (by simp [atNot])]
        exact eq_of_beq beforeIn
      rw [meets_bind, meets_advance, meets_bind, meets_advance, meets_pure]
      exact ⟨fun _ => .trans (.plain atNot rfl rfl) (.plain atIn rfl rfl), by simp⟩
    · intro _
      exact meets_pure.mpr ⟨by simp, fun _ => rfl⟩
  next atIs =>
    rw [meets_bind, meets_advance, meets_bind, meets_eat]
    constructor
    · intro atNot
      exact meets_pure.mpr
        ⟨fun _ => .trans (.plain atIs rfl rfl) (.plain atNot rfl rfl), by simp⟩
    · intro _
      exact meets_pure.mpr ⟨fun _ => .plain atIs rfl rfl, by simp⟩
  next => exact meets_pure.mpr ⟨by simp, fun _ => rfl⟩

/-- A chain of several operands lies outside the subset. -/
private theorem reader_chain {rank : Nat} {kindName : String} {separator : Parser Bool}
    {operand : Parser Expr} (isOutside : kindName ∈ outsideExpressions)
    (divides : Divides separator) (reader : Reader all room rank operand) :
    Reader all room rank (chain kindName separator operand) := by
  intro cursor inside
  simp only [chain, meets_bind, meets_ite, meets_pure, meets_unsupportedSince]
  refine (reader cursor inside).mono ?_
  intro first place item
  have here := item.inside inside
  refine (divides place _).mono ?_
  rintro found after ⟨taken, stays⟩
  constructor
  · intro isFound
    have separated := taken isFound
    refine (reader after (separated.weaves.inside here)).mono ?_
    intro second stop other
    refine meets_iterate (fun _ => Weaves place) (separated.weaves.trans other.weaves) ?_
    intro _ further weaves
    simp only [meets_bind, meets_ite, meets_pure, keeps_more, keeps_done]
    refine (divides further _).mono ?_
    rintro found after ⟨taken, stays⟩
    constructor
    · intro isFound
      have separated := taken isFound
      have longer := weaves.trans separated.weaves
      refine (reader after (longer.inside here)).mono ?_
      intro next stop other
      exact ⟨longer.trans other.weaves, separated.progress.trans other.progress⟩
    · intro notFound
      rw [stays (by simpa using notFound)]
      exact item.since weaves isOutside
  · intro notFound
    rw [stays (by simpa using notFound)]
    exact item

private theorem reader_inversion (below : BelowReads all room deeper) :
    Reader all room 0 (inversion deeper) := by
  intro cursor inside
  simp only [inversion, meets_bind, meets_isAt, meets_ite, meets_advance, meets_pure,
    beq_iff_eq]
  constructor
  · intro atNot
    have started := inside.advance_of atNot rfl
    refine nested_points started below ?_
    rintro inner level rfl levelReads
    refine (levelReads.inversion cursor.advance started).mono ?_
    rintro operand stop ⟨tokens, passes, read⟩
    exact ⟨_, .trans (.advance_of atNot rfl) passes, .negation atNot read⟩
  · intro _
    refine (reader_chain (by decide) divides_comparisonOperator (reader_binary below) cursor
      inside).mono ?_
    intro expr stop parsed
    exact parsed.of_le (Nat.zero_le 1)

private theorem reader_disjunction (below : BelowReads all room deeper) :
    Reader all room 0 (disjunction deeper) :=
  reader_chain (by decide) (divides_eatKeyword "or")
    (reader_chain (by decide) (divides_eatKeyword "and") (reader_inversion below))

/-! ### Whole expressions -/

private theorem meets_lambda {outer rank : Nat} (levelReads : LevelReads all room level)
    (inside : cursor.In all) (atLambda : cursor.current.kind = .keyword "lambda") :
    (lambda level).Meets cursor (Parsed outer rank cursor) (Points all) := by
  have started := inside.advance_of atLambda rfl
  rw [lambda, meets_bind, meets_advance, meets_bind, meets_get]
  split
  next found failed =>
    rw [meets_throw]
    intro stream
    have member := mem_of_lambdaParameters failed (started.end_ahead stream.ends)
    exact ParseError.pointsInto_unexpected
      (stream.anchored (started.remaining_suffix.subset member))
  next count found =>
    simp only [meets_bind, meets_set, meets_unsupportedSince]
    obtain ⟨taken, colon, rest, shape, rfl, isColon, parameters⟩ :=
      (@lambdaParameters_eq_ok_iff [] _ _).mp found
    have passes := parameters.passes shape isColon
    refine (levelReads.expression _ (started.passes passes)).mono ?_
    rintro body stop ⟨tokens, passesBody, read⟩
    refine .outside (.trans (.advance_of atLambda rfl) (passes.trans passesBody))
      (by rw [atLambda]; rfl) ?_ (by decide)
    simpa using Woven.lambda atLambda parameters isColon read.woven

private theorem reader_expression (below : BelowReads all room deeper) :
    Reader all room 0 (Parser.expression deeper) := by
  intro cursor inside
  simp only [Parser.expression, meets_bind, meets_isAtKeyword, meets_ite, meets_eatKeyword,
    meets_unsupportedSince, meets_pure, beq_iff_eq, Bool.false_eq_true,
    not_true_eq_false, not_false_eq_true, false_implies, true_and, and_true,
    forall_const]
  constructor
  · intro atLambda
    refine nested_points inside below ?_
    intro inner level _ levelReads
    exact meets_lambda levelReads inside atLambda
  · intro _
    refine (reader_disjunction below cursor inside).mono ?_
    intro body place item
    refine ⟨?_, fun _ => item⟩
    intro atIf
    have inCondition := (item.inside inside).advance_of atIf rfl
    refine (reader_disjunction below place.advance inCondition).mono ?_
    intro condition after tested
    have here := tested.inside inCondition
    refine ⟨?_, fun _ => unexpected_points here⟩
    intro atElse
    refine nested_points (here.advance_of atElse rfl) below ?_
    intro inner level _ levelReads
    refine (levelReads.expression after.advance (here.advance_of atElse rfl)).mono ?_
    intro other stop otherItem
    exact item.since (.trans (.plain atIf rfl rfl) (tested.weaves.trans
      (.trans (.plain atElse rfl rfl) otherItem.weaves))) (by decide)

private theorem reader_namedExpression (below : BelowReads all room deeper) :
    Reader all room 0 (namedExpression deeper) := by
  intro cursor inside
  simp only [namedExpression, meets_bind, meets_isAt, meets_ite, meets_advance,
    meets_unsupportedSince, meets_pure, Bool.and_eq_true, beq_iff_eq]
  refine (reader_expression below cursor inside).mono ?_
  intro value place item
  refine ⟨?_, fun _ => item⟩
  rintro ⟨_, atBinding⟩
  have started := (item.inside inside).advance_of atBinding rfl
  refine nested_points started below ?_
  intro inner level _ levelReads
  refine (levelReads.expression place.advance started).mono ?_
  intro bound stop boundItem
  exact item.since (.trans (.plain atBinding rfl rfl) boundItem.weaves) (by decide)

/-! ### All levels -/

private theorem levelReads_above (below : BelowReads all room deeper) :
    LevelReads all room (.above deeper) where
  expression := reader_expression below
  namedExpression := reader_namedExpression below
  inversion := reader_inversion below
  factor := reader_factor below
  primary := reader_primary below

end

/-- Every level reads expressions as `Reading` says, with room for the levels below it. -/
theorem levelReads_withRoom (all : List Token) (room : Nat) :
    LevelReads all room (.withRoom room) := by
  induction room with
  | zero =>
      apply levelReads_above
      intro level isLevel
      cases isLevel
  | succ room inductionHypothesis =>
      apply levelReads_above
      intro level isLevel
      cases isLevel
      exact ⟨room, rfl, inductionHypothesis⟩

/-- What an expression rule yields is read from the tokens that it takes. -/
theorem parsed_expression (room : Nat) (cursor : Cursor) :
    (Level.withRoom room).expression.Yields cursor (Parsed room 0 cursor) :=
  yields_of_meets ((levelReads_withRoom _ room).expression cursor (.here cursor))

end Parser
end Transpiler
