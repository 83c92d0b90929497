import Transpiler.Proofs.Grammar.StatementMirroring

/-!
Contract: reading comes to an end, and the first end of file is where.

Owns: the loops and the rules of the grammar as a whole (`Parser.IsLoop`, `Parser.IsRule`), and
that every loop ends by itself, every rule moves forward only and never past an end of file, and
what follows the first end of file changes nothing. The tokens may be of any kinds in any order.
-/

namespace Transpiler
namespace Parser

variable {α σ : Type}

/-! ### The loops of the grammar -/

/-- The loops of the grammar by their rounds, at every nesting level. -/
inductive IsLoop : {σ : Type} → (σ → Parser (Round σ)) → Prop where
  | tuple (room : Nat) : IsLoop (tupleRound (Level.withRoom room).expression)
  | elements (room : Nat) : IsLoop (elementRound (Level.withRoom room))
  | arguments (room : Nat) : IsLoop (argumentRound (Level.withRoom room))
  | trailers (room : Nat) : IsLoop (trailer (Level.below room))
  | operators (room rank : Nat) :
      IsLoop (operatorRound (ranked (Level.below room) (rank + 1)) rank)
  | comparisons (room : Nat) :
      IsLoop (chainRound comparisonOperator (binary (Level.below room)))
  | conjunctions (room : Nat) :
      IsLoop (chainRound (eatKeyword "and") (inversion (Level.below room)))
  | disjunctions (room : Nat) :
      IsLoop (chainRound (eatKeyword "or") (conjunction (Level.below room)))
  | decorators : IsLoop decoratorRound
  | clauses (words : List String) : IsLoop (clauseRound words)
  | targets : IsLoop targetRound
  | statements : IsLoop statementRound
  | lines : IsLoop lineRound

theorem belowReflects_below {bound : Bound} {move : Relocation} (room : Nat) :
    BelowReflects bound move (Level.below room) := by
  cases room with
  | zero => exact fun level isSome => by cases isSome
  | succ room =>
      rintro level isSome
      cases isSome
      exact levelReflects_withRoom room

private theorem reflects_ranked {bound : Bound} {move : Relocation} (room rank : Nat) :
    Reflects bound move (ranked (Level.below room) rank) := by
  have below := @belowReflects_below bound move room
  unfold ranked
  split
  · exact reflects_inversion below
  · exact reflects_power below
  · exact reflects_primary below
  · exact reflects_atom below
  · exact reflects_operators below _

/-- The rounds of every loop mirror each other, for some image of the state. -/
theorem IsLoop.roundsMirror {round : σ → Parser (Round σ)} (isLoop : IsLoop round)
    (move : Relocation) : ∃ reflect, RoundsMirror .file move reflect round := by
  cases isLoop with
  | tuple room => exact ⟨_, roundsMirror_tuple (levelReflects_withRoom room).expression⟩
  | elements room => exact ⟨_, roundsMirror_element (levelReflects_withRoom room)⟩
  | arguments room => exact ⟨_, roundsMirror_argument (levelReflects_withRoom room)⟩
  | trailers room => exact ⟨_, roundsMirror_trailer (belowReflects_below room)⟩
  | operators room rank => exact ⟨_, roundsMirror_operator (reflects_ranked room (rank + 1))⟩
  | comparisons room =>
      exact ⟨_, roundsMirror_chain separatesAlike_comparisonOperator
        (reflects_binary (belowReflects_below room))⟩
  | conjunctions room =>
      exact ⟨_, roundsMirror_chain (separatesAlike_eatKeyword "and")
        (reflects_inversion (belowReflects_below room))⟩
  | disjunctions room =>
      exact ⟨_, roundsMirror_chain (separatesAlike_eatKeyword "or")
        (reflects_conjunction (belowReflects_below room))⟩
  | decorators => exact ⟨_, roundsMirror_decorator⟩
  | clauses words => exact ⟨_, roundsMirror_clause⟩
  | targets => exact ⟨_, roundsMirror_target⟩
  | statements => exact ⟨_, roundsMirror_statement⟩
  | lines => exact ⟨_, roundsMirror_line⟩

/-! ### The rules of the grammar -/

/-- The steps that take tokens and the rules of the grammar, at every nesting level. -/
inductive IsRule : {α : Type} → Parser α → Prop where
  | advance : IsRule advance
  | eat (kind : TokenKind) : IsRule (eat kind)
  | takeUntil (stops : TokenKind → Bool) : IsRule (takeUntil stops)
  | expectClosing (closing : TokenKind) (opening : String) (openedAt : Span)
      (expected : String) : IsRule (expectClosing closing opening openedAt expected)
  | skipBracketContents : IsRule skipBracketContents
  | skipClause : IsRule skipClause
  | round {σ : Type} {round : σ → Parser (Round σ)} (isLoop : IsLoop round) (state : σ) :
      IsRule (round state)
  | iterate {σ : Type} {round : σ → Parser (Round σ)} (isLoop : IsLoop round) (state : σ) :
      IsRule (iterate round state)
  | tupleRest (room : Nat) (first : Expr) :
      IsRule (tupleRest (Level.withRoom room).expression first)
  | yieldExpression (room : Nat) : IsRule (yieldExpression (Level.withRoom room).expression)
  | expressionList (room : Nat) : IsRule (expressionList (Level.withRoom room).expression)
  | strings : IsRule strings
  | parenthesized (room : Nat) : IsRule (parenthesized (Level.withRoom room))
  | listDisplay (room : Nat) : IsRule (listDisplay (Level.withRoom room))
  | braces : IsRule braces
  | ranked (room rank : Nat) : IsRule (ranked (Level.below room) rank)
  | callArguments (room : Nat) (opened : Span) :
      IsRule (callArguments opened (Level.withRoom room))
  | comparisonOperator : IsRule comparisonOperator
  | comparison (room : Nat) : IsRule (comparison (Level.below room))
  | conjunction (room : Nat) : IsRule (conjunction (Level.below room))
  | disjunction (room : Nat) : IsRule (disjunction (Level.below room))
  | lambda (room : Nat) : IsRule (lambda (Level.withRoom room))
  | expression (room : Nat) : IsRule (expression (Level.below room))
  | namedExpression (room : Nat) : IsRule (namedExpression (Level.below room))
  | compoundStatement : IsRule compoundStatement
  | annotatedRest (target : Expr) : IsRule (annotatedRest target)
  | assignRest (first : Expr) : IsRule (assignRest first)
  | augmentedRest (target : Expr) (symbol : String) : IsRule (augmentedRest target symbol)
  | expressionStatement : IsRule expressionStatement
  | simpleStatement : IsRule simpleStatement
  | lineEnd : IsRule lineEnd
  | line : IsRule line
  | wholeModule : IsRule wholeModule

/-- Wherever a rule stops, it got there from where it began without passing an end of file. -/
theorem IsRule.reaches {rule : Parser α} (isRule : IsRule rule) {cursor after : Cursor}
    {value : α} (ran : rule cursor = .ok (value, after)) : cursor.Reaches .file after := by
  -- locations play no part here, so any change of them will do
  have ofMirrors : ∀ {reflected : Parser α} {post : α → α → Cursor → Prop},
      Mirrors .file .identity reflected rule cursor post → cursor.Reaches .file after :=
    fun mirrors => mirrors.reaches ran
  have level := @levelReflects_withRoom .file .identity
  have below := @belowReflects_below .file .identity
  cases isRule with
  | advance =>
      cases ran
      exact .advance (Bound.admits_file _)
  | eat => exact ofMirrors (mirrors_eatAlone (Bound.admits_file _))
  | takeUntil => exact ofMirrors (mirrors_takeUntil fun kind ended => .inl (eq_of_beq ended))
  | expectClosing closing opening openedAt expected =>
      have closes : (Parser.expectClosing closing opening openedAt expected).Yields cursor
          fun _ after => cursor.Reaches .file after :=
        yields_expectClosing.mpr fun _ => .advance (Bound.admits_file _)
      exact closes value after ran
  | skipBracketContents => exact ofMirrors mirrors_skipBracketContents
  | skipClause => exact ofMirrors mirrors_skipClause
  | round isLoop state =>
      obtain ⟨reflect, rounds⟩ := isLoop.roundsMirror .identity
      exact ofMirrors (rounds state cursor)
  | iterate isLoop state =>
      obtain ⟨reflect, rounds⟩ := isLoop.roundsMirror .identity
      exact ofMirrors (mirrors_iterate rounds)
  | tupleRest room first => exact ofMirrors (mirrors_tupleRest (level room).expression)
  | yieldExpression room => exact ofMirrors (reflectsAt_yieldExpression (level room).expression
      (Bound.admits_file _))
  | expressionList room => exact ofMirrors (reflects_expressionList (level room).expression _)
  | strings => exact ofMirrors (reflects_strings _)
  | parenthesized room => exact ofMirrors (reflectsAt_parenthesized (level room)
      (Bound.admits_file _))
  | listDisplay room => exact ofMirrors (reflectsAt_listDisplay (level room) (Bound.admits_file _))
  | braces => exact ofMirrors (reflectsAt_braces (Bound.admits_file _))
  | ranked room rank => exact ofMirrors (reflects_ranked room rank _)
  | callArguments room opened => exact ofMirrors (mirrors_callArguments (level room))
  | comparisonOperator => exact ofMirrors (separatesAlike_comparisonOperator _)
  | comparison room => exact ofMirrors (reflects_comparison (below room) _)
  | conjunction room => exact ofMirrors (reflects_conjunction (below room) _)
  | disjunction room => exact ofMirrors (reflects_disjunction (below room) _)
  | lambda room => exact ofMirrors (reflectsAt_lambda (level room) (Bound.admits_file _))
  | expression room => exact ofMirrors (reflects_expression (below room) _)
  | namedExpression room => exact ofMirrors (reflects_namedExpression (below room) _)
  | compoundStatement => exact ofMirrors mirrors_compoundStatement
  | annotatedRest target => exact ofMirrors (mirrors_annotatedRest (Bound.admits_file _))
  | assignRest first => exact ofMirrors (mirrors_assignRest (Bound.admits_file _))
  | augmentedRest target symbol => exact ofMirrors (mirrors_augmentedRest (Bound.admits_file _))
  | expressionStatement => exact ofMirrors (reflects_expressionStatement _)
  | simpleStatement => exact ofMirrors (reflects_simpleStatement _)
  | lineEnd => exact ofMirrors mirrors_lineEnd
  | line => exact ofMirrors mirrors_line
  | wholeModule => exact ofMirrors mirrors_wholeModule

end Parser

/-! ### Positions -/

/-- The position of the first end of file among tokens; their number if there is none. -/
def Token.firstEnd (tokens : List Token) : Nat :=
  tokens.findIdx (·.kind == .endOfFile)

theorem Token.noEnd_of_le_firstEnd {tokens : List Token} {position : Nat}
    (inside : position ≤ firstEnd tokens) :
    ∀ token ∈ tokens.take position, token.kind ≠ .endOfFile := by
  intro token member
  obtain ⟨index, bound, rfl⟩ := List.mem_take_iff_getElem.mp member
  have before : index < tokens.findIdx (·.kind == .endOfFile) :=
    Nat.lt_of_lt_of_le (Nat.lt_min.mp bound).1 inside
  simpa using List.not_of_lt_findIdx before

namespace Cursor

/-- The place after a number of tokens of a list. -/
def atPosition (tokens : List Token) (position : Nat) : Cursor :=
  (start tokens).skip position

private theorem passes_atPosition {tokens : List Token} {position : Nat}
    (inside : position ≤ Token.firstEnd tokens) :
    (start tokens).Passes (tokens.take position) (atPosition tokens position) :=
  .skip (Token.noEnd_of_le_firstEnd inside)

/-- The first end of file is still ahead of every place that is reached. -/
theorem Passes.firstEnd {tokens read : List Token} {place : Cursor}
    (passes : (start tokens).Passes read place) :
    Token.firstEnd tokens = read.length + Token.firstEnd place.remaining := by
  have split : tokens = read ++ place.remaining := passes.split
  have noneRead : read.findIdx (·.kind == .endOfFile) = read.length := by
    rw [List.findIdx_eq_length]
    intro token member
    simpa using passes.noEnd token member
  rw [Token.firstEnd, split, List.findIdx_append, noneRead, if_neg (Nat.lt_irrefl _), Nat.add_comm]
  rfl

/-- From a position up to the first end of file, only such positions are reached. -/
theorem Reaches.position {tokens : List Token} {position : Nat} {after : Cursor}
    (reaches : (atPosition tokens position).Reaches .file after)
    (inside : position ≤ Token.firstEnd tokens) :
    ∃ next, position ≤ next ∧ next ≤ Token.firstEnd tokens ∧ after = atPosition tokens next := by
  obtain ⟨taken, passes, _⟩ := reaches
  have counted : (tokens.take position).length = position := by
    rw [List.length_take, Nat.min_eq_left]
    exact Nat.le_trans inside List.findIdx_le_length
  have whole := (passes_atPosition inside).trans passes
  refine ⟨position + taken.length, Nat.le_add_right _ _, ?_, ?_⟩
  · have ahead := whole.firstEnd
    rw [List.length_append, counted] at ahead
    omega
  · rw [atPosition, ← whole.skip_eq, List.length_append, counted]

end Cursor

/-! ### Reading to the end -/

/-- Tokens are read up to the first end of file: every loop ends by itself, every rule moves
forward only and not past that end, and what follows it changes nothing. -/
structure Module.ReadsToEnd (tokens : List Token) : Prop where
  /-- Without a bound on their rounds, the loops would come to the same. -/
  terminates : ∀ {σ : Type} {round : σ → Parser (Parser.Round σ)}, Parser.IsLoop round →
    ∀ state cursor, Parser.Loops round state cursor (Parser.iterate round state cursor)
  forward : ∀ {α : Type} {rule : Parser α}, Parser.IsRule rule →
    ∀ position ≤ Token.firstEnd tokens, ∀ value after,
      rule (Cursor.atPosition tokens position) = .ok (value, after) →
        ∃ next, position ≤ next ∧ next ≤ Token.firstEnd tokens ∧
          after = Cursor.atPosition tokens next
  stops : ∀ tree after, Parser.wholeModule (Cursor.start tokens) = .ok (tree, after) →
    after = Cursor.atPosition tokens (Token.firstEnd tokens)
  unread : ∀ front last rest, tokens = front ++ last :: rest → last.kind = .endOfFile →
    ∀ others, ofTokens (front ++ last :: others) = ofTokens tokens

/-- A module that was read ends at the first end of file. -/
theorem Module.stops_of_wholeModule {tokens : List Token} {tree : Module} {after : Cursor}
    (ran : Parser.wholeModule (Cursor.start tokens) = .ok (tree, after)) :
    after = Cursor.atPosition tokens (Token.firstEnd tokens) := by
  obtain ⟨read, passes, _⟩ := Parser.IsRule.wholeModule.reaches ran
  have meets := Parser.meets_wholeModule (.here (.start tokens))
  obtain ⟨_, atEnd⟩ := (Parser.meets_of_ok ran).mp meets
  have none : Token.firstEnd after.remaining = 0 := by
    rw [Cursor.current_kind] at atEnd
    cases remaining : after.remaining with
    | nil => rfl
    | cons token rest => simp_all [Token.firstEnd, List.findIdx_cons]
  rw [Cursor.atPosition, ← passes.skip_eq, passes.firstEnd, none, Nat.add_zero]

theorem Token.through_of_end {bound : Bound} {last : Token} (front rest others : List Token)
    (ended : bound.ends last.kind = true) :
    through bound (front ++ last :: others) = through bound (front ++ last :: rest) := by
  induction front with
  | nil => simp [through, ended]
  | cons token front inductionHypothesis => simp [through, inductionHypothesis]

/-- Only the tokens through the first end of file are read. -/
theorem Module.ofTokens_through (tokens : List Token) :
    ofTokens (Token.through .file tokens) = ofTokens tokens := by
  have image := ofTokens_image .identity tokens
  have same : (Token.through .file tokens).map (·.relocate .identity) =
      Token.through .file tokens := by
    simp
  rw [same] at image
  rw [image]
  cases ofTokens tokens with
  | ok tree => exact congrArg Except.ok tree.relocate_identity
  | error error => exact congrArg Except.error error.relocate_identity

/-- Reading terminates and stops at the first end of file, whatever the tokens are. -/
theorem Module.readsToEnd (tokens : List Token) : ReadsToEnd tokens where
  terminates isLoop state cursor := by
    obtain ⟨reflect, rounds⟩ := isLoop.roundsMirror .identity
    exact Parser.loops_iterate rounds.consumes state cursor
  forward isRule position inside value after ran := (isRule.reaches ran).position inside
  stops tree after ran := stops_of_wholeModule ran
  unread := by
    rintro front last rest rfl isEnd others
    have ended : Bound.file.ends last.kind = true := beq_iff_eq.mpr isEnd
    rw [← ofTokens_through, Token.through_of_end front rest others ended, ofTokens_through]

end Transpiler
