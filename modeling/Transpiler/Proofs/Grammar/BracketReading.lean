import Transpiler.Proofs.Grammar.OperatorReading

/-!
Contract: the expression rules read every expression of the grammar.

Owns: runs of the loops over expressions between commas (call arguments, lists and
tuples), of the rules for brackets, and from these, by induction over derivations, of
the rule for every derived expression.
-/

namespace Transpiler

open Cursor (headKind)

namespace Parser

/-! ### Expressions between commas -/

/-- An expression that is read between commas and brackets. -/
def ReadsItem (room : Nat) (expr : Expr) (kinds : List TokenKind) : Prop :=
  (∃ kind rest, kinds = kind :: rest ∧ leads 0 kind = true) ∧
    ReadsWhole (expression (Level.below room)) 0 expr kinds

/-- Expressions between commas, each of which is read. -/
inductive ItemsRead (room : Nat) : List Expr → List TokenKind → Prop where
  | none : ItemsRead room [] []
  | last {expr : Expr} {kinds : List TokenKind} (first : ReadsItem room expr kinds) :
      ItemsRead room [expr] kinds
  | more {expr : Expr} {rest : List Expr} {kinds restKinds : List TokenKind}
      (first : ReadsItem room expr kinds) (others : ItemsRead room rest restKinds) :
      ItemsRead room (expr :: rest) (kinds ++ .comma :: restKinds)

/-- The rounds of a loop over expressions between commas, up to a closing token. The
state of the loop is made from the expressions read so far. -/
structure TakesItems {σ : Type} (level : Level) (closing : TokenKind) (make : List Expr → σ)
    (round : σ → Parser (Round σ)) : Prop where
  stop : ∀ (elements : List Expr) {cursor : Cursor}, cursor.current.kind = closing →
    round (make elements) cursor = .ok (.done (make elements), cursor)
  comma : ∀ (elements : List Expr) {read : Expr} {cursor after : Cursor},
    leads 0 cursor.current.kind = true → level.namedExpression cursor = .ok (read, after) →
    after.current.kind = .comma →
      round (make elements) cursor = .ok (.more (make (elements ++ [read])), after.advance)
  last : ∀ (elements : List Expr) {read : Expr} {cursor after : Cursor},
    leads 0 cursor.current.kind = true → level.namedExpression cursor = .ok (read, after) →
    after.current.kind = closing →
      round (make elements) cursor = .ok (.done (make (elements ++ [read])), after)

private theorem takesItems_elementRound (level : Level) :
    TakesItems level .rightBracket (·, false) (elementRound level) where
  stop elements cursor closes := by
    simp only [elementRound, run_bind, run_currentKind, closes]
    rfl
  comma elements read cursor after leading ran next := by
    have notFor : (TokenKind.comma == .keyword "for") = false := rfl
    simp only [elementRound, run_bind, run_currentKind, startsExpression_of_leads leading,
      Bool.not_true, Bool.false_eq_true, if_false, ran, run_isAtKeyword, next, notFor,
      Bool.and_false, run_eat, if_true, run_pure]
  last elements read cursor after leading ran next := by
    have notFor : (TokenKind.rightBracket == .keyword "for") = false := rfl
    simp only [elementRound, run_bind, run_currentKind, startsExpression_of_leads leading,
      Bool.not_true, Bool.false_eq_true, if_false, ran, run_isAtKeyword, next, notFor,
      Bool.and_false, run_eat, reduceCtorEq, run_pure]

/-- Where an expression begins, a call goes on with an argument. -/
private theorem argumentRound_of_leads {level : Level} {arguments : List Expr} {cursor : Cursor}
    (leading : leads 0 cursor.current.kind = true) :
    argumentRound level arguments cursor =
      (do
        let argument ← level.namedExpression
        if (← isAt .equals) && argument.isName then
          throw ⟨.unsupportedSyntax "keyword argument", argument.span⟩
        else if ← isAtKeyword "for" then
          let _ ← skipBracketContents
          return .done (arguments ++ [← unsupportedSince "GeneratorExp" argument.span])
        else if ← eat .comma then return .more (arguments ++ [argument])
        else return .done (arguments ++ [argument]) : Parser (Round (List Expr))) cursor := by
  rw [argumentRound, run_bind_of_ok (run_currentKind cursor)]
  generalize cursor.current.kind = kind at leading ⊢
  cases kind with
  | rightParen | newline | endOfFile | star | doubleStar => simp [leads] at leading
  | _ => rfl

private theorem takesItems_argumentRound (level : Level) :
    TakesItems level .rightParen id (argumentRound level) where
  stop elements cursor closes := by
    simp only [argumentRound, run_bind, run_currentKind, closes]
    rfl
  comma elements read cursor after leading ran next := by
    have notFor : (TokenKind.comma == .keyword "for") = false := rfl
    have notEquals : (TokenKind.comma == .equals) = false := rfl
    simp only [argumentRound_of_leads leading, run_bind, ran, run_isAt, next, notEquals,
      Bool.false_and, Bool.false_eq_true, if_false, run_isAtKeyword, notFor, run_eat, if_true,
      run_pure, id]
  last elements read cursor after leading ran next := by
    have notFor : (TokenKind.rightParen == .keyword "for") = false := rfl
    have notEquals : (TokenKind.rightParen == .equals) = false := rfl
    simp only [argumentRound_of_leads leading, run_bind, ran, run_isAt, next, notEquals,
      Bool.false_and, Bool.false_eq_true, if_false, run_isAtKeyword, notFor, run_eat,
      reduceCtorEq, run_pure, id]

/-- A loop over expressions between commas reads them up to its closing token. -/
theorem ItemsRead.repeats {σ : Type} {room : Nat} {closing : TokenKind} {make : List Expr → σ}
    {round : σ → Parser (Round σ)} {expressions : List Expr} {kinds : List TokenKind}
    (takes : TakesItems (Level.above (Level.below room)) closing make round)
    (closes : rankBefore closing = 0) (items : ItemsRead room expressions kinds) :
    ∀ (elements : List Expr) (tokens rest : List Token) (previous : Span),
      tokens.map (·.kind) = kinds → headKind rest = closing →
        ∃ (read : List Expr) (place : Span),
          read.map Expr.unlocated = expressions.map Expr.unlocated ∧
            Repeats round (make elements) ⟨tokens ++ rest, previous⟩
              (make (elements ++ read)) ⟨rest, place⟩ := by
  induction items with
  | none =>
      intro elements tokens rest previous shape ends
      obtain rfl := List.map_eq_nil_iff.mp shape
      refine ⟨[], previous, rfl, ?_⟩
      rw [List.append_nil]
      exact .done (takes.stop _ (by rwa [List.nil_append, Cursor.current_kind_mk]))
  | last first =>
      intro elements tokens rest previous shape ends
      obtain ⟨⟨kind, others, rfl, leading⟩, reads⟩ := first
      obtain ⟨read, place, same, ran⟩ := reads.namedExpression tokens rest previous shape
        (Nat.le_of_eq (by rw [ends, closes]))
      refine ⟨[read], place, by simp [same], .done (takes.last _ ?_ ran ?_)⟩
      · rwa [Cursor.current_kind_mk, headKind_append shape]
      · rwa [Cursor.current_kind_mk]
  | more first others inductionHypothesis =>
      intro elements tokens rest previous shape ends
      obtain ⟨⟨kind, kinds, rfl, leading⟩, reads⟩ := first
      obtain ⟨before, comma, after, rfl, beforeShape, commaShape, afterShape⟩ :=
        exists_split_at shape
      obtain ⟨read, place, same, ran⟩ :=
        reads.namedExpression before (comma :: (after ++ rest)) previous beforeShape
          (by simp [commaShape, rankBefore])
      obtain ⟨readOthers, lastPlace, sameOthers, repeats⟩ :=
        inductionHypothesis (elements ++ [read]) after rest comma.span afterShape ends
      refine ⟨read :: readOthers, lastPlace, by simp [same, sameOthers], ?_⟩
      rw [List.append_assoc, List.cons_append]
      have leadingHere : leads 0 (headKind (before ++ comma :: (after ++ rest))) = true := by
        rwa [headKind_append beforeShape]
      have taken := Cursor.advance_cons comma (after ++ rest) place (by simp [commaShape])
      have round := takes.comma elements (by rwa [Cursor.current_kind_mk]) ran commaShape
      rw [taken] at round
      refine .more round ?_ ?_
      · simp only [List.length_append, List.length_cons]
        omega
      · rwa [List.append_assoc, List.singleton_append] at repeats

/-- The tokens that may follow expressions between commas. -/
def endsList (kind : TokenKind) : Bool :=
  rankBefore kind == 0 && kind != .comma

private theorem startsExpression_of_endsList {kind : TokenKind} (ends : endsList kind = true) :
    startsExpression kind = false := by
  cases kind <;> simp_all [endsList, rankBefore, binaryOperator?, startsExpression]

private theorem tupleRound_stop {expression : Parser Expr} {elements : List Expr} {cursor : Cursor}
    (notComma : cursor.current.kind ≠ .comma) :
    tupleRound expression elements cursor = .ok (.done elements, cursor) := by
  simp only [tupleRound, run_bind, run_eat, notComma, if_false, Bool.not_false, if_true, run_pure]

private theorem tupleRound_last {expression : Parser Expr} {elements : List Expr} {comma : Token}
    {rest : List Token} {previous : Span} (isComma : comma.kind = .comma)
    (ends : endsList (headKind rest) = true) :
    tupleRound expression elements ⟨comma :: rest, previous⟩ =
      .ok (.done elements, ⟨rest, comma.span⟩) := by
  have taken := Cursor.advance_cons comma rest previous (by simp [isComma])
  simp only [tupleRound, run_bind, run_eat, Cursor.current_cons, isComma, if_true, taken,
    Bool.not_true, Bool.false_eq_true, if_false, run_currentKind, Cursor.current_kind_mk,
    startsExpression_of_endsList ends, run_pure]

private theorem tupleRound_more {expression : Parser Expr} {elements : List Expr} {read : Expr}
    {comma : Token} {rest : List Token} {previous : Span} {after : Cursor}
    (isComma : comma.kind = .comma) (leading : leads 0 (headKind rest) = true)
    (ran : expression ⟨rest, comma.span⟩ = .ok (read, after)) :
    tupleRound expression elements ⟨comma :: rest, previous⟩ =
      .ok (.more (elements ++ [read]), after) := by
  have taken := Cursor.advance_cons comma rest previous (by simp [isComma])
  simp only [tupleRound, run_bind, run_eat, Cursor.current_cons, isComma, if_true, taken,
    Bool.not_true, Bool.false_eq_true, if_false, run_currentKind, Cursor.current_kind_mk,
    startsExpression_of_leads leading, ran, run_pure]

/-- The loop of a tuple reads the expressions after its first comma. -/
theorem ItemsRead.repeats_tuple {room : Nat} {expressions : List Expr} {kinds : List TokenKind}
    (items : ItemsRead room expressions kinds) :
    ∀ (elements : List Expr) (comma : Token) (tokens rest : List Token) (previous : Span),
      comma.kind = .comma → tokens.map (·.kind) = kinds → endsList (headKind rest) = true →
        ∃ (read : List Expr) (place : Span),
          read.map Expr.unlocated = expressions.map Expr.unlocated ∧
            Repeats (tupleRound (expression (Level.below room))) elements
              ⟨comma :: (tokens ++ rest), previous⟩ (elements ++ read) ⟨rest, place⟩ := by
  induction items with
  | none =>
      intro elements comma tokens rest previous isComma shape ends
      obtain rfl := List.map_eq_nil_iff.mp shape
      refine ⟨[], comma.span, rfl, ?_⟩
      rw [List.append_nil]
      exact .done (tupleRound_last isComma ends)
  | last first =>
      intro elements comma tokens rest previous isComma shape ends
      obtain ⟨⟨kind, others, rfl, leading⟩, reads⟩ := first
      have ⟨closes, notComma⟩ : rankBefore (headKind rest) = 0 ∧ headKind rest ≠ .comma := by
        simpa [endsList] using ends
      obtain ⟨read, place, same, ran⟩ := reads tokens rest comma.span shape (Nat.le_of_eq closes)
      refine ⟨[read], place, by simp [same], ?_⟩
      refine .more (tupleRound_more isComma ?_ ran) ?_ (.done (tupleRound_stop ?_))
      · rwa [headKind_append shape]
      · simp only [List.length_cons, List.length_append]
        omega
      · rwa [Cursor.current_kind_mk]
  | more first others inductionHypothesis =>
      intro elements comma tokens rest previous isComma shape ends
      obtain ⟨⟨kind, kinds, rfl, leading⟩, reads⟩ := first
      obtain ⟨before, next, after, rfl, beforeShape, nextShape, afterShape⟩ := exists_split_at shape
      obtain ⟨read, place, same, ran⟩ :=
        reads before (next :: (after ++ rest)) comma.span beforeShape
          (by simp [nextShape, rankBefore])
      obtain ⟨readOthers, lastPlace, sameOthers, repeats⟩ :=
        inductionHypothesis (elements ++ [read]) next after rest place nextShape afterShape ends
      refine ⟨read :: readOthers, lastPlace, by simp [same, sameOthers], ?_⟩
      rw [List.append_assoc, List.cons_append]
      refine .more (tupleRound_more isComma ?_ ran) ?_ ?_
      · rwa [headKind_append beforeShape]
      · simp only [List.length_cons, List.length_append]
        omega
      · rwa [List.append_assoc, List.singleton_append] at repeats

/-- One expression or a tuple without parentheses: an expression that is read, after
which the rest of the list is read. -/
def ReadsList (room : Nat) (expr : Expr) (kinds : List TokenKind) : Prop :=
  ∃ (first : Expr) (firstKinds restKinds : List TokenKind),
    kinds = firstKinds ++ restKinds ∧ ReadsItem room first firstKinds ∧
      ∀ (read : Expr) (tokens rest : List Token) (previous : Span),
        read.unlocated = first.unlocated → tokens.map (·.kind) = restKinds →
          endsList (headKind rest) = true →
            rankBefore (headKind (tokens ++ rest)) = 0 ∧
              ∃ (whole : Expr) (place : Span), whole.unlocated = expr.unlocated ∧
                tupleRest (expression (Level.below room)) read ⟨tokens ++ rest, previous⟩ =
                  .ok (whole, ⟨rest, place⟩)

theorem ReadsItem.readsList {room : Nat} {expr : Expr} {kinds : List TokenKind}
    (item : ReadsItem room expr kinds) : ReadsList room expr kinds := by
  refine ⟨expr, kinds, [], (List.append_nil _).symm, item, ?_⟩
  intro read tokens rest previous same shape ends
  obtain rfl := List.map_eq_nil_iff.mp shape
  have ⟨closes, notComma⟩ : rankBefore (headKind rest) = 0 ∧ headKind rest ≠ .comma := by
    simpa [endsList] using ends
  have noTuple : (headKind rest == .comma) = false := beq_false_of_ne notComma
  refine ⟨closes, read, previous, same, ?_⟩
  simp only [tupleRest_eq, run_bind, run_isAt, List.nil_append, Cursor.current_kind_mk, noTuple,
    Bool.not_false, if_true, run_pure]

theorem ItemsRead.readsList {room : Nat} {first : Expr} {rest : List Expr}
    {kinds restKinds : List TokenKind} {span : Span} (item : ReadsItem room first kinds)
    (items : ItemsRead room rest restKinds) :
    ReadsList room (.tuple (first :: rest) span) (kinds ++ .comma :: restKinds) := by
  refine ⟨first, kinds, .comma :: restKinds, rfl, item, ?_⟩
  intro read tokens others previous same shape ends
  obtain ⟨comma, after, rfl, isComma, afterShape⟩ := List.map_eq_cons_iff.mp shape
  obtain ⟨reads, place, sameOthers, repeats⟩ :=
    items.repeats_tuple [read] comma after others previous isComma afterShape ends
  refine ⟨by simp [isComma, rankBefore],
    .tuple ([read] ++ reads) (read.span.cover place), place, ?_, ?_⟩
  · simp [Expr.unlocated, same, sameOthers]
  · simp only [tupleRest_eq, run_bind, run_isAt, List.cons_append, Cursor.current_cons, isComma,
      beq_self_eq_true, Bool.not_true, Bool.false_eq_true, if_false, iterate_of_repeats repeats,
      run_previousSpan, run_pure]

/-! ### Brackets -/

/-- A closing delimiter is taken where it stands. -/
theorem expectClosing_cons {closing : TokenKind} {opening expected : String} {openedAt : Span}
    {close : Token} {rest : List Token} {previous : Span} (closes : close.kind = closing)
    (notEnd : closing ≠ .endOfFile) :
    expectClosing closing opening openedAt expected ⟨close :: rest, previous⟩ =
      .ok (close.span, ⟨rest, close.span⟩) := by
  rw [run_expectClosing, Cursor.current_cons, if_pos closes,
    Cursor.advance_cons close rest previous (by rwa [closes])]

private theorem callArguments_reads {room : Nat} {arguments : List Expr} {kinds : List TokenKind}
    {tokens : List Token} {close : Token} (opened previous : Span) (rest : List Token)
    (items : ItemsRead room arguments kinds) (shape : tokens.map (·.kind) = kinds)
    (closes : close.kind = .rightParen) :
    ∃ read : List Expr, read.map Expr.unlocated = arguments.map Expr.unlocated ∧
      callArguments opened (Level.above (Level.below room)) ⟨tokens ++ close :: rest, previous⟩ =
        .ok (read, ⟨rest, close.span⟩) := by
  obtain ⟨read, place, same, repeats⟩ :=
    items.repeats (takesItems_argumentRound _) rfl [] tokens (close :: rest) previous shape closes
  rw [id, id, List.nil_append] at repeats
  refine ⟨read, same, ?_⟩
  rw [callArguments_eq, run_bind_of_ok (iterate_of_repeats repeats),
    run_bind_of_ok (expectClosing_cons closes (by decide))]
  rfl

theorem Reads.call {room : Nat} {callee : Expr} {arguments : List Expr}
    {calleeKinds argumentKinds : List TokenKind} {span : Span}
    (first : Reads (room + 1) 9 callee calleeKinds)
    (items : ItemsRead room arguments argumentKinds) :
    Reads (room + 1) 9 (.call callee arguments span)
      (calleeKinds ++ .leftParen :: (argumentKinds ++ [.rightParen])) := by
  intro tokens rest previous shape _
  obtain ⟨before, opened, others, rfl, beforeShape, openedShape, othersShape⟩ :=
    exists_split_at shape
  obtain ⟨inside, close, others, rfl, insideShape, closes, nothingLeft⟩ :=
    exists_split_at othersShape
  obtain rfl := List.map_eq_nil_iff.mp nothingLeft
  obtain ⟨read, place, same, resumed⟩ :=
    first before (opened :: (inside ++ close :: rest)) previous beforeShape
      (by simp [openedShape, rankBefore, resumeRank])
  obtain ⟨readArguments, sameArguments, ran⟩ :=
    callArguments_reads opened.span opened.span rest items insideShape closes
  refine ⟨.call read readArguments (read.span.cover close.span), close.span, ?_, ?_⟩
  · simp [Expr.unlocated, same, sameArguments]
  · intro last stop others
    rw [List.append_assoc, List.cons_append, List.append_assoc, List.singleton_append]
    apply resumed
    have openedTaken := Cursor.advance_cons opened (inside ++ close :: rest) place
      (by simp [openedShape])
    have round :
        trailer (Level.below (room + 1)) read ⟨opened :: (inside ++ close :: rest), place⟩ =
          .ok (.more (.call read readArguments (read.span.cover close.span)),
            ⟨rest, close.span⟩) := by
      simp only [trailer, run_bind, run_currentKind, Cursor.current_cons, openedShape, run_advance,
        openedTaken, nested_below, ran, run_previousSpan, run_pure]
    refine .more round ?_ others
    simp only [List.length_cons, List.length_append]
    omega

private theorem atom_of_leftParen {room : Nat} {opened : Token} {rest : List Token}
    {previous : Span} (opens : opened.kind = .leftParen) :
    atom (Level.below (room + 1)) ⟨opened :: rest, previous⟩ =
      parenthesized (Level.above (Level.below room)) ⟨opened :: rest, previous⟩ := by
  simp only [atom, run_bind, run_current, Cursor.current_cons, simpleAtom?, isStringToken, opens,
    Bool.false_eq_true, if_false, nested_below]

private theorem atom_of_leftBracket {room : Nat} {opened : Token} {rest : List Token}
    {previous : Span} (opens : opened.kind = .leftBracket) :
    atom (Level.below (room + 1)) ⟨opened :: rest, previous⟩ =
      listDisplay (Level.above (Level.below room)) ⟨opened :: rest, previous⟩ := by
  simp only [atom, run_bind, run_current, Cursor.current_cons, simpleAtom?, isStringToken, opens,
    Bool.false_eq_true, if_false, nested_below]

theorem Reads.unit {room : Nat} {span : Span} :
    Reads (room + 1) 10 (.tuple [] span) [.leftParen, .rightParen] := by
  refine .of_whole (by decide) (by decide) ?_
  intro tokens rest previous shape _
  obtain ⟨opened, others, rfl, opens, othersShape⟩ := List.map_eq_cons_iff.mp shape
  obtain ⟨close, others, rfl, closes, nothingLeft⟩ := List.map_eq_cons_iff.mp othersShape
  obtain rfl := List.map_eq_nil_iff.mp nothingLeft
  refine ⟨.tuple [] (opened.span.cover close.span), close.span, rfl, ?_⟩
  have openedTaken := Cursor.advance_cons opened (close :: rest) previous
    (by simp [opens])
  have closeTaken := Cursor.advance_cons close rest opened.span (by simp [closes])
  change atom _ _ = _
  simp only [List.cons_append, List.nil_append, atom_of_leftParen opens, parenthesized, run_bind,
    run_advance, Cursor.current_cons, openedTaken, run_isAt, closes, beq_self_eq_true, if_true,
    closeTaken, run_pure]

theorem Reads.list {room : Nat} {elements : List Expr} {kinds : List TokenKind} {span : Span}
    (items : ItemsRead room elements kinds) :
    Reads (room + 1) 10 (.list elements span) (.leftBracket :: (kinds ++ [.rightBracket])) := by
  refine .of_whole (by decide) (by decide) ?_
  intro tokens rest previous shape _
  obtain ⟨opened, others, rfl, opens, othersShape⟩ := List.map_eq_cons_iff.mp shape
  obtain ⟨inside, close, others, rfl, insideShape, closes, nothingLeft⟩ :=
    exists_split_at othersShape
  obtain rfl := List.map_eq_nil_iff.mp nothingLeft
  obtain ⟨read, place, same, repeats⟩ :=
    items.repeats (takesItems_elementRound _) rfl [] inside (close :: rest) opened.span
      insideShape closes
  refine ⟨.list read (opened.span.cover close.span), close.span, ?_, ?_⟩
  · simp [Expr.unlocated, same]
  · have openedTaken := Cursor.advance_cons opened (inside ++ close :: rest) previous
      (by simp [opens])
    change atom _ _ = _
    rw [List.cons_append, List.append_assoc, List.singleton_append, atom_of_leftBracket opens,
      listDisplay_eq, run_bind_of_ok (run_advance _), openedTaken,
      run_bind_of_ok (iterate_of_repeats repeats)]
    simp only [Bool.false_eq_true, if_false]
    rw [run_bind_of_ok (expectClosing_cons closes (by decide))]
    rfl

/-- Giving a tuple the location of its parentheses changes nothing but that location. -/
private theorem unlocated_relocated (whole : Expr) (span : Span) :
    (match whole with
      | .tuple elements _ => Expr.tuple elements span
      | _ => whole).unlocated = whole.unlocated := by
  cases whole <;> rfl

theorem Reads.group {room : Nat} {expr : Expr} {kinds : List TokenKind}
    (inner : ReadsList room expr kinds) :
    Reads (room + 1) 10 expr (.leftParen :: (kinds ++ [.rightParen])) := by
  refine .of_whole (by decide) (by decide) ?_
  intro tokens rest previous shape _
  obtain ⟨opened, others, rfl, opens, othersShape⟩ := List.map_eq_cons_iff.mp shape
  obtain ⟨inside, close, others, rfl, insideShape, closes, nothingLeft⟩ :=
    exists_split_at othersShape
  obtain rfl := List.map_eq_nil_iff.mp nothingLeft
  obtain ⟨first, firstKinds, restKinds, rfl, item, reads⟩ := inner
  obtain ⟨front, back, rfl, frontShape, backShape⟩ := List.map_eq_append_iff.mp insideShape
  obtain ⟨⟨kind, others, rfl, leading⟩, readsFirst⟩ := item
  have ends : endsList (headKind (close :: rest)) = true := by simp [closes]; rfl
  obtain ⟨closesFirst, _⟩ := reads first back (close :: rest) previous rfl backShape ends
  obtain ⟨readFirst, place, sameFirst, ranFirst⟩ :=
    readsFirst.namedExpression front (back ++ close :: rest) opened.span frontShape
      (Nat.le_of_eq closesFirst)
  obtain ⟨_, whole, wholePlace, sameWhole, ranWhole⟩ :=
    reads readFirst back (close :: rest) place sameFirst backShape ends
  have starts : headKind (front ++ (back ++ close :: rest)) = kind := headKind_append frontShape _
  have notUnit : (kind == .rightParen) = false := by
    cases kind <;> first | rfl | simp [leads] at leading
  have notYield : (kind == .keyword "yield") = false :=
    beq_false_of_ne (not_keyword_of_leads leading _)
  have notFor : (headKind (back ++ close :: rest) == .keyword "for") = false := by
    apply beq_false_of_ne
    intro isFor
    simp [isFor, rankBefore, binaryOperator?] at closesFirst
  refine ⟨_, close.span,
    (unlocated_relocated whole (opened.span.cover close.span)).trans sameWhole, ?_⟩
  have openedTaken := Cursor.advance_cons opened (front ++ (back ++ close :: rest)) previous
    (by simp [opens])
  change atom _ _ = _
  rw [List.cons_append, List.append_assoc, List.append_assoc, List.singleton_append,
    atom_of_leftParen opens]
  simp only [parenthesized, run_bind, run_advance, Cursor.current_cons, openedTaken, run_isAt,
    Cursor.current_kind_mk, starts, notUnit, Bool.false_eq_true, if_false, run_isAtKeyword,
    notYield]
  rw [show (Level.above (Level.below room)).namedExpression _ = _ from ranFirst]
  simp only [Cursor.current_kind_mk, notFor, Bool.false_eq_true, if_false, run_bind]
  rw [show tupleRest (Level.above (Level.below room)).expression readFirst _ = _ from ranWhole]
  simp only [expectClosing_cons closes (show TokenKind.rightParen ≠ .endOfFile by decide)]
  cases whole <;> rfl

/-! ### All expressions -/

end Parser

namespace Grammar

open Transpiler.Parser

mutual

/-- Every derivation of an expression is read by the rule for its rank. -/
theorem Expression.reads {room rank : Nat} {expr : Expr} {kinds : List TokenKind} :
    Expression room rank expr kinds → Reads room rank expr kinds
  | .tighter inner => inner.reads.looser inner.rank_le inner.exists_leading
  | .negation inner => inner.reads.negation
  | .binary ofRank notPower first second => .binary ofRank notPower first.reads second.reads
  | .sign notNegation inner => inner.reads.sign notNegation
  | .power first second => .power first.reads first.exists_leading second.reads
  | .call first items => .call first.reads items.read
  | .member first => first.reads.member
  | .name => .name
  | .constant single => .constant single
  | .text nonempty => .text nonempty
  | .bytes nonempty => .bytes nonempty
  | .group inner => .group inner.reads
  | .unit => .unit
  | .list items => .list items.read

theorem Items.read {room : Nat} {expressions : List Expr} {kinds : List TokenKind} :
    Items room expressions kinds → ItemsRead room expressions kinds
  | .none => .none
  | .last first =>
      .last ⟨first.exists_leading, first.reads.whole.expression first.exists_leading⟩
  | .more first others =>
      .more ⟨first.exists_leading, first.reads.whole.expression first.exists_leading⟩ others.read

theorem ExpressionList.reads {room : Nat} {expr : Expr} {kinds : List TokenKind} :
    ExpressionList room expr kinds → ReadsList room expr kinds
  | .single only =>
      ReadsItem.readsList ⟨only.exists_leading, only.reads.whole.expression only.exists_leading⟩
  | .tuple head others =>
      others.read.readsList ⟨head.exists_leading, head.reads.whole.expression head.exists_leading⟩

end

end Grammar
end Transpiler
