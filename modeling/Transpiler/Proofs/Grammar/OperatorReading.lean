import Transpiler.Proofs.Grammar.Derivation
import Transpiler.Proofs.Grammar.Rules
import Transpiler.Proofs.Grammar.Running

/-!
Contract: the expression rules read operators, calls of members and atoms.

Owns: for every production of the grammar without brackets, a run of the rule for its
rank that takes exactly the derived tokens and yields the expression up to
locations, whatever follows, as long as what follows does not continue the
expression.

The binary operators and the calls and members group to the left, while the rules
read them in loops. So a derivation is not matched with a whole run of its rule but
with the part of the run up to some round of its loop: `Reads` says that the rule,
started before the tokens, does what its loop does after them.
-/

namespace Transpiler

open Cursor (headKind)

/-! ### What surrounds an expression -/

/-- Whether an expression of a rank may begin with a token. -/
def leads (rank : Nat) : TokenKind → Bool
  | .ident _ | .int _ | .bigInt _ | .float _ | .str _ | .bytes _ | .trueWord | .falseWord
  | .noneWord | .ellipsis | .leftParen | .leftBracket => true
  | .plus | .minus | .tilde => rank ≤ 7
  | .notWord => rank = 0
  | _ => false

/-- The loosest rank of an expression that may stand right before a token. A looser
expression would go on with the token. -/
def rankBefore : TokenKind → Nat
  | .comma | .rightParen | .rightBracket | .colon | .equals | .augmented _ | .semicolon
  | .newline | .endOfFile => 0
  | .doubleStar => 9
  | .leftParen | .dot => 10
  | kind =>
      match binaryOperator? kind with
      | some operator => operator.precedence + 1
      | none => 11

private theorem leads_of_le {rank looser : Nat} {kind : TokenKind} (le : looser ≤ rank)
    (leading : leads rank kind = true) : leads looser kind = true := by
  cases kind <;>
    first
    | exact leading
    | exact decide_eq_true (Nat.le_trans le (of_decide_eq_true leading))
    | exact decide_eq_true (Nat.le_zero.mp (of_decide_eq_true leading ▸ le))

theorem startsExpression_of_leads {rank : Nat} {kind : TokenKind}
    (leading : leads rank kind = true) : startsExpression kind = true := by
  cases kind <;> first | rfl | exact absurd leading Bool.false_ne_true

theorem not_keyword_of_leads {rank : Nat} {kind : TokenKind} (leading : leads rank kind = true)
    (word : String) : kind ≠ .keyword word := by
  rintro rfl
  simp [leads] at leading

private theorem signOperator?_of_leads {rank : Nat} {kind : TokenKind}
    (leading : leads rank kind = true) (tight : 8 ≤ rank) : signOperator? kind = none := by
  -- Only signs have an operator, and they lead no expression as tight as this one.
  cases kind <;> first | rfl | exact absurd (of_decide_eq_true leading) (by omega)

namespace Grammar

theorem Expression.rank_le {room rank : Nat} {expr : Expr} {kinds : List TokenKind} :
    Expression room rank expr kinds → rank ≤ 10
  | .tighter inner => Nat.le_of_succ_le inner.rank_le
  | .negation _ => Nat.zero_le _
  | .binary ofRank _ _ second => Nat.le_of_succ_le second.rank_le
  | .sign .. | .power .. | .call .. | .member .. => by decide
  | .name | .constant _ | .text _ | .bytes _ | .group _ | .unit | .list _ => Nat.le_refl _

/-- Every expression has a first token, and its rank bounds which one. -/
theorem Expression.exists_leading {room rank : Nat} {expr : Expr} {kinds : List TokenKind} :
    Expression room rank expr kinds →
      ∃ kind rest, kinds = kind :: rest ∧ leads rank kind = true
  | .tighter inner => by
      obtain ⟨kind, rest, shape, leading⟩ := inner.exists_leading
      exact ⟨kind, rest, shape, leads_of_le (Nat.le_succ _) leading⟩
  | .negation _ => ⟨_, _, rfl, rfl⟩
  | .binary _ _ first _ => by
      obtain ⟨kind, rest, shape, leading⟩ := first.exists_leading
      exact ⟨kind, _, by rw [shape, List.cons_append], leading⟩
  | @Expression.sign _ operator _ _ _ notNegation _ => by
      refine ⟨_, _, rfl, ?_⟩
      cases operator <;> simp_all [leads, UnaryOp.sign]
  | .power first _ => by
      obtain ⟨kind, rest, shape, leading⟩ := first.exists_leading
      exact ⟨kind, _, by rw [shape, List.cons_append], leads_of_le (by decide) leading⟩
  | .call first _ => by
      obtain ⟨kind, rest, shape, leading⟩ := first.exists_leading
      exact ⟨kind, _, by rw [shape, List.cons_append], leading⟩
  | .member first => by
      obtain ⟨kind, rest, shape, leading⟩ := first.exists_leading
      exact ⟨kind, _, by rw [shape, List.cons_append], leading⟩
  | .name => ⟨_, _, rfl, rfl⟩
  | @Expression.constant _ value _ _ single => by
      refine ⟨_, _, rfl, ?_⟩
      cases value <;> simp_all [Constant.token?]
      all_goals subst single
      all_goals first | rfl | split <;> rfl
  | @Expression.text _ parts _ nonempty => by
      cases parts with
      | nil => exact absurd rfl nonempty
      | cons part parts => exact ⟨_, _, rfl, rfl⟩
  | @Expression.bytes _ parts _ nonempty => by
      cases parts with
      | nil => exact absurd rfl nonempty
      | cons part parts => exact ⟨_, _, rfl, rfl⟩
  | .group _ => ⟨_, _, rfl, rfl⟩
  | .unit => ⟨_, _, rfl, rfl⟩
  | .list _ => ⟨_, _, rfl, rfl⟩

end Grammar

/-! ### Reading -/

namespace Parser

/-- What the rule for a rank does once it has read an expression of that rank: the rules
with a loop look for more. -/
def Resumes (deeper : Option Level) (rank : Nat) :
    Expr → Cursor → Expr → Cursor → Prop :=
  if 1 ≤ rank ∧ rank ≤ 6 then Repeats (operatorRound (ranked deeper (rank + 1)) rank)
  else if rank = 9 then Repeats (trailer deeper)
  else fun expr cursor last after => last = expr ∧ after = cursor

/-- The loosest rank that may be asked for by the token after an expression of a rank
for which the rule for that rank has not yet stopped. -/
def resumeRank (rank : Nat) : Nat :=
  if 1 ≤ rank ∧ rank ≤ 6 ∨ rank = 9 then rank + 1 else rank

/-- A rule reads an expression of a rank from its token kinds, whatever follows, unless
what follows continues the expression. -/
def ReadsWhole (rule : Parser Expr) (rank : Nat) (expr : Expr) (kinds : List TokenKind) : Prop :=
  ∀ (tokens rest : List Token) (previous : Span), tokens.map (·.kind) = kinds →
    rankBefore (headKind rest) ≤ rank →
      ∃ (read : Expr) (place : Span), read.unlocated = expr.unlocated ∧
        rule ⟨tokens ++ rest, previous⟩ = .ok (read, ⟨rest, place⟩)

/-- The rule for a rank, started before the token kinds of an expression, gets to look
for more after them. -/
def Reads (room rank : Nat) (expr : Expr) (kinds : List TokenKind) : Prop :=
  ∀ (tokens rest : List Token) (previous : Span), tokens.map (·.kind) = kinds →
    rankBefore (headKind rest) ≤ resumeRank rank →
      ∃ (read : Expr) (place : Span), read.unlocated = expr.unlocated ∧
        ∀ last after, Resumes (Level.below room) rank read ⟨rest, place⟩ last after →
          ranked (Level.below room) rank ⟨tokens ++ rest, previous⟩ = .ok (last, after)

private theorem rankBefore_of_operator {kind : TokenKind} {operator : BinaryOp}
    (found : binaryOperator? kind = some operator) :
    rankBefore kind = operator.precedence + 1 := by
  cases kind <;> cases found <;> rfl

/-- No token asks for the rank of powers: what may stand before it is looser or tighter. -/
private theorem rankBefore_le_or_le (kind : TokenKind) :
    rankBefore kind ≤ 7 ∨ 9 ≤ rankBefore kind := by
  cases kind <;>
    first | exact .inl (Nat.le_of_ble_eq_true rfl) | exact .inr (Nat.le_of_ble_eq_true rfl)

private theorem operatorRound_done {operand : Parser Expr} {rank : Nat} {left : Expr}
    {cursor : Cursor} (ends : rankBefore cursor.current.kind ≤ rank) :
    operatorRound operand rank left cursor = .ok (.done left, cursor) := by
  have none : (binaryOperator? cursor.current.kind).filter (·.precedence == rank) = none := by
    cases found : binaryOperator? cursor.current.kind with
    | none => rfl
    | some operator =>
        have := rankBefore_of_operator found
        have different : operator.precedence ≠ rank := by omega
        simp [Option.filter, different]
  rw [operatorRound, run_bind_of_ok (run_currentKind cursor), none]
  rfl

private theorem trailer_done {deeper : Option Level} {value : Expr} {cursor : Cursor}
    (ends : rankBefore cursor.current.kind ≤ 9) :
    trailer deeper value cursor = .ok (.done value, cursor) := by
  rw [trailer, run_bind_of_ok (run_currentKind cursor)]
  generalize cursor.current.kind = kind at ends ⊢
  cases kind with
  | leftParen | dot | leftBracket => simp [rankBefore, binaryOperator?] at ends
  | _ => rfl

/-- Where nothing continues an expression, the rule for its rank stops. -/
theorem Resumes.stop {deeper : Option Level} {rank : Nat} {expr : Expr} {cursor : Cursor}
    (ends : rankBefore cursor.current.kind ≤ rank) :
    Resumes deeper rank expr cursor expr cursor := by
  unfold Resumes
  split
  · exact .done (operatorRound_done ends)
  · split
    · rename_i isPrimary
      subst isPrimary
      exact .done (trailer_done ends)
    · exact ⟨rfl, rfl⟩

theorem Reads.whole {room rank : Nat} {expr : Expr} {kinds : List TokenKind}
    (reads : Reads room rank expr kinds) :
    ReadsWhole (ranked (Level.below room) rank) rank expr kinds := by
  intro tokens rest previous shape ends
  have room_for_more : rank ≤ resumeRank rank := by
    unfold resumeRank
    split <;> omega
  obtain ⟨read, place, same, resumed⟩ :=
    reads tokens rest previous shape (Nat.le_trans ends room_for_more)
  refine ⟨read, place, same, resumed read ⟨rest, place⟩ (.stop ?_)⟩
  rwa [Cursor.current_kind_mk]

/-- Away from the loops, reading is reading as a whole. -/
theorem Reads.of_whole {room rank : Nat} {expr : Expr} {kinds : List TokenKind}
    (low : ¬(1 ≤ rank ∧ rank ≤ 6)) (noTrailers : rank ≠ 9)
    (reads : ReadsWhole (ranked (Level.below room) rank) rank expr kinds) :
    Reads room rank expr kinds := by
  intro tokens rest previous shape ends
  rw [resumeRank, if_neg (by omega)] at ends
  obtain ⟨read, place, same, ran⟩ := reads tokens rest previous shape ends
  refine ⟨read, place, same, ?_⟩
  intro last after resumed
  rw [Resumes, if_neg low, if_neg noTrailers] at resumed
  obtain ⟨rfl, rfl⟩ := resumed
  exact ran

/-- Token kinds around a given one come from tokens around one of that kind. -/
theorem exists_split_at {tokens : List Token} {left right : List TokenKind} {kind : TokenKind}
    (shape : tokens.map (·.kind) = left ++ kind :: right) :
    ∃ before token after, tokens = before ++ token :: after ∧
      before.map (·.kind) = left ∧ token.kind = kind ∧ after.map (·.kind) = right := by
  obtain ⟨before, others, rfl, beforeShape, othersShape⟩ := List.map_eq_append_iff.mp shape
  obtain ⟨token, after, rfl, tokenShape, afterShape⟩ := List.map_eq_cons_iff.mp othersShape
  exact ⟨before, token, after, rfl, beforeShape, tokenShape, afterShape⟩

theorem headKind_append {tokens : List Token} {kind : TokenKind} {kinds : List TokenKind}
    (shape : tokens.map (·.kind) = kind :: kinds) (rest : List Token) :
    headKind (tokens ++ rest) = kind := by
  obtain ⟨token, others, rfl, tokenShape, _⟩ := List.map_eq_cons_iff.mp shape
  simpa using tokenShape

/-! ### From one rank to the next looser one -/

section Looser

variable {deeper : Option Level} {expr : Expr} {kinds : List TokenKind}

theorem ReadsWhole.power (reads : ReadsWhole (primary deeper) 9 expr kinds)
    (leading : ∃ kind rest, kinds = kind :: rest ∧ leads 9 kind = true) :
    ReadsWhole (power deeper) 8 expr kinds := by
  intro tokens rest previous shape ends
  obtain ⟨kind, others, rfl, leading⟩ := leading
  obtain ⟨read, place, same, ran⟩ := reads tokens rest previous shape (Nat.le_succ_of_le ends)
  have notAwait : (headKind (tokens ++ rest) == .keyword "await") = false := by
    rw [headKind_append shape]
    simpa using not_keyword_of_leads leading "await"
  have noExponent : headKind rest ≠ .doubleStar := by
    intro star
    simp [star, rankBefore] at ends
  refine ⟨read, place, same, ?_⟩
  simp [Parser.power, run_bind, run_isAtKeyword, notAwait, ran, run_eat, noExponent, run_pure]

theorem ReadsWhole.factor (reads : ReadsWhole (Parser.power deeper) 8 expr kinds)
    (leading : ∃ kind rest, kinds = kind :: rest ∧ leads 8 kind = true) :
    ReadsWhole (factor deeper) 7 expr kinds := by
  intro tokens rest previous shape ends
  obtain ⟨kind, others, rfl, leading⟩ := leading
  obtain ⟨read, place, same, ran⟩ := reads tokens rest previous shape (Nat.le_succ_of_le ends)
  refine ⟨read, place, same, ?_⟩
  rw [Parser.factor, run_bind_of_ok (run_currentKind _), Cursor.current_kind_mk,
    headKind_append shape, signOperator?_of_leads leading (Nat.le_refl _)]
  exact ran

/-- A single operand of a chain is read as the operand itself. -/
private theorem chain_single {kindName : String} {separator : Parser Bool} {operand : Parser Expr}
    {cursor after : Cursor} {read : Expr} (ran : operand cursor = .ok (read, after))
    (alone : separator after = .ok (false, after)) :
    chain kindName separator operand cursor = .ok (read, after) := by
  rw [chain, run_bind_of_ok ran, run_bind_of_ok alone]
  rfl

private theorem comparisonOperator_none {cursor : Cursor}
    (ends : rankBefore cursor.current.kind ≤ 0) :
    comparisonOperator cursor = .ok (false, cursor) := by
  rw [comparisonOperator, run_bind_of_ok (run_currentKind cursor)]
  generalize cursor.current.kind = kind at ends ⊢
  cases kind with
  | comparison | keyword | notWord => simp [rankBefore, binaryOperator?] at ends
  | _ => rfl

private theorem eatKeyword_none {word : String} {cursor : Cursor}
    (ends : rankBefore cursor.current.kind ≤ 0) :
    eatKeyword word cursor = .ok (false, cursor) := by
  have notKeyword : cursor.current.kind ≠ .keyword word := by
    intro keyword
    simp [keyword, rankBefore, binaryOperator?] at ends
  rw [eatKeyword, run_eat, if_neg notKeyword]

theorem ReadsWhole.inversion (reads : ReadsWhole (binary deeper) 1 expr kinds)
    (leading : ∃ kind rest, kinds = kind :: rest ∧ leads 1 kind = true) :
    ReadsWhole (inversion deeper) 0 expr kinds := by
  intro tokens rest previous shape ends
  obtain ⟨kind, others, rfl, leading⟩ := leading
  obtain ⟨read, place, same, ran⟩ := reads tokens rest previous shape (Nat.le_succ_of_le ends)
  have notNegated : (headKind (tokens ++ rest) == .notWord) = false := by
    rw [headKind_append shape]
    cases kind <;> first | rfl | exact absurd leading Bool.false_ne_true
  refine ⟨read, place, same, ?_⟩
  rw [Parser.inversion, run_bind_of_ok (run_isAt _ _), Cursor.current_kind_mk, notNegated]
  exact chain_single ran (comparisonOperator_none (by rwa [Cursor.current_kind_mk]))

/-- Without `and`, `or` and `if`, a whole expression is one of rank zero. -/
theorem ReadsWhole.expression (reads : ReadsWhole (Parser.inversion deeper) 0 expr kinds)
    (leading : ∃ kind rest, kinds = kind :: rest ∧ leads 0 kind = true) :
    ReadsWhole (expression deeper) 0 expr kinds := by
  intro tokens rest previous shape ends
  obtain ⟨kind, others, rfl, leading⟩ := leading
  obtain ⟨read, place, same, ran⟩ := reads tokens rest previous shape ends
  have stops : rankBefore (⟨rest, place⟩ : Cursor).current.kind ≤ 0 := by
    rwa [Cursor.current_kind_mk]
  have conjoined : conjunction deeper ⟨tokens ++ rest, previous⟩ = .ok (read, ⟨rest, place⟩) :=
    chain_single ran (eatKeyword_none stops)
  have disjoined : disjunction deeper ⟨tokens ++ rest, previous⟩ = .ok (read, ⟨rest, place⟩) :=
    chain_single conjoined (eatKeyword_none stops)
  have notLambda : (headKind (tokens ++ rest) == .keyword "lambda") = false := by
    rw [headKind_append shape]
    simpa using not_keyword_of_leads leading "lambda"
  refine ⟨read, place, same, ?_⟩
  simp only [Parser.expression, run_bind, run_isAtKeyword, Cursor.current_kind_mk, notLambda,
    disjoined, eatKeyword_none stops, Bool.false_eq_true, if_false, run_pure]

theorem ReadsWhole.namedExpression (reads : ReadsWhole (Parser.expression deeper) 0 expr kinds) :
    ReadsWhole (namedExpression deeper) 0 expr kinds := by
  intro tokens rest previous shape ends
  obtain ⟨read, place, same, ran⟩ := reads tokens rest previous shape ends
  have notBound : (headKind rest == .unsupported ":=") = false := by
    apply beq_false_of_ne
    intro walrus
    simp [walrus, rankBefore, binaryOperator?] at ends
  refine ⟨read, place, same, ?_⟩
  simp [Parser.namedExpression, run_bind, ran, run_isAt, notBound, run_pure]

end Looser

/-- An operand of the next tighter rank begins a loop over operators. -/
theorem Reads.operand {room rank : Nat} {expr : Expr} {kinds : List TokenKind}
    (low : 1 ≤ rank) (high : rank ≤ 6)
    (reads : ReadsWhole (ranked (Level.below room) (rank + 1)) (rank + 1) expr kinds) :
    Reads room rank expr kinds := by
  intro tokens rest previous shape ends
  rw [resumeRank, if_pos (by omega)] at ends
  obtain ⟨read, place, same, ran⟩ := reads tokens rest previous shape ends
  refine ⟨read, place, same, ?_⟩
  intro last after resumed
  rw [Resumes, if_pos ⟨low, high⟩] at resumed
  rw [ranked_operators _ low high, binaryLevel_eq, run_bind_of_ok ran]
  exact iterate_of_repeats resumed

/-- An atom begins a loop over calls and members. -/
theorem Reads.head {room : Nat} {expr : Expr} {kinds : List TokenKind}
    (reads : ReadsWhole (atom (Level.below room)) 10 expr kinds) :
    Reads room 9 expr kinds := by
  intro tokens rest previous shape ends
  obtain ⟨read, place, same, ran⟩ := reads tokens rest previous shape ends
  refine ⟨read, place, same, ?_⟩
  intro last after resumed
  change primary _ _ = _
  rw [primary_eq, run_bind_of_ok ran]
  exact iterate_of_repeats resumed

/-- What is read at a rank is read at the next looser one. -/
theorem Reads.looser {room rank : Nat} {expr : Expr} {kinds : List TokenKind}
    (bound : rank + 1 ≤ 10)
    (leading : ∃ kind rest, kinds = kind :: rest ∧ leads (rank + 1) kind = true)
    (reads : Reads room (rank + 1) expr kinds) : Reads room rank expr kinds := by
  have whole := reads.whole
  have cases : rank = 0 ∨ (1 ≤ rank ∧ rank ≤ 6) ∨ rank = 7 ∨ rank = 8 ∨ rank = 9 := by omega
  rcases cases with rfl | ⟨low, high⟩ | rfl | rfl | rfl
  · exact .of_whole (by decide) (by decide) (ReadsWhole.inversion whole leading)
  · exact .operand low high whole
  · exact .of_whole (by decide) (by decide) (ReadsWhole.factor whole leading)
  · exact .of_whole (by decide) (by decide) (ReadsWhole.power whole leading)
  · exact .head whole

/-! ### Operators, calls and members -/

theorem Reads.negation {room : Nat} {operand : Expr} {kinds : List TokenKind} {span : Span}
    (reads : Reads room 0 operand kinds) :
    Reads (room + 1) 0 (.unary .not operand span) (.notWord :: kinds) := by
  refine .of_whole (by decide) (by decide) ?_
  intro tokens rest previous shape ends
  obtain ⟨token, others, rfl, tokenShape, othersShape⟩ := List.map_eq_cons_iff.mp shape
  obtain ⟨read, place, same, ran⟩ := reads.whole others rest token.span othersShape ends
  have inner : nested (Level.below (room + 1)) (·.inversion) ⟨others ++ rest, token.span⟩ =
      .ok (read, ⟨rest, place⟩) := by
    rw [nested_below]
    exact ran
  refine ⟨.unary .not read (token.span.cover read.span), place, ?_, ?_⟩
  · simp [Expr.unlocated, same]
  · have taken := Cursor.advance_cons token (others ++ rest) previous (by simp [tokenShape])
    change Parser.inversion _ _ = _
    simp only [Parser.inversion, run_bind, run_isAt, List.cons_append, Cursor.current_cons,
      tokenShape, beq_self_eq_true, if_true, run_advance, taken, inner, run_pure]

private theorem signOperator?_sign {operator : UnaryOp} (notNegation : operator ≠ .not) :
    signOperator? operator.sign = some operator := by
  cases operator <;> first | rfl | exact absurd rfl notNegation

theorem Reads.sign {room : Nat} {operator : UnaryOp} {operand : Expr} {kinds : List TokenKind}
    {span : Span} (notNegation : operator ≠ .not) (reads : Reads room 7 operand kinds) :
    Reads (room + 1) 7 (.unary operator operand span) (operator.sign :: kinds) := by
  refine .of_whole (by decide) (by decide) ?_
  intro tokens rest previous shape ends
  obtain ⟨token, others, rfl, tokenShape, othersShape⟩ := List.map_eq_cons_iff.mp shape
  obtain ⟨read, place, same, ran⟩ := reads.whole others rest token.span othersShape ends
  have inner : nested (Level.below (room + 1)) (·.factor) ⟨others ++ rest, token.span⟩ =
      .ok (read, ⟨rest, place⟩) := by
    rw [nested_below]
    exact ran
  have notEnd : token.kind ≠ .endOfFile := by
    rw [tokenShape]
    cases operator <;> simp [UnaryOp.sign]
  refine ⟨.unary operator read (token.span.cover read.span), place, ?_, ?_⟩
  · simp [Expr.unlocated, same]
  · have taken := Cursor.advance_cons token (others ++ rest) previous notEnd
    change Parser.factor _ _ = _
    simp only [Parser.factor, run_bind, run_currentKind, List.cons_append, Cursor.current_cons,
      tokenShape, signOperator?_sign notNegation, run_advance, taken, inner, run_pure]

private theorem binaryOperator?_sign {operator : BinaryOp} (notPower : operator ≠ .pow) :
    binaryOperator? operator.sign = some operator := by
  cases operator <;> first | rfl | exact absurd rfl notPower

private theorem precedence_bounds {operator : BinaryOp} (notPower : operator ≠ .pow) :
    1 ≤ operator.precedence ∧ operator.precedence ≤ 6 := by
  cases operator <;> first | decide | exact absurd rfl notPower

private theorem operatorRound_more {operand : Parser Expr} {operator : BinaryOp} {left right : Expr}
    {token : Token} {rest : List Token} {previous : Span} {after : Cursor}
    (tokenShape : token.kind = operator.sign) (notPower : operator ≠ .pow)
    (ran : operand ⟨rest, token.span⟩ = .ok (right, after)) :
    operatorRound operand operator.precedence left ⟨token :: rest, previous⟩ =
      .ok (.more (.binary left operator right (left.span.cover right.span)), after) := by
  have notEnd : token.kind ≠ .endOfFile := by
    rw [tokenShape]
    cases operator <;> simp [BinaryOp.sign]
  have taken := Cursor.advance_cons _ rest previous notEnd
  have found := binaryOperator?_sign notPower
  simp only [operatorRound, run_bind, run_currentKind, Cursor.current_cons, tokenShape, found,
    Option.filter, beq_self_eq_true, if_true, run_advance, taken, ran, run_pure]

theorem Reads.binary {room rank : Nat} {operator : BinaryOp} {left right : Expr}
    {leftKinds rightKinds : List TokenKind} {span : Span}
    (ofRank : operator.precedence = rank) (notPower : operator ≠ .pow)
    (first : Reads room rank left leftKinds) (second : Reads room (rank + 1) right rightKinds) :
    Reads room rank (.binary left operator right span)
      (leftKinds ++ operator.sign :: rightKinds) := by
  intro tokens rest previous shape ends
  subst ofRank
  have bounds := precedence_bounds notPower
  obtain ⟨before, token, after, rfl, beforeShape, tokenShape, afterShape⟩ := exists_split_at shape
  have beforeOperator : rankBefore token.kind ≤ resumeRank operator.precedence := by
    have rank : rankBefore token.kind = resumeRank operator.precedence := by
      rw [tokenShape, rankBefore_of_operator (binaryOperator?_sign notPower), resumeRank,
        if_pos (by omega)]
    exact Nat.le_of_eq rank
  obtain ⟨readLeft, leftPlace, sameLeft, resumedLeft⟩ :=
    first before (token :: (after ++ rest)) previous beforeShape beforeOperator
  rw [resumeRank, if_pos (by omega)] at ends
  obtain ⟨readRight, rightPlace, sameRight, ranRight⟩ :=
    second.whole after rest token.span afterShape ends
  refine ⟨.binary readLeft operator readRight (readLeft.span.cover readRight.span), rightPlace,
    ?_, ?_⟩
  · simp [Expr.unlocated, sameLeft, sameRight]
  · intro last stop resumed
    rw [List.append_assoc, List.cons_append]
    apply resumedLeft
    -- The round that reads the operator and its right operand goes before the others.
    rw [Resumes, if_pos bounds] at resumed ⊢
    refine .more (operatorRound_more tokenShape notPower ranRight) ?_ resumed
    simp only [List.length_cons, List.length_append]
    omega

theorem Reads.power {room : Nat} {base exponent : Expr}
    {baseKinds exponentKinds : List TokenKind} {span : Span}
    (first : Reads (room + 1) 9 base baseKinds)
    (leading : ∃ kind rest, baseKinds = kind :: rest ∧ leads 9 kind = true)
    (second : Reads room 7 exponent exponentKinds) :
    Reads (room + 1) 8 (.binary base .pow exponent span)
      (baseKinds ++ .doubleStar :: exponentKinds) := by
  refine .of_whole (by decide) (by decide) ?_
  intro tokens rest previous shape ends
  obtain ⟨kind, others, rfl, leading⟩ := leading
  obtain ⟨before, token, after, rfl, beforeShape, tokenShape, afterShape⟩ := exists_split_at shape
  obtain ⟨readBase, basePlace, sameBase, ranBase⟩ :=
    first.whole before (token :: (after ++ rest)) previous beforeShape
      (by simp [tokenShape, rankBefore])
  have tight : rankBefore (headKind rest) ≤ 7 := by
    rcases rankBefore_le_or_le (headKind rest) with loose | tighter
    · exact loose
    · exact absurd (Nat.le_trans tighter ends) (by decide)
  obtain ⟨readExponent, place, sameExponent, ranExponent⟩ :=
    second.whole after rest token.span afterShape tight
  have notAwait : (headKind (before ++ token :: (after ++ rest)) == .keyword "await") = false := by
    rw [headKind_append beforeShape]
    simpa using not_keyword_of_leads leading "await"
  have inner : nested (Level.below (room + 1)) (·.factor) ⟨after ++ rest, token.span⟩ =
      .ok (readExponent, ⟨rest, place⟩) := by
    rw [nested_below]
    exact ranExponent
  refine ⟨.binary readBase .pow readExponent (readBase.span.cover readExponent.span), place, ?_, ?_⟩
  · simp [Expr.unlocated, sameBase, sameExponent]
  · have taken := Cursor.advance_cons token (after ++ rest) basePlace (by simp [tokenShape])
    change Parser.primary _ _ = _ at ranBase
    change Parser.power _ _ = _
    simp only [Parser.power, run_bind, run_isAtKeyword, List.append_assoc, List.cons_append,
      Cursor.current_kind_mk, notAwait, Bool.false_eq_true, if_false, ranBase, run_eat,
      Cursor.headKind_cons, tokenShape, if_true, taken, inner, run_pure]

theorem Reads.member {room : Nat} {value : Expr} {kinds : List TokenKind} {memberName : String}
    {span : Span} (first : Reads room 9 value kinds) :
    Reads room 9 (.member value memberName span) (kinds ++ [.dot, .ident memberName]) := by
  intro tokens rest previous shape _
  obtain ⟨before, dot, others, rfl, beforeShape, dotShape, othersShape⟩ := exists_split_at shape
  obtain ⟨name, others, rfl, nameShape, othersShape⟩ := List.map_eq_cons_iff.mp othersShape
  obtain rfl := List.map_eq_nil_iff.mp othersShape
  obtain ⟨read, place, same, resumed⟩ :=
    first before (dot :: name :: rest) previous beforeShape
      (by simp [dotShape, rankBefore, resumeRank])
  refine ⟨.member read memberName (read.span.cover name.span), name.span, ?_, ?_⟩
  · simp [Expr.unlocated, same]
  · intro last stop others
    rw [List.append_assoc]
    apply resumed
    have dotTaken := Cursor.advance_cons dot (name :: rest) place (by simp [dotShape])
    have nameTaken := Cursor.advance_cons name rest dot.span (by simp [nameShape])
    have ran : trailer (Level.below room) read ⟨dot :: name :: rest, place⟩ =
        .ok (.more (.member read memberName (read.span.cover name.span)), ⟨rest, name.span⟩) := by
      simp only [trailer, run_bind, run_currentKind, Cursor.current_cons, dotShape, run_advance,
        dotTaken, nameShape, nameTaken, run_pure]
    refine .more ran ?_ others
    simp only [List.length_cons]
    omega

/-! ### Atoms -/

/-- A token that forms an atom by itself is read as that atom. -/
theorem Reads.simple {room : Nat} {expr : Expr} {kind : TokenKind}
    (forms : ∀ span, ∃ read, simpleAtom? ⟨kind, span⟩ = some read ∧ read.unlocated = expr.unlocated)
    (notEnd : kind ≠ .endOfFile) : Reads room 10 expr [kind] := by
  refine .of_whole (by decide) (by decide) ?_
  intro tokens rest previous shape _
  obtain ⟨⟨_, span⟩, others, rfl, rfl, othersShape⟩ := List.map_eq_cons_iff.mp shape
  obtain rfl := List.map_eq_nil_iff.mp othersShape
  obtain ⟨read, found, same⟩ := forms span
  refine ⟨read, span, same, ?_⟩
  have taken := Cursor.advance_cons _ rest previous notEnd
  change atom _ _ = _
  simp only [atom, run_bind, run_current, List.cons_append, List.nil_append, Cursor.current_cons,
    found, run_advance, taken, run_pure]

theorem Reads.name {room : Nat} {identifier : String} {span : Span} :
    Reads room 10 (.name identifier span) [.ident identifier] :=
  .simple (fun place => ⟨.name identifier place, rfl, rfl⟩) (by simp)

theorem Reads.constant {room : Nat} {value : Constant} {kind : TokenKind} {span : Span}
    (single : value.token? = some kind) : Reads room 10 (.constant value span) [kind] := by
  cases value with
  | str | bytes => cases single
  | bool value =>
      cases value <;> cases single <;>
        exact .simple (fun place => ⟨.constant _ place, rfl, rfl⟩) (by simp)
  | _ =>
      cases single
      exact .simple (fun place => ⟨.constant _ place, rfl, rfl⟩) (by simp)

/-- Tokens of string literals are read together up to the first token that is none. -/
theorem Reads.literals {room : Nat} {value : Constant} {kinds : List TokenKind} {span : Span}
    (nonempty : kinds ≠ [])
    (literal : ∀ token : Token, token.kind ∈ kinds → isStringToken token = true)
    (joined : ∀ parts place, parts.map (·.kind) = kinds →
      joinStrings parts place = .ok (.constant value place)) :
    Reads room 10 (.constant value span) kinds := by
  refine .of_whole (by decide) (by decide) ?_
  intro tokens rest previous shape ends
  have allLiterals : ∀ token ∈ tokens, isStringToken token = true := by
    intro token member
    apply literal
    rw [← shape]
    exact List.mem_map_of_mem member
  have stops : rest.takeWhile isStringToken = [] := by
    cases rest with
    | nil => rfl
    | cons next others =>
        have notLiteral : isStringToken next = false := by
          obtain ⟨kind, place⟩ := next
          cases kind <;>
            first | rfl | exact absurd ends (Nat.not_le_of_gt (Nat.le_of_ble_eq_true rfl))
        simp [notLiteral]
  have taken : (tokens ++ rest).takeWhile isStringToken = tokens := by
    rw [List.takeWhile_append_of_pos allLiterals, stops, List.append_nil]
  obtain ⟨first, others, rfl⟩ : ∃ first others, tokens = first :: others := by
    cases tokens with
    | nil => exact absurd shape.symm nonempty
    | cons first others => exact ⟨first, others, rfl⟩
  have isLiteral := allLiterals first (by simp)
  have notSimple : simpleAtom? first = none := by
    obtain ⟨kind, place⟩ := first
    cases kind <;> first | rfl | exact absurd isLiteral Bool.false_ne_true
  let place := (((first :: others).getLast?.map (·.span)).getD previous)
  have skipped : (⟨(first :: others) ++ rest, previous⟩ : Cursor).skip (first :: others).length =
      ⟨rest, place⟩ := by
    simp [Cursor.skip, place]
  refine ⟨.constant value (first.span.cover place), place, rfl, ?_⟩
  change atom _ _ = _
  rw [atom, run_bind_of_ok (run_current _), List.cons_append, Cursor.current_cons, notSimple]
  simp only [isLiteral, if_true]
  rw [List.cons_append] at taken skipped
  simp only [strings, run_bind, run_currentSpan, run_get, Cursor.current_cons, taken, run_set,
    skipped, run_previousSpan, run_liftM, joined _ _ shape, Except.map]

theorem Reads.text {room : Nat} {parts : List String} {span : Span} (nonempty : parts ≠ []) :
    Reads room 10 (.constant (.str (String.join parts)) span) (parts.map .str) := by
  refine .literals (by simpa using nonempty) ?_ (fun _ place => joinStrings_texts place)
  intro token member
  obtain ⟨text, _, isText⟩ := List.mem_map.mp member
  simp [isStringToken, ← isText]

theorem Reads.bytes {room : Nat} {parts : List (List UInt8)} {span : Span} (nonempty : parts ≠ []) :
    Reads room 10 (.constant (.bytes parts.flatten) span) (parts.map .bytes) := by
  refine .literals (by simpa using nonempty) ?_ (fun _ place => joinStrings_contents place nonempty)
  intro token member
  obtain ⟨content, _, isContent⟩ := List.mem_map.mp member
  simp [isStringToken, ← isContent]

end Parser
end Transpiler
