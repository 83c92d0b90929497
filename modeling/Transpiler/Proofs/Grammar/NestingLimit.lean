import Transpiler.Proofs.Grammar.CountedRules
import Transpiler.Proofs.Grammar.StatementComposition

/-!
Contract: the nesting limit bounds the rules and the trees.

Owns: that the rules with a counter of nesting levels do what the rules of the level for its value
do, leave the counter as they found it whether they succeed or fail, and never raise it above the
limit (`Agrees`, with one law for each step); that expressions of a level have at most its rank
(`Expr.rank`); and both for whole modules (`nesting_bounded`).

Since the rules at the bottom of an unrolled recursion may be any, the agreement also says that the
counter stops the recursion before it gets there.
-/

namespace Transpiler

namespace Counting

open Transpiler.Parser (Round)

variable {α β σ : Type}

/-! ### Rules that count and rules that do not -/

/-- Entered with the given value of the counter, the rule that counts does what the other one does,
leaves the counter as it was, and keeps it within the limit. -/
def Agrees (nesting : Nat) (counted : Counting α) (rule : Parser α) : Prop :=
  ∀ state : Descent, state.nesting = nesting → state.deepest ≤ Level.nestingLimit →
    (counted state).2.nesting = nesting ∧ (counted state).2.deepest ≤ Level.nestingLimit ∧
      rule state.cursor = (counted state).1.map fun value => (value, (counted state).2.cursor)

section Steps

variable {nesting : Nat}

theorem agrees_pure (value : α) : Agrees nesting (pure value : Counting α) (pure value) :=
  fun _ entered within => ⟨entered, within, rfl⟩

theorem agrees_lift (step : Parser α) : Agrees nesting (liftM step : Counting α) step := by
  intro state entered within
  cases ran : step state.cursor with
  | ok pair =>
      rw [run_lift_of_ok ran]
      exact ⟨entered, within, rfl⟩
  | error error =>
      rw [run_lift_of_error ran]
      exact ⟨entered, within, rfl⟩

theorem agrees_bind {first : Counting α} {next : α → Counting β} {rule : Parser α}
    {continuation : α → Parser β} (agrees : Agrees nesting first rule)
    (continues : ∀ value, Agrees nesting (next value) (continuation value)) :
    Agrees nesting (first >>= next) (rule >>= continuation) := by
  intro state entered within
  obtain ⟨kept, stayed, same⟩ := agrees state entered within
  rw [Parser.run_bind, same]
  cases ran : first state with
  | mk outcome between =>
      rw [ran] at kept stayed
      cases outcome with
      | ok value =>
          rw [run_bind_of_ok ran]
          exact continues value between kept stayed
      | error error =>
          rw [run_bind_of_error ran]
          exact ⟨kept, stayed, rfl⟩

theorem agrees_ite {condition : Prop} [Decidable condition] {first second : Counting α}
    {rule other : Parser α} (whenTrue : Agrees nesting first rule)
    (whenFalse : Agrees nesting second other) :
    Agrees nesting (if condition then first else second) (if condition then rule else other) := by
  split
  · exact whenTrue
  · exact whenFalse

theorem agrees_iterate {counted : σ → Counting (Round σ)} {round : σ → Parser (Round σ)}
    (rounds : ∀ state, Agrees nesting (counted state) (round state)) (initial : σ) :
    Agrees nesting (iterate counted initial) (Parser.iterate round initial) := by
  have bounded (bound : List Token) : ∀ state,
      Agrees nesting (iterateOver counted bound state) (Parser.iterateOver round bound state) := by
    induction bound with
    | nil =>
        intro state
        apply agrees_bind (rounds state)
        intro outcome
        cases outcome <;> exact agrees_pure _
    | cons token bound inductionHypothesis =>
        intro state
        apply agrees_bind (rounds state)
        intro outcome
        cases outcome with
        | more next => exact inductionHypothesis next
        | done last => exact agrees_pure last
  apply agrees_bind (agrees_lift get)
  intro cursor
  exact bounded cursor.remaining initial

end Steps

/-- The rules that deeper constructs are entered by agree. -/
structure RulesAgree (nesting : Nat) (rules : Rules) (level : Level) : Prop where
  expression : Agrees nesting rules.expression level.expression
  namedExpression : Agrees nesting rules.namedExpression level.namedExpression
  inversion : Agrees nesting rules.inversion level.inversion
  factor : Agrees nesting rules.factor level.factor
  primary : Agrees nesting rules.primary level.primary

/-- The level below agrees for the next value of the counter; there is none at the limit. -/
inductive BelowAgrees (rules : Rules) : Nat → Option Level → Prop
  | atLimit : BelowAgrees rules Level.nestingLimit none
  | level {nesting : Nat} {level : Level} (room : nesting < Level.nestingLimit)
      (agrees : RulesAgree (nesting + 1) rules level) : BelowAgrees rules nesting (some level)

theorem agrees_nested {nesting : Nat} {rules : Rules} {deeper : Option Level}
    (below : BelowAgrees rules nesting deeper) {counted : Counting α} {rule : Level → Parser α}
    (each : ∀ level, RulesAgree (nesting + 1) rules level →
      Agrees (nesting + 1) counted (rule level)) :
    Agrees nesting (nested counted) (Parser.nested deeper rule) := by
  intro state entered within
  unfold nested
  cases below with
  | atLimit =>
      rw [if_pos (by omega)]
      exact agrees_lift (Parser.failHere .nestingTooDeep) state entered within
  | level room agrees =>
      rw [if_neg (by omega)]
      obtain ⟨kept, stayed, same⟩ := each _ agrees
        { state with
          nesting := state.nesting + 1
          deepest := max state.deepest (state.nesting + 1) }
        (by rw [entered]) (max_le within (by omega))
      exact ⟨congrArg (· - 1) kept, stayed, same⟩

section Rules

variable {nesting : Nat}

/-! ### Expressions between commas -/

theorem agrees_tupleRest {counted : Counting Expr} {rule : Parser Expr}
    (agrees : Agrees nesting counted rule) (first : Expr) :
    Agrees nesting (tupleRest counted first) (Parser.tupleRest rule first) := by
  rw [Parser.tupleRest_eq]
  apply agrees_bind (agrees_lift _)
  intro atComma
  apply agrees_ite (agrees_pure _)
  apply agrees_bind (agrees_iterate ?_ _)
  · intro elements
    exact agrees_bind (agrees_lift _) fun last => agrees_pure _
  · intro elements
    apply agrees_bind (agrees_lift _)
    intro eaten
    apply agrees_ite (agrees_pure _)
    apply agrees_bind (agrees_lift _)
    intro kind
    apply agrees_ite
    · exact agrees_bind agrees fun element => agrees_pure _
    · exact agrees_pure _

theorem agrees_yieldExpression {counted : Counting Expr} {rule : Parser Expr}
    (agrees : Agrees nesting counted rule) :
    Agrees nesting (yieldExpression counted) (Parser.yieldExpression rule) := by
  apply agrees_bind (agrees_lift _)
  intro start
  apply agrees_bind (agrees_lift _)
  intro eaten
  apply agrees_ite
  · exact agrees_bind agrees fun _ => agrees_lift _
  · apply agrees_bind (agrees_lift _)
    intro kind
    apply agrees_ite
    · apply agrees_bind agrees
      intro first
      exact agrees_bind (agrees_tupleRest agrees first) fun _ => agrees_lift _
    · exact agrees_lift _

private theorem agrees_expressionList {counted : Counting Expr} {rule : Parser Expr}
    (agrees : Agrees nesting counted rule) :
    Agrees nesting (expressionList counted) (Parser.expressionList rule) := by
  apply agrees_bind (agrees_lift _)
  intro atYield
  apply agrees_ite (agrees_yieldExpression agrees)
  exact agrees_bind agrees fun first => agrees_tupleRest agrees first

/-! ### Brackets -/

private theorem agrees_parenthesized {rules : Rules} {level : Level}
    (agrees : RulesAgree nesting rules level) :
    Agrees nesting (parenthesized rules) (Parser.parenthesized level) := by
  apply agrees_bind (agrees_lift _)
  intro opened
  apply agrees_bind (agrees_lift _)
  intro atClose
  apply agrees_ite
  · exact agrees_bind (agrees_lift _) fun closed => agrees_pure _
  apply agrees_bind (agrees_lift _)
  intro atYield
  apply agrees_ite
  · apply agrees_bind (agrees_yieldExpression agrees.expression)
    intro inner
    exact agrees_bind (agrees_lift _) fun closed => agrees_pure _
  apply agrees_bind agrees.namedExpression
  intro first
  apply agrees_bind (agrees_lift _)
  intro atFor
  apply agrees_ite
  · apply agrees_bind (agrees_lift _)
    intro contents
    exact agrees_bind (agrees_lift _) fun closed => agrees_pure _
  · apply agrees_bind (agrees_tupleRest agrees.expression first)
    intro inner
    apply agrees_bind (agrees_lift _)
    intro closed
    cases inner <;> exact agrees_pure _

private theorem agrees_listDisplay {rules : Rules} {level : Level}
    (agrees : RulesAgree nesting rules level) :
    Agrees nesting (listDisplay rules) (Parser.listDisplay level) := by
  rw [Parser.listDisplay_eq]
  apply agrees_bind (agrees_lift _)
  intro opened
  apply agrees_bind (agrees_iterate ?_ _)
  · rintro ⟨elements, isComprehension⟩
    apply agrees_ite
    · apply agrees_bind (agrees_lift _)
      intro contents
      exact agrees_bind (agrees_lift _) fun closed => agrees_pure _
    · exact agrees_bind (agrees_lift _) fun closed => agrees_pure _
  · intro state
    apply agrees_bind (agrees_lift _)
    intro kind
    apply agrees_ite (agrees_pure _)
    apply agrees_bind agrees.namedExpression
    intro element
    apply agrees_bind (agrees_lift _)
    intro atFor
    apply agrees_ite (agrees_pure _)
    apply agrees_bind (agrees_lift _)
    intro eaten
    exact agrees_ite (agrees_pure _) (agrees_pure _)

private theorem agrees_callArguments {rules : Rules} {level : Level}
    (agrees : RulesAgree nesting rules level) (opened : Span) :
    Agrees nesting (callArguments opened rules) (Parser.callArguments opened level) := by
  rw [Parser.callArguments_eq]
  apply agrees_bind (agrees_iterate ?_ _)
  · intro arguments
    exact agrees_bind (agrees_lift _) fun closed => agrees_pure _
  · intro arguments
    apply agrees_bind (agrees_lift _)
    intro kind
    cases kind
    case rightParen | newline | endOfFile => exact agrees_pure _
    case star | doubleStar => exact agrees_lift _
    all_goals
      apply agrees_bind agrees.namedExpression
      intro argument
      apply agrees_bind (agrees_lift _)
      intro atEquals
      apply agrees_ite (agrees_lift _)
      apply agrees_bind (agrees_lift _)
      intro atFor
      apply agrees_ite
      · apply agrees_bind (agrees_lift _)
        intro contents
        exact agrees_bind (agrees_lift _) fun generator => agrees_pure _
      · apply agrees_bind (agrees_lift _)
        intro eaten
        exact agrees_ite (agrees_pure _) (agrees_pure _)

private theorem agrees_lambda {rules : Rules} {level : Level}
    (agrees : RulesAgree nesting rules level) :
    Agrees nesting (lambda rules) (Parser.lambda level) := by
  apply agrees_bind (agrees_lift _)
  intro start
  apply agrees_bind (agrees_lift _)
  intro cursor
  cases lambdaParameters 0 cursor.remaining with
  | error found => exact agrees_lift _
  | ok count =>
      apply agrees_bind (agrees_lift _)
      intro _
      exact agrees_bind agrees.expression fun _ => agrees_lift _

/-! ### The rules of a level -/

variable {rules : Rules} {deeper : Option Level} (below : BelowAgrees rules nesting deeper)
include below

private theorem agrees_atom : Agrees nesting (atom rules) (Parser.atom deeper) := by
  apply agrees_bind (agrees_lift _)
  intro token
  cases simpleAtom? token with
  | some expr => exact agrees_bind (agrees_lift _) fun _ => agrees_pure _
  | none =>
      apply agrees_ite (agrees_lift _)
      generalize token.kind = kind
      cases kind with
      | leftParen => exact agrees_nested below fun level agrees => agrees_parenthesized agrees
      | leftBracket => exact agrees_nested below fun level agrees => agrees_listDisplay agrees
      | leftBrace => exact agrees_nested below fun level agrees => agrees_lift _
      | _ => exact agrees_lift _

private theorem agrees_trailer (value : Expr) :
    Agrees nesting (trailer rules value) (Parser.trailer deeper value) := by
  apply agrees_bind (agrees_lift _)
  intro kind
  cases kind with
  | leftParen =>
      apply agrees_bind (agrees_lift _)
      intro opened
      apply agrees_bind
        (agrees_nested below fun level agrees => agrees_callArguments agrees opened)
      intro arguments
      exact agrees_bind (agrees_lift _) fun last => agrees_pure _
  | dot =>
      apply agrees_bind (agrees_lift _)
      intro _
      apply agrees_bind (agrees_lift _)
      intro kind
      cases kind with
      | ident name => exact agrees_bind (agrees_lift _) fun last => agrees_pure _
      | _ => exact agrees_lift _
  | leftBracket =>
      apply agrees_bind (agrees_lift _)
      intro opened
      apply agrees_bind (agrees_lift _)
      intro contents
      apply agrees_bind (agrees_lift _)
      intro closed
      exact agrees_bind (agrees_lift _) fun subscript => agrees_pure _
  | _ => exact agrees_pure (Round.done value)

theorem agrees_primary : Agrees nesting (primary rules) (Parser.primary deeper) :=
  agrees_bind (agrees_atom below) fun value => agrees_iterate (agrees_trailer below) value

private theorem agrees_exponentRest (base : Expr) :
    Agrees nesting (exponentRest rules base) (Parser.exponentRest deeper base) := by
  apply agrees_bind (agrees_lift _)
  intro eaten
  apply agrees_ite
  · apply agrees_bind (agrees_nested below fun level agrees => agrees.factor)
    exact fun exponent => agrees_pure _
  · exact agrees_pure base

private theorem agrees_power : Agrees nesting (power rules) (Parser.power deeper) := by
  rw [Parser.power_eq]
  apply agrees_bind (agrees_lift _)
  intro atAwait
  apply agrees_ite
  · apply agrees_bind (agrees_lift _)
    intro start
    apply agrees_bind (agrees_nested below fun level agrees => agrees.primary)
    intro _
    exact agrees_bind (agrees_lift _) (agrees_exponentRest below)
  · exact agrees_bind (agrees_primary below) (agrees_exponentRest below)

theorem agrees_factor : Agrees nesting (factor rules) (Parser.factor deeper) := by
  apply agrees_bind (agrees_lift _)
  intro kind
  cases signOperator? kind with
  | some operator =>
      apply agrees_bind (agrees_lift _)
      intro start
      apply agrees_bind (agrees_nested below fun level agrees => agrees.factor)
      exact fun operand => agrees_pure _
  | none => exact agrees_power below

omit below in
private theorem agrees_binaryLevel {counted : Counting Expr} {operand : Parser Expr}
    (agrees : Agrees nesting counted operand) (rank : Nat) :
    Agrees nesting (binaryLevel counted rank) (Parser.binaryLevel operand rank) := by
  rw [Parser.binaryLevel_eq]
  apply agrees_bind agrees
  intro left
  apply agrees_iterate
  intro left
  apply agrees_bind (agrees_lift _)
  intro kind
  cases (binaryOperator? kind).filter (·.precedence == rank) with
  | some operator =>
      apply agrees_bind (agrees_lift _)
      intro _
      exact agrees_bind agrees fun right => agrees_pure _
  | none => exact agrees_pure _

omit below in
private theorem agrees_binaryLevels {counted : Counting Expr} {operand : Parser Expr}
    (agrees : Agrees nesting counted operand) (ranks : List Nat) :
    Agrees nesting (ranks.foldl binaryLevel counted) (ranks.foldl Parser.binaryLevel operand) := by
  induction ranks generalizing counted operand with
  | nil => exact agrees
  | cons rank ranks inductionHypothesis =>
      exact inductionHypothesis (agrees_binaryLevel agrees rank)

private theorem agrees_binary : Agrees nesting (binary rules) (Parser.binary deeper) :=
  agrees_binaryLevels (agrees_factor below) Parser.binaryRanks

omit below in
theorem agrees_chain {counted : Counting Expr} {operand : Parser Expr}
    (agrees : Agrees nesting counted operand) (kindName : String) (separator : Parser Bool) :
    Agrees nesting (chain kindName separator counted)
      (Parser.chain kindName separator operand) := by
  rw [Parser.chain_eq]
  apply agrees_bind agrees
  intro first
  apply agrees_bind (agrees_lift _)
  intro separated
  apply agrees_ite _ (agrees_pure _)
  apply agrees_bind agrees
  intro _
  apply agrees_bind (agrees_iterate ?_ _)
  · exact fun _ => agrees_lift _
  · intro _
    apply agrees_bind (agrees_lift _)
    intro separated
    apply agrees_ite _ (agrees_pure _)
    exact agrees_bind agrees fun _ => agrees_pure _

private theorem agrees_comparison : Agrees nesting (comparison rules) (Parser.comparison deeper) :=
  agrees_chain (agrees_binary below) _ _

theorem agrees_inversion : Agrees nesting (inversion rules) (Parser.inversion deeper) := by
  apply agrees_bind (agrees_lift _)
  intro atNot
  apply agrees_ite _ (agrees_comparison below)
  apply agrees_bind (agrees_lift _)
  intro start
  apply agrees_bind (agrees_nested below fun level agrees => agrees.inversion)
  exact fun operand => agrees_pure _

private theorem agrees_conjunction :
    Agrees nesting (conjunction rules) (Parser.conjunction deeper) :=
  agrees_chain (agrees_inversion below) _ _

private theorem agrees_disjunction :
    Agrees nesting (disjunction rules) (Parser.disjunction deeper) :=
  agrees_chain (agrees_conjunction below) _ _

theorem agrees_expression : Agrees nesting (expression rules) (Parser.expression deeper) := by
  apply agrees_bind (agrees_lift _)
  intro atLambda
  apply agrees_ite (agrees_nested below fun level agrees => agrees_lambda agrees)
  apply agrees_bind (agrees_disjunction below)
  intro body
  apply agrees_bind (agrees_lift _)
  intro atIf
  apply agrees_ite _ (agrees_pure _)
  apply agrees_bind (agrees_disjunction below)
  intro _
  apply agrees_bind (agrees_lift _)
  intro atElse
  apply agrees_ite _ (agrees_lift _)
  apply agrees_bind (agrees_nested below fun level agrees => agrees.expression)
  exact fun _ => agrees_lift _

private theorem agrees_namedExpression :
    Agrees nesting (namedExpression rules) (Parser.namedExpression deeper) := by
  apply agrees_bind (agrees_expression below)
  intro value
  apply agrees_bind (agrees_lift _)
  intro atBinding
  apply agrees_ite _ (agrees_pure _)
  apply agrees_bind (agrees_lift _)
  intro _
  apply agrees_bind (agrees_nested below fun level agrees => agrees.expression)
  exact fun _ => agrees_lift _

private theorem rulesAgree_calling : RulesAgree nesting rules.calling (.above deeper) where
  expression := agrees_expression below
  namedExpression := agrees_namedExpression below
  inversion := agrees_inversion below
  factor := agrees_factor below
  primary := agrees_primary below

end Rules

/-- Unrolled more often than there is room for levels, the rules agree with those of the level. -/
theorem rulesAgree_unrolled (bottom : Rules) {nesting room : Nat}
    (isRoom : nesting + room = Level.nestingLimit) {times : Nat} (enough : room < times) :
    RulesAgree nesting (.unrolled bottom times) (.withRoom room) := by
  induction room generalizing nesting times with
  | zero =>
      obtain ⟨fewer, rfl⟩ := Nat.exists_eq_succ_of_ne_zero (Nat.ne_of_gt enough)
      apply rulesAgree_calling
      rw [show nesting = Level.nestingLimit by omega]
      exact .atLimit
  | succ room inductionHypothesis =>
      obtain ⟨fewer, rfl⟩ := Nat.exists_eq_succ_of_ne_zero (Nat.ne_of_gt (Nat.zero_lt_of_lt enough))
      apply rulesAgree_calling
      exact .level (by omega) (inductionHypothesis (by omega) (by omega))

private theorem belowAgrees_unrolled (bottom : Rules) {nesting room : Nat}
    (isRoom : nesting + room = Level.nestingLimit) {times : Nat} (enough : room ≤ times) :
    BelowAgrees (.unrolled bottom times) nesting (Level.below room) := by
  cases room with
  | zero =>
      rw [show nesting = Level.nestingLimit by omega]
      exact .atLimit
  | succ room => exact .level (by omega) (rulesAgree_unrolled bottom (by omega) enough)

/-! ### Statements -/

section Statements

/-- Statements begin on the outermost level, with the counter at zero. -/
abbrev StatementAgrees (counted : Counting α) (rule : Parser α) : Prop :=
  Agrees 0 counted rule

variable {rules : Rules} (agrees : RulesAgree 0 rules .outermost)
include agrees

theorem agrees_expressions : StatementAgrees (expressions rules) Parser.expressions :=
  agrees_expressionList agrees.expression

private theorem agrees_annotatedRest (target : Expr) :
    StatementAgrees (annotatedRest rules target) (Parser.annotatedRest target) := by
  apply agrees_bind (agrees_lift _)
  intro _
  apply agrees_bind (agrees_lift _)
  intro _
  apply agrees_bind agrees.expression
  intro annotation
  apply agrees_bind (agrees_lift _)
  intro eaten
  apply agrees_ite
  · exact agrees_bind (agrees_expressions agrees) fun value => agrees_pure _
  · apply agrees_bind (agrees_lift _)
    intro kind
    exact agrees_ite (agrees_pure _) (agrees_lift _)

private theorem agrees_assignRest (first : Expr) :
    StatementAgrees (assignRest rules first) (Parser.assignRest first) := by
  rw [Parser.assignRest_eq]
  apply agrees_bind (agrees_lift _)
  intro _
  apply agrees_bind (agrees_lift _)
  intro _
  apply agrees_bind (agrees_expressions agrees)
  intro value
  apply agrees_bind (agrees_iterate ?_ _)
  · rintro ⟨targets, value⟩
    exact agrees_pure _
  · intro state
    apply agrees_bind (agrees_lift _)
    intro eaten
    apply agrees_ite _ (agrees_pure _)
    apply agrees_bind (agrees_lift _)
    intro _
    exact agrees_bind (agrees_expressions agrees) fun next => agrees_pure _

private theorem agrees_augmentedRest (target : Expr) (symbol : String) :
    StatementAgrees (augmentedRest rules target symbol) (Parser.augmentedRest target symbol) := by
  unfold augmentedRest Parser.augmentedRest
  cases BinaryOp.ofSymbol? symbol with
  | none => exact agrees_lift _
  | some operator =>
      apply agrees_bind (agrees_lift _)
      intro _
      apply agrees_bind (agrees_lift _)
      intro _
      exact agrees_bind (agrees_expressions agrees) fun value => agrees_pure _

private theorem agrees_expressionStatement :
    StatementAgrees (expressionStatement rules) Parser.expressionStatement := by
  rw [Parser.expressionStatement_eq]
  apply agrees_bind (agrees_lift _)
  intro start
  apply agrees_bind (agrees_expressions agrees)
  intro first
  apply agrees_bind (agrees_lift _)
  intro kind
  have follows : Agrees 0 (statementRest rules first kind) (Parser.statementRest first kind) := by
    cases kind with
    | colon => exact agrees_annotatedRest agrees first
    | equals => exact agrees_assignRest agrees first
    | augmented symbol => exact agrees_augmentedRest agrees first symbol
    | _ => exact agrees_pure _
  apply agrees_bind follows
  intro make
  exact agrees_bind (agrees_lift _) fun last => agrees_pure _

private theorem agrees_simpleStatement :
    StatementAgrees (simpleStatement rules) Parser.simpleStatement := by
  apply agrees_bind (agrees_lift _)
  intro kind
  cases kind with
  | passWord => exact agrees_bind (agrees_lift _) fun span => agrees_pure _
  | keyword word =>
      dsimp only
      cases keywordStatement? word with
      | some kindName =>
          apply agrees_bind (agrees_lift _)
          intro start
          apply agrees_bind (agrees_lift _)
          intro _
          exact agrees_bind (agrees_lift _) fun last => agrees_pure _
      | none => exact agrees_expressionStatement agrees
  | _ => exact agrees_expressionStatement agrees

private theorem agrees_simpleLine : StatementAgrees (simpleLine rules) Parser.simpleLine := by
  rw [Parser.simpleLine_eq]
  apply agrees_iterate
  intro statements
  apply agrees_bind (agrees_simpleStatement agrees)
  intro statement
  apply agrees_bind (agrees_lift _)
  intro eaten
  apply agrees_ite
  · apply agrees_bind (agrees_lift _)
    intro ended
    exact agrees_ite (agrees_pure _) (agrees_pure _)
  · apply agrees_bind (agrees_lift _)
    intro ended
    exact agrees_ite (agrees_pure _) (agrees_lift _)

private theorem agrees_line : StatementAgrees (line rules) Parser.line := by
  apply agrees_bind (agrees_lift _)
  intro found
  cases found with
  | some statement => exact agrees_pure _
  | none => exact agrees_simpleLine agrees

private theorem agrees_wholeModule : StatementAgrees (wholeModule rules) Parser.wholeModule := by
  rw [Parser.wholeModule_eq]
  apply agrees_bind (agrees_iterate ?_ _)
  · exact fun body => agrees_pure _
  · intro body
    apply agrees_bind (agrees_lift _)
    intro kind
    cases kind with
    | endOfFile => exact agrees_pure _
    | newline => exact agrees_bind (agrees_lift _) fun _ => agrees_pure _
    | indent => exact agrees_lift _
    | _ => exact agrees_bind (agrees_line agrees) fun more => agrees_pure _

end Statements

/-! ### All rules together -/

/-- The expression rules that may be entered with a value of the counter. -/
structure ExpressionRulesAgree (rules : Rules) (nesting room : Nat) : Prop where
  atom : Agrees nesting (atom rules) (Parser.atom (Level.below room))
  trailer (value : Expr) :
    Agrees nesting (trailer rules value) (Parser.trailer (Level.below room) value)
  primary : Agrees nesting (primary rules) (Parser.primary (Level.below room))
  power : Agrees nesting (power rules) (Parser.power (Level.below room))
  factor : Agrees nesting (factor rules) (Parser.factor (Level.below room))
  /-- The operators of the tightest ranks, however many of these there are. -/
  binaryLevels (ranks : List Nat) (tightest : ranks <+: Parser.binaryRanks) :
    Agrees nesting (ranks.foldl binaryLevel (Counting.factor rules))
      (ranks.foldl Parser.binaryLevel (Parser.factor (Level.below room)))
  binary : Agrees nesting (binary rules) (Parser.binary (Level.below room))
  comparison : Agrees nesting (comparison rules) (Parser.comparison (Level.below room))
  inversion : Agrees nesting (inversion rules) (Parser.inversion (Level.below room))
  conjunction : Agrees nesting (conjunction rules) (Parser.conjunction (Level.below room))
  disjunction : Agrees nesting (disjunction rules) (Parser.disjunction (Level.below room))
  expression : Agrees nesting (expression rules) (Parser.expression (Level.below room))
  namedExpression :
    Agrees nesting (namedExpression rules) (Parser.namedExpression (Level.below room))
  tupleRest (first : Expr) :
    Agrees nesting (tupleRest rules.calling.expression first)
      (Parser.tupleRest (Level.withRoom room).expression first)
  yieldExpression :
    Agrees nesting (yieldExpression rules.calling.expression)
      (Parser.yieldExpression (Level.withRoom room).expression)
  expressionList :
    Agrees nesting (expressionList rules.calling.expression)
      (Parser.expressionList (Level.withRoom room).expression)
  parenthesized :
    Agrees nesting (parenthesized rules.calling) (Parser.parenthesized (Level.withRoom room))
  listDisplay :
    Agrees nesting (listDisplay rules.calling) (Parser.listDisplay (Level.withRoom room))
  callArguments (opened : Span) :
    Agrees nesting (callArguments opened rules.calling)
      (Parser.callArguments opened (Level.withRoom room))
  lambda : Agrees nesting (lambda rules.calling) (Parser.lambda (Level.withRoom room))

/-- The statement rules. -/
structure StatementRulesAgree (rules : Rules) : Prop where
  expressions : StatementAgrees (expressions rules) Parser.expressions
  annotatedRest (target : Expr) :
    StatementAgrees (annotatedRest rules target) (Parser.annotatedRest target)
  assignRest (first : Expr) : StatementAgrees (assignRest rules first) (Parser.assignRest first)
  augmentedRest (target : Expr) (symbol : String) :
    StatementAgrees (augmentedRest rules target symbol) (Parser.augmentedRest target symbol)
  expressionStatement : StatementAgrees (expressionStatement rules) Parser.expressionStatement
  simpleStatement : StatementAgrees (simpleStatement rules) Parser.simpleStatement
  simpleLine : StatementAgrees (simpleLine rules) Parser.simpleLine
  line : StatementAgrees (line rules) Parser.line
  wholeModule : StatementAgrees (wholeModule rules) Parser.wholeModule

theorem expressionRulesAgree (bottom : Rules) {nesting room times : Nat}
    (isRoom : nesting + room = Level.nestingLimit) (enough : room ≤ times) :
    ExpressionRulesAgree (.unrolled bottom times) nesting room := by
  have below := belowAgrees_unrolled bottom isRoom enough
  have here : RulesAgree nesting (Rules.unrolled bottom times).calling (Level.withRoom room) :=
    rulesAgree_unrolled bottom isRoom (Nat.lt_succ_of_le enough)
  exact {
    atom := agrees_atom below
    trailer := agrees_trailer below
    primary := agrees_primary below
    power := agrees_power below
    factor := agrees_factor below
    binaryLevels := fun ranks _ => agrees_binaryLevels (agrees_factor below) ranks
    binary := agrees_binary below
    comparison := agrees_comparison below
    inversion := agrees_inversion below
    conjunction := agrees_conjunction below
    disjunction := agrees_disjunction below
    expression := agrees_expression below
    namedExpression := agrees_namedExpression below
    tupleRest := agrees_tupleRest here.expression
    yieldExpression := agrees_yieldExpression here.expression
    expressionList := agrees_expressionList here.expression
    parenthesized := agrees_parenthesized here
    listDisplay := agrees_listDisplay here
    callArguments := agrees_callArguments here
    lambda := agrees_lambda here }

theorem statementRulesAgree (bottom : Rules) {times : Nat} (enough : Level.nestingLimit < times) :
    StatementRulesAgree (.unrolled bottom times) := by
  have agrees : RulesAgree 0 (.unrolled bottom times) .outermost :=
    rulesAgree_unrolled bottom (Nat.zero_add _) enough
  exact {
    expressions := agrees_expressions agrees
    annotatedRest := agrees_annotatedRest agrees
    assignRest := agrees_assignRest agrees
    augmentedRest := agrees_augmentedRest agrees
    expressionStatement := agrees_expressionStatement agrees
    simpleStatement := agrees_simpleStatement agrees
    simpleLine := agrees_simpleLine agrees
    line := agrees_line agrees
    wholeModule := agrees_wholeModule agrees }

end Counting

/-! ### The rank of an expression -/

namespace Expr

mutual

/-- The number of nesting levels that an expression needs, grouping parentheses apart. -/
def rank : Expr → Nat
  | .binary base .pow exponent _ => max base.rank (exponent.rank + 1)
  | .binary left _ right _ => max left.rank right.rank
  | .unary _ operand _ => operand.rank + 1
  | .call callee arguments _ => max callee.rank (largestRank arguments + 1)
  | .member value _ _ => value.rank
  | .list elements _ => largestRank elements + 1
  | .tuple elements _ => largestRank elements
  | .constant .. | .name .. | .unsupported .. => 0

def largestRank : List Expr → Nat
  | [] => 0
  | first :: rest => max first.rank (largestRank rest)

end

theorem largestRank_le_iff {elements : List Expr} {bound : Nat} :
    largestRank elements ≤ bound ↔ ∀ element ∈ elements, element.rank ≤ bound := by
  induction elements with
  | nil => simp [largestRank]
  | cons first rest inductionHypothesis =>
      rw [largestRank, max_le_iff, inductionHypothesis, List.forall_mem_cons]

theorem rank_binary {operator : BinaryOp} (notPower : operator ≠ .pow) (left right : Expr)
    (span : Span) : (binary left operator right span).rank = max left.rank right.rank := by
  cases operator <;> first | rfl | exact absurd rfl notPower

private theorem rank_le_of_mem_children {expr child : Expr} (isChild : child ∈ expr.children) :
    child.rank ≤ expr.rank := by
  have among {elements : List Expr} (member : child ∈ elements) :
      child.rank ≤ largestRank elements := largestRank_le_iff.mp le_rfl child member
  cases expr with
  | binary left operator right span =>
      have both : max left.rank right.rank ≤ (binary left operator right span).rank := by
        by_cases isPower : operator = .pow
        · subst isPower
          rw [rank]
          omega
        · rw [rank_binary isPower]
      rcases List.mem_pair.mp isChild with rfl | rfl <;> omega
  | unary operator operand span =>
      rw [List.mem_singleton.mp isChild, rank]
      omega
  | call callee arguments span =>
      rw [rank]
      rcases List.mem_cons.mp isChild with rfl | isArgument
      · exact le_max_left _ _
      · have below := among isArgument
        omega
  | member value name span => rw [List.mem_singleton.mp isChild, rank]
  | list elements span =>
      have below : child.rank ≤ largestRank elements := among isChild
      rw [rank]
      omega
  | tuple elements span =>
      rw [rank]
      exact among isChild
  | constant | name | unsupported => cases isChild

private theorem sizeOf_lt_of_mem_children {expr child : Expr} (isChild : child ∈ expr.children) :
    sizeOf child < sizeOf expr := by
  cases expr with
  | binary left operator right span =>
      rw [binary.sizeOf_spec]
      rcases List.mem_pair.mp isChild with rfl | rfl <;> omega
  | unary operator operand span =>
      rw [List.mem_singleton.mp isChild, unary.sizeOf_spec]
      omega
  | call callee arguments span =>
      rw [call.sizeOf_spec]
      rcases List.mem_cons.mp isChild with rfl | isArgument
      · omega
      · have smaller := List.sizeOf_lt_of_mem isArgument
        omega
  | member value name span =>
      rw [List.mem_singleton.mp isChild, member.sizeOf_spec]
      omega
  | list elements span | tuple elements span =>
      have smaller : sizeOf child < sizeOf elements := List.sizeOf_lt_of_mem isChild
      simp only [list.sizeOf_spec, tuple.sizeOf_spec]
      omega
  | constant | name | unsupported => cases isChild

theorem rank_le_of_mem_nodes {expr node : Expr} (isNode : node ∈ expr.nodes) :
    node.rank ≤ expr.rank := by
  rcases mem_nodes_iff.mp isNode with rfl | ⟨child, isChild, inChild⟩
  · exact le_rfl
  · exact (rank_le_of_mem_nodes inChild).trans (rank_le_of_mem_children isChild)
termination_by sizeOf expr
decreasing_by exact sizeOf_lt_of_mem_children isChild

private theorem rank_of_simpleAtom? {token : Token} {expr : Expr}
    (isSimple : simpleAtom? token = some expr) : expr.rank = 0 := by
  unfold simpleAtom? at isSimple
  extract_lets constant at isSimple
  cases isKind : token.kind <;> rw [isKind] at isSimple <;> cases isSimple <;> rfl

end Expr

/-- An expression with room for some nesting levels has at most that rank. -/
private theorem rankComposition :
    Composition (fun _ => True) fun room expr => expr.rank ≤ room where
  simple _ isSimple := by
    rw [Expr.rank_of_simpleAtom? isSimple]
    exact Nat.zero_le _
  text room _ _ := Nat.zero_le room
  bytes room _ _ := Nat.zero_le room
  outside room _ _ _ := Nat.zero_le room
  member _ _ part := part
  binary span notPower first second := by
    rw [Expr.rank_binary notPower]
    exact max_le first second
  tuple _ each := Expr.largestRank_le_iff.mpr each
  relocated _ whole := whole
  roomier inner := Nat.le_succ_of_le inner
  power _ first second := max_le first (Nat.succ_le_succ second)
  unary _ _ part := Nat.succ_le_succ part
  call _ head each := max_le head (Nat.succ_le_succ (Expr.largestRank_le_iff.mpr each))
  list _ each := Nat.succ_le_succ (Expr.largestRank_le_iff.mpr each)

/-- The nesting limit bounds rules and trees. Whatever the value of the counter within the limit,
every rule that counts does what the rule of the level for that value does, and returns with the
counter as it was, whether it succeeds or fails; so for modules, where it starts at zero. The
counter never exceeds a hundred, and neither does the rank of an expression in a module. -/
theorem nesting_bounded (bottom : Counting.Rules) (spare : Nat) (tokens : List Token) :
    (∀ nesting room, nesting + room = 100 →
      Counting.ExpressionRulesAgree (.unrolled bottom (room + spare)) nesting room) ∧
    Counting.StatementRulesAgree (.unrolled bottom (101 + spare)) ∧
    (Counting.wholeModule (.unrolled bottom (101 + spare)) ⟨.start tokens, 0, 0⟩).1 =
      Module.ofTokens tokens ∧
    ∀ tree, Module.ofTokens tokens = .ok tree → ∀ stmt ∈ tree.body, ∀ expr ∈ stmt.children,
      ∀ node ∈ expr.nodes, node.rank ≤ 100 := by
  have statements : Counting.StatementRulesAgree (.unrolled bottom (101 + spare)) :=
    Counting.statementRulesAgree bottom (Nat.lt_of_lt_of_le (by decide) (Nat.le_add_right _ _))
  refine ⟨?_, statements, ?_, ?_⟩
  · intro nesting room isRoom
    exact Counting.expressionRulesAgree bottom isRoom (Nat.le_add_right room spare)
  · obtain ⟨_, _, same⟩ := statements.wholeModule ⟨.start tokens, 0, 0⟩ rfl (Nat.zero_le _)
    rw [Module.ofTokens, StateT.run, same]
    cases (Counting.wholeModule (.unrolled bottom (101 + spare)) ⟨.start tokens, 0, 0⟩).1 <;> rfl
  · intro tree parsed stmt inBody expr isChild node isNode
    have bounded : expr.rank ≤ 100 :=
      (Module.built_of_ofTokens rankComposition (fun _ _ => trivial) parsed stmt inBody).children
        expr isChild
    exact (Expr.rank_le_of_mem_nodes isNode).trans bounded

end Transpiler
