import Transpiler.Grammar.Statement

/-!
Contract: the grammar rules with a counter of nesting levels.

Owns: the rules that count. They call each other freely, and only the counter keeps them from
calling each other for ever: brackets, arguments, signs, exponents and the like raise it by one
while they last, and fail where it has reached the limit. All other steps are those of the rules
that have one level of rules for each value of the counter.

The state outlives an error, so that what a failed rule leaves can be spoken of. The highest value
that the counter has had is kept beside it for the same reason; no rule reads it.

Does not own: that both kinds of rules do the same.
-/

namespace Transpiler

/-- The state of rules that count: the place among the tokens, the counter, and its highest
value so far. -/
structure Descent where
  cursor : Cursor
  nesting : Nat
  deepest : Nat

/-- A rule that counts its nesting levels. -/
def Counting (α : Type) : Type := Descent → Except ParseError α × Descent

namespace Counting

open Transpiler.Parser (Round advance current currentKind currentSpan previousSpan isAt
  isAtKeyword eat eatKeyword failHere unexpected expectClosing skipBracketContents unsupportedSince
  takeUntil endsSimple lineEnd requireTarget)

instance : Monad Counting where
  pure value := fun state => (.ok value, state)
  bind first next := fun state =>
    match first state with
    | (.ok value, between) => next value between
    | (.error error, after) => (.error error, after)

/-- A step that calls no rule leaves the counter alone. -/
instance : MonadLift Parser Counting where
  monadLift step := fun state =>
    match step state.cursor with
    | .ok (value, after) => (.ok value, { state with cursor := after })
    | .error error => (.error error, state)

section Runs

variable {α β : Type} {state : Descent}

theorem run_bind_of_ok {first : Counting α} {next : α → Counting β} {between : Descent} {value : α}
    (ran : first state = (.ok value, between)) : (first >>= next) state = next value between := by
  simp only [bind, ran]

theorem run_bind_of_error {first : Counting α} {next : α → Counting β} {after : Descent}
    {error : ParseError} (failed : first state = (.error error, after)) :
    (first >>= next) state = (.error error, after) := by
  simp only [bind, failed]

theorem run_lift_of_ok {step : Parser α} {value : α} {after : Cursor}
    (ran : step state.cursor = .ok (value, after)) :
    (liftM step : Counting α) state = (.ok value, { state with cursor := after }) := by
  simp only [liftM, monadLift, MonadLift.monadLift, ran]

theorem run_lift_of_error {step : Parser α} {error : ParseError}
    (failed : step state.cursor = .error error) :
    (liftM step : Counting α) state = (.error error, state) := by
  simp only [liftM, monadLift, MonadLift.monadLift, failed]

end Runs

/-- Runs a rule with the counter one higher, unless that would exceed the limit. -/
def nested {α : Type} (rule : Counting α) : Counting α := fun state =>
  if Level.nestingLimit ≤ state.nesting then
    (liftM (failHere .nestingTooDeep : Parser α) : Counting α) state
  else
    let inner := state.nesting + 1
    let left := rule { state with nesting := inner, deepest := max state.deepest inner }
    (left.1, { left.2 with nesting := left.2.nesting - 1 })

def iterateOver {σ : Type} (round : σ → Counting (Round σ)) : List Token → σ → Counting σ
  | [], state => do
      match ← round state with
      | .more last | .done last => return last
  | _ :: bound, state => do
      match ← round state with
      | .more next => iterateOver round bound next
      | .done last => return last

def iterate {σ : Type} (round : σ → Counting (Round σ)) (initial : σ) : Counting σ := do
  let cursor ← (get : Parser Cursor)
  iterateOver round cursor.remaining initial

/-- The rules that deeper constructs are entered by. -/
structure Rules where
  expression : Counting Expr
  namedExpression : Counting Expr
  inversion : Counting Expr
  factor : Counting Expr
  primary : Counting Expr

/-! ### Lists of expressions -/

def tupleRound (expression : Counting Expr) (elements : List Expr) :
    Counting (Round (List Expr)) := do
  if !(← eat .comma) then return .done elements
  else if startsExpression (← currentKind) then return .more (elements ++ [← expression])
  else return .done elements

def tupleRest (expression : Counting Expr) (first : Expr) : Counting Expr := do
  if !(← isAt .comma) then return first
  else
    let elements ← iterate (tupleRound expression) [first]
    return .tuple elements (first.span.cover (← previousSpan))

def yieldExpression (expression : Counting Expr) : Counting Expr := do
  let start ← advance
  if ← eatKeyword "from" then
    let _ ← expression
    unsupportedSince "YieldFrom" start
  else
    if startsExpression (← currentKind) then
      let _ ← tupleRest expression (← expression)
    unsupportedSince "Yield" start

def expressionList (expression : Counting Expr) : Counting Expr := do
  if ← isAtKeyword "yield" then yieldExpression expression
  else tupleRest expression (← expression)

/-! ### Atoms -/

def parenthesized (rules : Rules) : Counting Expr := do
  let opened ← advance
  let close : Parser Span := expectClosing .rightParen "(" opened "`)`"
  if ← isAt .rightParen then return .tuple [] (opened.cover (← advance))
  else if ← isAtKeyword "yield" then
    let inner ← yieldExpression rules.expression
    let _ ← close
    return inner
  else
    let first ← rules.namedExpression
    if ← isAtKeyword "for" then
      let _ ← skipBracketContents
      return .unsupported "GeneratorExp" (opened.cover (← close))
    else
      let inner ← tupleRest rules.expression first
      let closed ← close
      match inner with
      | .tuple elements _ => return .tuple elements (opened.cover closed)
      | _ => return inner

def elementRound (rules : Rules) (state : List Expr × Bool) :
    Counting (Round (List Expr × Bool)) := do
  if !startsExpression (← currentKind) then return .done (state.1, false)
  else
    let elements := state.1 ++ [← rules.namedExpression]
    if elements.length = 1 && (← isAtKeyword "for") then return .done (elements, true)
    else if ← eat .comma then return .more (elements, false)
    else return .done (elements, false)

def listDisplay (rules : Rules) : Counting Expr := do
  let opened ← advance
  let (elements, isComprehension) ← iterate (elementRound rules) ([], false)
  if isComprehension then
    let _ ← skipBracketContents
    let closed ← expectClosing .rightBracket "[" opened "`]`"
    return .unsupported "ListComp" (opened.cover closed)
  else
    let closed ← expectClosing .rightBracket "[" opened "`,` or `]`"
    return .list elements (opened.cover closed)

def atom (rules : Rules) : Counting Expr := do
  let token ← current
  match simpleAtom? token with
  | some expression =>
      let _ ← advance
      return expression
  | none =>
      if isStringToken token then Parser.strings
      else
        match token.kind with
        | .leftParen => nested (parenthesized rules)
        | .leftBracket => nested (listDisplay rules)
        | .leftBrace => nested Parser.braces
        | _ => (throw (.noExpression token) : Parser Expr)

/-! ### Calls, members and subscripts -/

def argumentRound (rules : Rules) (arguments : List Expr) : Counting (Round (List Expr)) := do
  match ← currentKind with
  | .rightParen | .newline | .endOfFile => return .done arguments
  | .star | .doubleStar => (failHere (.unsupportedSyntax "argument unpacking") : Parser _)
  | _ =>
      let argument ← rules.namedExpression
      if (← isAt .equals) && argument.isName then
        (throw ⟨.unsupportedSyntax "keyword argument", argument.span⟩ : Parser _)
      else if ← isAtKeyword "for" then
        let _ ← skipBracketContents
        return .done (arguments ++ [← unsupportedSince "GeneratorExp" argument.span])
      else if ← eat .comma then return .more (arguments ++ [argument])
      else return .done (arguments ++ [argument])

def callArguments (opened : Span) (rules : Rules) : Counting (List Expr) := do
  let arguments ← iterate (argumentRound rules) []
  let _ ← expectClosing .rightParen "(" opened "`,` or `)`"
  return arguments

def trailer (rules : Rules) (value : Expr) : Counting (Round Expr) := do
  match ← currentKind with
  | .leftParen =>
      let opened ← advance
      let arguments ← nested (callArguments opened rules)
      return .more (.call value arguments (value.span.cover (← previousSpan)))
  | .dot =>
      let _ ← advance
      match ← currentKind with
      | .ident name => return .more (.member value name (value.span.cover (← advance)))
      | _ => (unexpected "attribute name" : Parser _)
  | .leftBracket =>
      let opened ← advance
      let _ ← skipBracketContents
      let _ ← expectClosing .rightBracket "[" opened "`]`"
      return .more (← unsupportedSince "Subscript" value.span)
  | _ => return .done value

def primary (rules : Rules) : Counting Expr := do
  iterate (trailer rules) (← atom rules)

/-! ### Operators -/

def exponentRest (rules : Rules) (base : Expr) : Counting Expr := do
  if ← eat .doubleStar then
    let exponent ← nested rules.factor
    return .binary base .pow exponent (base.span.cover exponent.span)
  else return base

def power (rules : Rules) : Counting Expr := do
  if ← isAtKeyword "await" then
    let start ← advance
    let _ ← nested rules.primary
    exponentRest rules (← unsupportedSince "Await" start)
  else exponentRest rules (← primary rules)

def factor (rules : Rules) : Counting Expr := do
  match signOperator? (← currentKind) with
  | some operator =>
      let start ← advance
      let operand ← nested rules.factor
      return .unary operator operand (start.cover operand.span)
  | none => power rules

def operatorRound (operand : Counting Expr) (rank : Nat) (left : Expr) :
    Counting (Round Expr) := do
  match (binaryOperator? (← currentKind)).filter (·.precedence == rank) with
  | some operator =>
      let _ ← advance
      let right ← operand
      return .more (.binary left operator right (left.span.cover right.span))
  | none => return .done left

def binaryLevel (operand : Counting Expr) (rank : Nat) : Counting Expr := do
  iterate (operatorRound operand rank) (← operand)

def binary (rules : Rules) : Counting Expr :=
  Parser.binaryRanks.foldl binaryLevel (factor rules)

def chainRound (separator : Parser Bool) (operand : Counting Expr) (_ : Unit) :
    Counting (Round Unit) := do
  if ← separator then
    let _ ← operand
    return .more ()
  else return .done ()

def chain (kindName : String) (separator : Parser Bool) (operand : Counting Expr) :
    Counting Expr := do
  let first ← operand
  if ← separator then
    let _ ← operand
    iterate (chainRound separator operand) ()
    unsupportedSince kindName first.span
  else return first

def comparison (rules : Rules) : Counting Expr :=
  chain "Compare" Parser.comparisonOperator (binary rules)

def inversion (rules : Rules) : Counting Expr := do
  if ← isAt .notWord then
    let start ← advance
    let operand ← nested rules.inversion
    return .unary .not operand (start.cover operand.span)
  else comparison rules

def conjunction (rules : Rules) : Counting Expr :=
  chain "BoolOp" (eatKeyword "and") (inversion rules)

def disjunction (rules : Rules) : Counting Expr :=
  chain "BoolOp" (eatKeyword "or") (conjunction rules)

/-! ### Whole expressions -/

def lambda (rules : Rules) : Counting Expr := do
  let start ← advance
  let cursor ← (get : Parser Cursor)
  match lambdaParameters 0 cursor.remaining with
  | .error found => (throw (.unexpected found "`:`") : Parser Expr)
  | .ok count =>
      (set (cursor.skip (count + 1)) : Parser PUnit)
      let _ ← rules.expression
      unsupportedSince "Lambda" start

def expression (rules : Rules) : Counting Expr := do
  if ← isAtKeyword "lambda" then nested (lambda rules)
  else
    let body ← disjunction rules
    if ← eatKeyword "if" then
      let _ ← disjunction rules
      if ← eatKeyword "else" then
        let _ ← nested rules.expression
        unsupportedSince "IfExp" body.span
      else (unexpected "`else`" : Parser Expr)
    else return body

def namedExpression (rules : Rules) : Counting Expr := do
  let value ← expression rules
  if value.isName && (← isAt (.unsupported ":=")) then
    let _ ← advance
    let _ ← nested rules.expression
    unsupportedSince "NamedExpr" value.span
  else return value

/-- The rules that call the given ones wherever they call a rule. -/
def Rules.calling (rules : Rules) : Rules where
  expression := Counting.expression rules
  namedExpression := Counting.namedExpression rules
  inversion := Counting.inversion rules
  factor := Counting.factor rules
  primary := Counting.primary rules

/-- The recursion of the rules unrolled some number of times. Below that the rules may be any. -/
def Rules.unrolled (bottom : Rules) : Nat → Rules
  | 0 => bottom
  | times + 1 => (unrolled bottom times).calling

/-! ### Statements -/

def expressions (rules : Rules) : Counting Expr :=
  expressionList rules.expression

def annotatedRest (rules : Rules) (target : Expr) : Counting (Span → Stmt) := do
  requireTarget .annotated target
  let _ ← advance
  let annotation ← rules.expression
  if ← eat .equals then
    let value ← expressions rules
    return .annotated target annotation (some value)
  else if endsSimple (← currentKind) then return .annotated target annotation none
  else (unexpected "`=`" : Parser _)

def targetRound (rules : Rules) (state : List Expr × Expr) :
    Counting (Round (List Expr × Expr)) := do
  if ← eat .equals then
    requireTarget .assign state.2
    return .more (state.1 ++ [state.2], ← expressions rules)
  else return .done state

def assignRest (rules : Rules) (first : Expr) : Counting (Span → Stmt) := do
  requireTarget .assign first
  let _ ← advance
  let (targets, value) ← iterate (targetRound rules) ([first], ← expressions rules)
  return .assign targets value

def augmentedRest (rules : Rules) (target : Expr) (symbol : String) : Counting (Span → Stmt) := do
  match BinaryOp.ofSymbol? symbol with
  | none => (failHere (.unsupportedSyntax ("`" ++ symbol ++ "=`")) : Parser _)
  | some operator =>
      let _ ← advance
      requireTarget .augmented target
      let value ← expressions rules
      return .augmented target operator value

def statementRest (rules : Rules) (first : Expr) : TokenKind → Counting (Span → Stmt)
  | .colon => annotatedRest rules first
  | .equals => assignRest rules first
  | .augmented symbol => augmentedRest rules first symbol
  | _ => pure (.expression first)

def expressionStatement (rules : Rules) : Counting Stmt := do
  let start ← currentSpan
  let first ← expressions rules
  let statement ← statementRest rules first (← currentKind)
  return statement (start.cover (← previousSpan))

def simpleStatement (rules : Rules) : Counting Stmt := do
  match ← currentKind with
  | .passWord => return .pass (← advance)
  | .keyword word =>
      match keywordStatement? word with
      | some kindName =>
          let start ← advance
          let _ ← takeUntil endsSimple
          return .unsupported kindName (start.cover (← previousSpan))
      | none => expressionStatement rules
  | _ => expressionStatement rules

def statementRound (rules : Rules) (statements : List Stmt) : Counting (Round (List Stmt)) := do
  let statements := statements ++ [← simpleStatement rules]
  if ← eat .semicolon then
    if ← lineEnd then return .done statements else return .more statements
  else if ← lineEnd then return .done statements
  else (unexpected "`;` or end of line" : Parser _)

def simpleLine (rules : Rules) : Counting (List Stmt) :=
  iterate (statementRound rules) []

def line (rules : Rules) : Counting (List Stmt) := do
  match ← Parser.compoundStatement with
  | some statement => return [statement]
  | none => simpleLine rules

def lineRound (rules : Rules) (body : List Stmt) : Counting (Round (List Stmt)) := do
  match ← currentKind with
  | .endOfFile => return .done body
  | .newline =>
      let _ ← advance
      return .more body
  | .indent => (failHere .unexpectedIndent : Parser _)
  | _ => return .more (body ++ (← line rules))

def wholeModule (rules : Rules) : Counting Module := do
  let body ← iterate (lineRound rules) []
  return ⟨body⟩

end Counting
end Transpiler
