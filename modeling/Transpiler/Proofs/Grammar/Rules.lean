import Transpiler.Grammar.Statement

/-!
Contract: the grammar rules as the proofs see them.

Owns: the rules of one nesting level by the rank of the expressions that they read,
and a name for one round of every loop. Each loop is a repetition of its round by
definition.
-/

namespace Transpiler

/-! ### Levels and ranks -/

namespace Level

/-- The level below one with room for a number of levels. -/
def below : Nat → Option Level
  | 0 => none
  | room + 1 => some (withRoom room)

theorem withRoom_eq_above (room : Nat) : withRoom room = above (below room) := by
  cases room <;> rfl

end Level

namespace Parser

/-- Where there is room for one more level, it is entered. -/
theorem nested_below {α : Type} (room : Nat) (rule : Level → Parser α) :
    nested (Level.below (room + 1)) rule = rule (Level.above (Level.below room)) := by
  rw [← Level.withRoom_eq_above]
  rfl

/-- One more operator and operand of a rank. -/
def operatorRound (operand : Parser Expr) (rank : Nat) (left : Expr) : Parser (Round Expr) := do
  match (binaryOperator? (← currentKind)).filter (·.precedence == rank) with
  | some operator =>
      let _ ← advance
      let right ← operand
      return .more (.binary left operator right (left.span.cover right.span))
  | none => return .done left

theorem binaryLevel_eq (operand : Parser Expr) (rank : Nat) :
    binaryLevel operand rank = operand >>= iterate (operatorRound operand rank) := rfl

theorem primary_eq (deeper : Option Level) :
    primary deeper = atom deeper >>= iterate (trailer deeper) := rfl

/-- The exponent of a power, if there is one. -/
def exponentRest (deeper : Option Level) (base : Expr) : Parser Expr := do
  if ← eat .doubleStar then
    let exponent ← nested deeper (·.factor)
    return .binary base .pow exponent (base.span.cover exponent.span)
  else return base

theorem power_eq (deeper : Option Level) :
    power deeper = (do
      if ← isAtKeyword "await" then
        let start ← advance
        let _ ← nested deeper (·.primary)
        unsupportedSince "Await" start >>= exponentRest deeper
      else primary deeper >>= exponentRest deeper) := rfl

/-- The rule for expressions of a rank. -/
def ranked (deeper : Option Level) : Nat → Parser Expr
  | 0 => inversion deeper
  | 8 => power deeper
  | 9 => primary deeper
  | 10 => atom deeper
  | rank => (binaryRanks.take (7 - rank)).foldl binaryLevel (factor deeper)

theorem ranked_operators (deeper : Option Level) {rank : Nat} (low : 1 ≤ rank) (high : rank ≤ 6) :
    ranked deeper rank = binaryLevel (ranked deeper (rank + 1)) rank := by
  have cases : rank = 1 ∨ rank = 2 ∨ rank = 3 ∨ rank = 4 ∨ rank = 5 ∨ rank = 6 := by omega
  rcases cases with rfl | rfl | rfl | rfl | rfl | rfl <;> rfl

/-! ### String literals -/

/-- The text of a string token. -/
def textOf? : TokenKind → Option String
  | .str text => some text
  | _ => none

/-- The contents of a bytes token. -/
def contentOf? : TokenKind → Option (List UInt8)
  | .bytes content => some content
  | _ => none

theorem joinStrings_eq (parts : List Token) (span : Span) :
    joinStrings parts span =
      (let kinds := parts.map (·.kind)
       let texts := kinds.filterMap textOf?
       let contents := kinds.filterMap contentOf?
       let isFormatted := kinds.any (· == .formattedString)
       if !contents.isEmpty && (!texts.isEmpty || isFormatted) then .error ⟨.mixedLiterals, span⟩
       else if isFormatted then .ok (.unsupported "JoinedStr" span)
       else if !contents.isEmpty then .ok (.constant (.bytes contents.flatten) span)
       else .ok (.constant (.str (String.join texts)) span)) := by
  simp only [List.filterMap_map, List.any_map]
  rfl

theorem joinStrings_texts {parts : List Token} {texts : List String} (span : Span)
    (shape : parts.map (·.kind) = texts.map .str) :
    joinStrings parts span = .ok (.constant (.str (String.join texts)) span) := by
  have allTexts : (texts.map TokenKind.str).filterMap textOf? = texts := by
    simp [List.filterMap_map, Function.comp_def, textOf?]
  have noContents : (texts.map TokenKind.str).filterMap contentOf? = [] := by
    simp [List.filterMap_map, Function.comp_def, contentOf?]
  have plain : (texts.map TokenKind.str).any (· == .formattedString) = false := by
    simp
  simp [joinStrings_eq, shape, allTexts, noContents, plain]

theorem joinStrings_contents {parts : List Token} {contents : List (List UInt8)} (span : Span)
    (nonempty : contents ≠ []) (shape : parts.map (·.kind) = contents.map .bytes) :
    joinStrings parts span = .ok (.constant (.bytes contents.flatten) span) := by
  have noTexts : (contents.map TokenKind.bytes).filterMap textOf? = [] := by
    simp [List.filterMap_map, Function.comp_def, textOf?]
  have allContents : (contents.map TokenKind.bytes).filterMap contentOf? = contents := by
    simp [List.filterMap_map, Function.comp_def, contentOf?]
  have plain : (contents.map TokenKind.bytes).any (· == .formattedString) = false := by
    simp
  simp [joinStrings_eq, shape, allContents, noTexts, plain, nonempty]

/-! ### Expressions between commas -/

/-- One more expression of a tuple. -/
def tupleRound (expression : Parser Expr) (elements : List Expr) :
    Parser (Round (List Expr)) := do
  if !(← eat .comma) then return .done elements
  else if startsExpression (← currentKind) then return .more (elements ++ [← expression])
  else return .done elements

theorem tupleRest_eq (expression : Parser Expr) (first : Expr) :
    tupleRest expression first = do
      if !(← isAt .comma) then return first
      else
        let elements ← iterate (tupleRound expression) [first]
        return .tuple elements (first.span.cover (← previousSpan)) := rfl

/-- One more element of a list, or the first one of a comprehension. -/
def elementRound (level : Level) (state : List Expr × Bool) :
    Parser (Round (List Expr × Bool)) := do
  if !startsExpression (← currentKind) then return .done (state.1, false)
  else
    let elements := state.1 ++ [← level.namedExpression]
    if elements.length = 1 && (← isAtKeyword "for") then return .done (elements, true)
    else if ← eat .comma then return .more (elements, false)
    else return .done (elements, false)

theorem listDisplay_eq (level : Level) :
    listDisplay level = do
      let opened ← advance
      let (elements, isComprehension) ← iterate (elementRound level) ([], false)
      if isComprehension then
        let _ ← skipBracketContents
        let closed ← expectClosing .rightBracket "[" opened "`]`"
        return .unsupported "ListComp" (opened.cover closed)
      else
        let closed ← expectClosing .rightBracket "[" opened "`,` or `]`"
        return .list elements (opened.cover closed) := rfl

/-- One more argument of a call. -/
def argumentRound (level : Level) (arguments : List Expr) : Parser (Round (List Expr)) := do
  match ← currentKind with
  | .rightParen | .newline | .endOfFile => return .done arguments
  | .star | .doubleStar => failHere (.unsupportedSyntax "argument unpacking")
  | _ =>
      let argument ← level.namedExpression
      if (← isAt .equals) && argument.isName then
        throw ⟨.unsupportedSyntax "keyword argument", argument.span⟩
      else if ← isAtKeyword "for" then
        let _ ← skipBracketContents
        return .done (arguments ++ [← unsupportedSince "GeneratorExp" argument.span])
      else if ← eat .comma then return .more (arguments ++ [argument])
      else return .done (arguments ++ [argument])

theorem callArguments_eq (opened : Span) (level : Level) :
    callArguments opened level = do
      let arguments ← iterate (argumentRound level) []
      let _ ← expectClosing .rightParen "(" opened "`,` or `)`"
      return arguments := rfl

/-! ### Chains -/

/-- One more separator and operand of a chain. -/
def chainRound (separator : Parser Bool) (operand : Parser Expr) (_ : Unit) :
    Parser (Round Unit) := do
  if ← separator then
    let _ ← operand
    return .more ()
  else return .done ()

theorem chain_eq (kindName : String) (separator : Parser Bool) (operand : Parser Expr) :
    chain kindName separator operand = do
      let first ← operand
      if ← separator then
        let _ ← operand
        iterate (chainRound separator operand) ()
        unsupportedSince kindName first.span
      else return first := rfl

/-! ### Compound statements -/

/-- One more decorator, with its line. -/
def decoratorRound (found : Bool) : Parser (Round Bool) := do
  if ← eat .atSign then
    let _ ← takeUntil endsLine
    let _ ← eat .newline
    return .more true
  else return .done found

theorem skipDecorators_eq : skipDecorators = iterate decoratorRound false := rfl

/-- One more clause that begins with one of the given words. -/
def clauseRound (clauses : List String) (last : Span) : Parser (Round Span) := do
  let next ← currentKind
  if clauses.any (next == .keyword ·) then return .more (← skipClause)
  else return .done last

theorem compoundStatement_eq :
    compoundStatement = do
      let start ← currentSpan
      let isDecorated ← skipDecorators
      match compoundKind? (← get) with
      | none =>
          if isDecorated then unexpected "`def` or `class` after a decorator" else return none
      | some kind =>
          let last ← iterate (clauseRound kind.clauses) (← skipClause)
          return some (.unsupported kind.kindName (start.cover last)) := rfl

/-! ### Statements and lines -/

/-- One more equals sign of an assignment: what was read as the value is a target. -/
def targetRound (state : List Expr × Expr) : Parser (Round (List Expr × Expr)) := do
  if ← eat .equals then
    requireTarget .assign state.2
    return .more (state.1 ++ [state.2], ← expressions)
  else return .done state

theorem assignRest_eq (first : Expr) :
    assignRest first = do
      requireTarget .assign first
      let _ ← advance
      let (targets, value) ← iterate targetRound ([first], ← expressions)
      return .assign targets value := rfl

/-- What follows the first expressions of a statement, by the token after them. -/
def statementRest (first : Expr) : TokenKind → Parser (Span → Stmt)
  | .colon => annotatedRest first
  | .equals => assignRest first
  | .augmented symbol => augmentedRest first symbol
  | _ => pure (.expression first)

theorem expressionStatement_eq :
    expressionStatement = do
      let start ← currentSpan
      let first ← expressions
      let statement ← statementRest first (← currentKind)
      return statement (start.cover (← previousSpan)) := by
  unfold expressionStatement
  congr 1
  funext start
  congr 1
  funext first
  congr 1
  funext kind
  cases kind <;> rfl

/-- One more statement of a line. -/
def statementRound (statements : List Stmt) : Parser (Round (List Stmt)) := do
  let statements := statements ++ [← simpleStatement]
  if ← eat .semicolon then
    if ← lineEnd then return .done statements else return .more statements
  else if ← lineEnd then return .done statements
  else unexpected "`;` or end of line"

theorem simpleLine_eq : simpleLine = iterate statementRound [] := rfl

/-- One more line of a module. -/
def lineRound (body : List Stmt) : Parser (Round (List Stmt)) := do
  match ← currentKind with
  | .endOfFile => return .done body
  | .newline =>
      let _ ← advance
      return .more body
  | .indent => failHere .unexpectedIndent
  | _ => return .more (body ++ (← line))

theorem wholeModule_eq :
    wholeModule = do
      let body ← iterate lineRound []
      return ⟨body⟩ := rfl

end Parser

/-! ### Results of a source -/

theorem eq_ok_of_toOption {ε α : Type} {result : Except ε α} {value : α}
    (found : result.toOption = some value) : result = .ok value := by
  cases result with
  | error => contradiction
  | ok other => rw [Option.some.inj found]

/-- There is a value if something is seen of it. -/
theorem exists_eq_ok_of_toOption_map {ε α β : Type} {result : Except ε α} {view : α → β} {seen : β}
    (sees : result.toOption.map view = some seen) :
    ∃ value, result = .ok value ∧ view value = seen := by
  obtain ⟨value, found, isView⟩ := Option.map_eq_some_iff.mp sees
  exact ⟨value, eq_ok_of_toOption found, isView⟩

private theorem mapError_ok {ε δ α : Type} (change : ε → δ) (value : α) :
    (Except.ok value).mapError change = .ok value := rfl

private theorem mapError_error {ε δ α : Type} (change : ε → δ) (error : ε) :
    (Except.error error : Except ε α).mapError change = .error (change error) := rfl

theorem Module.ofSource_eq_ok_iff {source : String} {tree : Module} :
    ofSource source = .ok tree ↔
      ∃ tokens, tokenize source = .ok tokens ∧ ofTokens tokens = .ok tree := by
  rw [ofSource]
  cases tokenize source with
  | error halt => simp
  | ok tokens => cases parsed : ofTokens tokens <;> simp [parsed, mapError_ok, mapError_error]

/-- A fault of a source is a fault of its text or of its tokens. -/
theorem Module.ofSource_eq_fault_iff {source : String} {error : ParseError} :
    ofSource source = .error (.fault error) ↔
      (∃ cause, tokenize source = .error (.fault cause) ∧
        error = ⟨.lexical cause, cause.span⟩) ∨
      ∃ tokens, tokenize source = .ok tokens ∧ ofTokens tokens = .error error := by
  rw [ofSource]
  cases tokenize source with
  | error halt => cases halt <;> simp [Halt.map, eq_comm]
  | ok tokens => cases parsed : ofTokens tokens <;> simp [parsed, mapError_ok, mapError_error]

theorem Module.ofSource_eq_overflow_iff {source : String} {operation : Overflow} :
    ofSource source = .error (.overflow operation) ↔
      tokenize source = .error (.overflow operation) := by
  rw [ofSource]
  cases tokenize source with
  | error halt => cases halt <;> simp [Halt.map]
  | ok tokens => cases parsed : ofTokens tokens <;> simp [parsed, mapError_ok, mapError_error]

end Transpiler
