import Transpiler.Grammar.Skip

/-!
Contract: the expression rules.

There is one rule per rank, loosest first. Binary operators group to the left; `**`
groups to the right and binds tighter than a sign on its left. Rules whose result
has no node in the tree (`or`, `and`, comparisons, conditional expressions) still
read their operands and then yield a node outside the subset.

Brackets, call arguments, signs, `not`, exponents and the like lead one nesting
level deeper. The rules of one level are built from those of the next deeper level,
and the deepest level has none below it, so the rules need no recursion among
themselves.
-/

namespace Transpiler

/-- The rules that deeper constructs are entered by. -/
structure Level where
  expression : Parser Expr
  namedExpression : Parser Expr
  inversion : Parser Expr
  factor : Parser Expr
  primary : Parser Expr

/-- Whether a token can begin an expression. -/
def startsExpression : TokenKind → Bool
  | .ident _ | .int _ | .bigInt _ | .float _ | .str _ | .bytes _ | .formattedString
  | .trueWord | .falseWord | .noneWord | .ellipsis | .notWord | .plus | .minus | .tilde
  | .leftParen | .leftBracket | .leftBrace => true
  | .keyword word => word == "lambda" || word == "await"
  | _ => false

/-- The binary operator of a token, powers excepted. -/
def binaryOperator? : TokenKind → Option BinaryOp
  | .bar => some .bitOr
  | .caret => some .bitXor
  | .ampersand => some .bitAnd
  | .shiftLeft => some .shiftLeft
  | .shiftRight => some .shiftRight
  | .plus => some .add
  | .minus => some .sub
  | .star => some .mult
  | .slash => some .div
  | .doubleSlash => some .floorDiv
  | .percent => some .mod
  | .atSign => some .matMult
  | _ => none

/-- The sign of a token. -/
def signOperator? : TokenKind → Option UnaryOp
  | .plus => some .plus
  | .minus => some .minus
  | .tilde => some .invert
  | _ => none

/-- The constant or name that a single token forms. -/
def simpleAtom? (token : Token) : Option Expr :=
  let constant (value : Constant) : Option Expr := some (.constant value token.span)
  match token.kind with
  | .ident name => some (.name name token.span)
  | .int value => constant (.int value)
  | .bigInt digits => constant (.bigInt digits)
  | .float number => constant (.float number)
  | .trueWord => constant (.bool true)
  | .falseWord => constant (.bool false)
  | .noneWord => constant .none
  | .ellipsis => constant .ellipsis
  | _ => none

/-- A string, bytes or formatted string token. -/
def isStringToken (token : Token) : Bool :=
  match token.kind with
  | .str _ | .bytes _ | .formattedString => true
  | _ => false

/-- The value of adjacent string tokens taken together: all text, all bytes, or outside
the subset if one is formatted. Bytes do not mix with the others. -/
def joinStrings (parts : List Token) (span : Span) : Except ParseError Expr :=
  let texts := parts.filterMap fun part =>
    match part.kind with
    | .str text => some text
    | _ => none
  let contents := parts.filterMap fun part =>
    match part.kind with
    | .bytes content => some content
    | _ => none
  let isFormatted := parts.any (·.kind == .formattedString)
  if !contents.isEmpty && (!texts.isEmpty || isFormatted) then .error ⟨.mixedLiterals, span⟩
  else if isFormatted then .ok (.unsupported "JoinedStr" span)
  else if !contents.isEmpty then .ok (.constant (.bytes contents.flatten) span)
  else .ok (.constant (.str (String.join texts)) span)

/-- The kind of display that a pair of braces forms. -/
def braceKind (startsWithUnpacking : Bool) (contents : BracketContents) : String :=
  if contents.count = 0 then "Dict"
  else if contents.isComprehension then
    if contents.hasColon then "DictComp" else "SetComp"
  else if contents.hasColon || startsWithUnpacking then "Dict"
  else "Set"

namespace Parser

/-- Runs a rule one nesting level deeper, if there is one. -/
def nested {α : Type} (deeper : Option Level) (rule : Level → Parser α) : Parser α :=
  match deeper with
  | some level => rule level
  | none => failHere .nestingTooDeep

/-! ### Lists of expressions -/

/-- The rest of an expression list after its first element; a comma makes it a tuple. -/
def tupleRest (expression : Parser Expr) (first : Expr) : Parser Expr := do
  if !(← isAt .comma) then return first
  else
    let elements ← iterate (fun elements => do
      if !(← eat .comma) then return .done elements
      else if startsExpression (← currentKind) then
        return .more (elements ++ [← expression])
      else return .done elements) [first]
    return .tuple elements (first.span.cover (← previousSpan))

/-- A `yield` with its operands. -/
def yieldExpression (expression : Parser Expr) : Parser Expr := do
  let start ← advance
  if ← eatKeyword "from" then
    let _ ← expression
    unsupportedSince "YieldFrom" start
  else
    if startsExpression (← currentKind) then
      let _ ← tupleRest expression (← expression)
    unsupportedSince "Yield" start

/-- One expression, several separated by commas, or a `yield`. -/
def expressionList (expression : Parser Expr) : Parser Expr := do
  if ← isAtKeyword "yield" then yieldExpression expression
  else tupleRest expression (← expression)

/-! ### Atoms -/

/-- Adjacent string literals. -/
def strings : Parser Expr := do
  let start ← currentSpan
  let cursor ← get
  let parts := cursor.remaining.takeWhile isStringToken
  set (cursor.skip parts.length)
  joinStrings parts (start.cover (← previousSpan))

/-- A parenthesized expression, tuple, `yield` or generator. -/
def parenthesized (level : Level) : Parser Expr := do
  let opened ← advance
  let close : Parser Span := expectClosing .rightParen "(" opened "`)`"
  if ← isAt .rightParen then return .tuple [] (opened.cover (← advance))
  else if ← isAtKeyword "yield" then
    let inner ← yieldExpression level.expression
    let _ ← close
    return inner
  else
    let first ← level.namedExpression
    if ← isAtKeyword "for" then
      let _ ← skipBracketContents
      return .unsupported "GeneratorExp" (opened.cover (← close))
    else
      let inner ← tupleRest level.expression first
      let closed ← close
      match inner with
      | .tuple elements _ => return .tuple elements (opened.cover closed)
      | _ => return inner

/-- A list display or comprehension. -/
def listDisplay (level : Level) : Parser Expr := do
  let opened ← advance
  let (elements, isComprehension) ← iterate (fun (elements, _) => do
    if !startsExpression (← currentKind) then return .done (elements, false)
    else
      let elements := elements ++ [← level.namedExpression]
      if elements.length = 1 && (← isAtKeyword "for") then return .done (elements, true)
      else if ← eat .comma then return .more (elements, false)
      else return .done (elements, false)) (([] : List Expr), false)
  if isComprehension then
    let _ ← skipBracketContents
    let closed ← expectClosing .rightBracket "[" opened "`]`"
    return .unsupported "ListComp" (opened.cover closed)
  else
    let closed ← expectClosing .rightBracket "[" opened "`,` or `]`"
    return .list elements (opened.cover closed)

/-- A dict or set display or comprehension. -/
def braces : Parser Expr := do
  let opened ← advance
  let startsWithUnpacking ← isAt .doubleStar
  let contents ← skipBracketContents
  let closed ← expectClosing .rightBrace "\x7b" opened "`\x7d`"
  return .unsupported (braceKind startsWithUnpacking contents) (opened.cover closed)

def atom (deeper : Option Level) : Parser Expr := do
  let token ← current
  match simpleAtom? token with
  | some expression =>
      let _ ← advance
      return expression
  | none =>
      if isStringToken token then strings
      else
        match token.kind with
        | .leftParen => nested deeper parenthesized
        | .leftBracket => nested deeper listDisplay
        | .leftBrace => nested deeper fun _ => braces
        | _ => throw (.noExpression token)

/-! ### Calls, members and subscripts -/

/-- The arguments of a call after its opening parenthesis, through the closing one. -/
def callArguments (opened : Span) (level : Level) : Parser (List Expr) := do
  let arguments ← iterate (fun arguments => do
    match ← currentKind with
    | .rightParen | .newline | .endOfFile => return .done arguments
    | .star | .doubleStar => failHere (.unsupportedSyntax "argument unpacking")
    | _ =>
        let argument ← level.namedExpression
        if (← isAt .equals) && argument.isName then
          throw ⟨.unsupportedSyntax "keyword argument", argument.span⟩
        else if ← isAtKeyword "for" then
          let _ ← skipBracketContents
          return .done (arguments ++ [← unsupportedSince "GeneratorExp" argument.span])
        else if ← eat .comma then return .more (arguments ++ [argument])
        else return .done (arguments ++ [argument])) []
  let _ ← expectClosing .rightParen "(" opened "`,` or `)`"
  return arguments

/-- One call, member access or subscript after an expression. -/
def trailer (deeper : Option Level) (value : Expr) : Parser (Round Expr) := do
  match ← currentKind with
  | .leftParen =>
      let opened ← advance
      let arguments ← nested deeper (callArguments opened)
      return .more (.call value arguments (value.span.cover (← previousSpan)))
  | .dot =>
      let _ ← advance
      match ← currentKind with
      | .ident name => return .more (.member value name (value.span.cover (← advance)))
      | _ => unexpected "attribute name"
  | .leftBracket =>
      let opened ← advance
      let _ ← skipBracketContents
      let _ ← expectClosing .rightBracket "[" opened "`]`"
      return .more (← unsupportedSince "Subscript" value.span)
  | _ => return .done value

def primary (deeper : Option Level) : Parser Expr := do
  iterate (trailer deeper) (← atom deeper)

/-! ### Operators -/

/-- A primary expression, awaited or not, with an optional exponent. -/
def power (deeper : Option Level) : Parser Expr := do
  let base ←
    if ← isAtKeyword "await" then do
      let start ← advance
      let _ ← nested deeper (·.primary)
      unsupportedSince "Await" start
    else primary deeper
  if ← eat .doubleStar then
    let exponent ← nested deeper (·.factor)
    return .binary base .pow exponent (base.span.cover exponent.span)
  else return base

/-- A sign with its operand, or a power. -/
def factor (deeper : Option Level) : Parser Expr := do
  match signOperator? (← currentKind) with
  | some operator =>
      let start ← advance
      let operand ← nested deeper (·.factor)
      return .unary operator operand (start.cover operand.span)
  | none => power deeper

/-- Operands joined by the binary operators of one rank, grouped to the left. -/
def binaryLevel (operand : Parser Expr) (rank : Nat) : Parser Expr := do
  iterate (fun left => do
    match (binaryOperator? (← currentKind)).filter (·.precedence == rank) with
    | some operator =>
        let _ ← advance
        let right ← operand
        return .more (.binary left operator right (left.span.cover right.span))
    | none => return .done left) (← operand)

/-- The ranks of the binary operators below the signs, tightest first. -/
def binaryRanks : List Nat := [6, 5, 4, 3, 2, 1]

/-- Operands joined by any binary operators. -/
def binary (deeper : Option Level) : Parser Expr :=
  binaryRanks.foldl binaryLevel (factor deeper)

/-- Operands joined by separators; one separator or more makes a node outside the subset. -/
def chain (kindName : String) (separator : Parser Bool) (operand : Parser Expr) :
    Parser Expr := do
  let first ← operand
  if ← separator then
    let _ ← operand
    iterate (fun () => do
      if ← separator then
        let _ ← operand
        return .more ()
      else return .done ()) ()
    unsupportedSince kindName first.span
  else return first

/-- Takes a comparison operator, which may be two words. -/
def comparisonOperator : Parser Bool := do
  match ← currentKind with
  | .comparison _ | .keyword "in" =>
      let _ ← advance
      return true
  | .notWord =>
      if (← get).nextKind == .keyword "in" then
        let _ ← advance
        let _ ← advance
        return true
      else return false
  | .keyword "is" =>
      let _ ← advance
      let _ ← eat .notWord
      return true
  | _ => return false

def comparison (deeper : Option Level) : Parser Expr :=
  chain "Compare" comparisonOperator (binary deeper)

/-- A negation, or a comparison. -/
def inversion (deeper : Option Level) : Parser Expr := do
  if ← isAt .notWord then
    let start ← advance
    let operand ← nested deeper (·.inversion)
    return .unary .not operand (start.cover operand.span)
  else comparison deeper

def conjunction (deeper : Option Level) : Parser Expr :=
  chain "BoolOp" (eatKeyword "and") (inversion deeper)

def disjunction (deeper : Option Level) : Parser Expr :=
  chain "BoolOp" (eatKeyword "or") (conjunction deeper)

/-! ### Whole expressions -/

/-- A lambda; its parameters are passed over. -/
def lambda (level : Level) : Parser Expr := do
  let start ← advance
  let cursor ← get
  match lambdaParameters 0 cursor.remaining with
  | .error found => throw (.unexpected found "`:`")
  | .ok count =>
      set (cursor.skip (count + 1))
      let _ ← level.expression
      unsupportedSince "Lambda" start

/-- A lambda, a conditional expression or anything tighter. -/
def expression (deeper : Option Level) : Parser Expr := do
  if ← isAtKeyword "lambda" then nested deeper lambda
  else
    let body ← disjunction deeper
    if ← eatKeyword "if" then
      let _ ← disjunction deeper
      if ← eatKeyword "else" then
        let _ ← nested deeper (·.expression)
        unsupportedSince "IfExp" body.span
      else unexpected "`else`"
    else return body

/-- An expression that may be a name bound on the spot. -/
def namedExpression (deeper : Option Level) : Parser Expr := do
  let value ← expression deeper
  if value.isName && (← isAt (.unsupported ":=")) then
    let _ ← advance
    let _ ← nested deeper (·.expression)
    unsupportedSince "NamedExpr" value.span
  else return value

end Parser

namespace Level

/-- The rules of a level above a given one. -/
def above (deeper : Option Level) : Level where
  expression := Parser.expression deeper
  namedExpression := Parser.namedExpression deeper
  inversion := Parser.inversion deeper
  factor := Parser.factor deeper
  primary := Parser.primary deeper

/-- The rules with room for a given number of nesting levels below. -/
def withRoom : Nat → Level
  | 0 => above none
  | room + 1 => above (some (withRoom room))

/-- The number of nesting levels that an expression may have. -/
def nestingLimit : Nat := 100

/-- The rules that statements are built from. -/
def outermost : Level := withRoom nestingLimit

end Level
end Transpiler
