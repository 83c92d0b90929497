import Transpiler.Grammar.Expression
import Transpiler.Grammar.Target
import Transpiler.Token.Layout

/-!
Contract: the statement rules, and from source text to a module.

A module is a sequence of lines. A line is a compound statement with all of its
clauses, which is kept as one node outside the subset, or simple statements
separated by semicolons. The first error stops.
-/

namespace Transpiler

/-- The node name of a one-line statement that is passed over to its end. -/
def keywordStatement? (word : String) : Option String :=
  match word with
  | "return" => some "Return"
  | "import" => some "Import"
  | "from" => some "ImportFrom"
  | "del" => some "Delete"
  | "global" => some "Global"
  | "nonlocal" => some "Nonlocal"
  | "raise" => some "Raise"
  | "assert" => some "Assert"
  | "break" => some "Break"
  | "continue" => some "Continue"
  | _ => none

/-- A kind of compound statement: its node name and the words that begin its further
clauses. -/
structure CompoundKind where
  kindName : String
  clauses : List String
deriving DecidableEq, Repr

/-- The compound statement that begins at a place. -/
def compoundKind? (cursor : Cursor) : Option CompoundKind :=
  match cursor.current.kind with
  | .keyword "if" => some ⟨"If", ["elif", "else"]⟩
  | .keyword "while" => some ⟨"While", ["else"]⟩
  | .keyword "for" => some ⟨"For", ["else"]⟩
  | .keyword "try" => some ⟨"Try", ["except", "else", "finally"]⟩
  | .keyword "with" => some ⟨"With", []⟩
  | .keyword "def" => some ⟨"FunctionDef", []⟩
  | .keyword "class" => some ⟨"ClassDef", []⟩
  | .keyword "async" =>
      match cursor.nextKind with
      | .keyword "def" => some ⟨"AsyncFunctionDef", []⟩
      | .keyword "for" => some ⟨"AsyncFor", ["else"]⟩
      | .keyword "with" => some ⟨"AsyncWith", []⟩
      | _ => none
  | _ => none

namespace Parser

/-! ### Compound statements -/

/-- Passes over decorators, one to a line, and tells whether there were any. -/
def skipDecorators : Parser Bool := do
  iterate (fun found => do
    if ← eat .atSign then
      let _ ← takeUntil endsLine
      let _ ← eat .newline
      return .more true
    else return .done found) false

/-- A compound statement with all of its clauses, if one begins here. -/
def compoundStatement : Parser (Option Stmt) := do
  let start ← currentSpan
  let isDecorated ← skipDecorators
  match compoundKind? (← get) with
  | none =>
      if isDecorated then unexpected "`def` or `class` after a decorator" else return none
  | some kind =>
      let last ← iterate (fun last => do
        let next ← currentKind
        if kind.clauses.any (next == .keyword ·) then return .more (← skipClause)
        else return .done last) (← skipClause)
      return some (.unsupported kind.kindName (start.cover last))

/-! ### Simple statements -/

/-- One expression, several, or a `yield`, as statements hold them. -/
def expressions : Parser Expr :=
  expressionList Level.outermost.expression

def requireTarget (use : TargetUse) (target : Expr) : Parser Unit :=
  liftM (checkTarget use target)

/-- Whether a token ends a simple statement. -/
def endsSimple (kind : TokenKind) : Bool :=
  kind == .semicolon || endsLine kind

/-- The rest of an annotated target, from its colon. -/
def annotatedRest (target : Expr) : Parser (Span → Stmt) := do
  requireTarget .annotated target
  let _ ← advance
  let annotation ← Level.outermost.expression
  if ← eat .equals then
    let value ← expressions
    return .annotated target annotation (some value)
  else if endsSimple (← currentKind) then return .annotated target annotation none
  else unexpected "`=`"

/-- The rest of an assignment, from its first equals sign. Every expression but the last
is a target. -/
def assignRest (first : Expr) : Parser (Span → Stmt) := do
  requireTarget .assign first
  let _ ← advance
  let (targets, value) ← iterate (fun (targets, value) => do
    if ← eat .equals then
      requireTarget .assign value
      return .more (targets ++ [value], ← expressions)
    else return .done (targets, value)) ([first], ← expressions)
  return .assign targets value

/-- The rest of an augmented assignment, from its sign. -/
def augmentedRest (target : Expr) (symbol : String) : Parser (Span → Stmt) := do
  match BinaryOp.ofSymbol? symbol with
  | none => failHere (.unsupportedSyntax ("`" ++ symbol ++ "=`"))
  | some operator =>
      let _ ← advance
      requireTarget .augmented target
      let value ← expressions
      return .augmented target operator value

/-- A statement that begins with an expression. -/
def expressionStatement : Parser Stmt := do
  let start ← currentSpan
  let first ← expressions
  let statement ←
    match ← currentKind with
    | .colon => annotatedRest first
    | .equals => assignRest first
    | .augmented symbol => augmentedRest first symbol
    | _ => pure (.expression first)
  return statement (start.cover (← previousSpan))

def simpleStatement : Parser Stmt := do
  match ← currentKind with
  | .passWord => return .pass (← advance)
  | .keyword word =>
      match keywordStatement? word with
      | some kindName =>
          let start ← advance
          let _ ← takeUntil endsSimple
          return .unsupported kindName (start.cover (← previousSpan))
      | none => expressionStatement
  | _ => expressionStatement

/-! ### Lines and modules -/

/-- Takes the end of a line; the end of file also ends one but stays. -/
def lineEnd : Parser Bool := do
  if ← eat .newline then return true
  else return (← currentKind) == .endOfFile

/-- Simple statements separated by semicolons, up to the end of their line. -/
def simpleLine : Parser (List Stmt) := do
  iterate (fun statements => do
    let statements := statements ++ [← simpleStatement]
    if ← eat .semicolon then
      if ← lineEnd then return .done statements else return .more statements
    else if ← lineEnd then return .done statements
    else unexpected "`;` or end of line") []

/-- One line, or one compound statement with all of its lines. -/
def line : Parser (List Stmt) := do
  match ← compoundStatement with
  | some statement => return [statement]
  | none => simpleLine

/-- A whole module. -/
def wholeModule : Parser Module := do
  let body ← iterate (fun body => do
    match ← currentKind with
    | .endOfFile => return .done body
    | .newline =>
        let _ ← advance
        return .more body
    | .indent => failHere .unexpectedIndent
    | _ => return .more (body ++ (← line))) []
  return ⟨body⟩

end Parser

namespace Module

/-- The module that tokens form. Nothing after the first end of file is read. -/
def ofTokens (tokens : List Token) : Except ParseError Module :=
  (Parser.wholeModule.run (.start tokens)).map (·.1)

/-- The module that a source text forms. -/
def ofSource (source : String) : Except (Halt ParseError) Module :=
  match tokenize source with
  | .error halt => .error (halt.map fun cause => ⟨.lexical cause, cause.span⟩)
  | .ok tokens => (ofTokens tokens).mapError .fault

end Module
end Transpiler
