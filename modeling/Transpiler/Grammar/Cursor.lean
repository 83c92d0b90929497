import Transpiler.Grammar.Error

/-!
Contract: reading tokens from left to right.

Owns: the place reached in the tokens, the steps that look at or take a token, and
repetition. The end-of-file token is never taken, so reading stops at the first one.
-/

namespace Transpiler

/-- A place among the tokens: those still to be read, and the location of the one read
last. -/
structure Cursor where
  remaining : List Token
  previous : Span
deriving DecidableEq, Repr

namespace Cursor

/-- The place before the first token. -/
def start (tokens : List Token) : Cursor :=
  ⟨tokens, .dummy⟩

/-- The token to be read next; past the last one, an end of file. -/
def current (cursor : Cursor) : Token :=
  cursor.remaining.headD ⟨.endOfFile, .dummy⟩

/-- The kind of the token after the current one. -/
def nextKind (cursor : Cursor) : TokenKind :=
  ((cursor.remaining.drop 1).head?.map (·.kind)).getD .endOfFile

/-- The place after `count` further tokens. -/
def skip (cursor : Cursor) (count : Nat) : Cursor :=
  let skipped := cursor.remaining.take count
  ⟨cursor.remaining.drop count, (skipped.getLast?.map (·.span)).getD cursor.previous⟩

/-- The place after the current token, unless that is the end of file. -/
def advance (cursor : Cursor) : Cursor :=
  if cursor.current.kind = .endOfFile then cursor else cursor.skip 1

end Cursor

/-- A grammar rule: from a place among the tokens it yields a value and the place it
stopped at, or the error that stopped it. -/
abbrev Parser := StateT Cursor (Except ParseError)

namespace Parser

def current : Parser Token :=
  return (← get).current

def currentKind : Parser TokenKind :=
  return (← get).current.kind

def currentSpan : Parser Span :=
  return (← get).current.span

/-- The location of the token read last. -/
def previousSpan : Parser Span :=
  return (← get).previous

/-- Takes the current token and yields its location. -/
def advance : Parser Span := do
  let span ← currentSpan
  modify Cursor.advance
  return span

def isAt (kind : TokenKind) : Parser Bool :=
  return (← currentKind) == kind

def isAtKeyword (word : String) : Parser Bool :=
  isAt (.keyword word)

/-- Takes the current token if it is of the given kind. -/
def eat (kind : TokenKind) : Parser Bool := do
  if ← isAt kind then
    let _ ← advance
    return true
  else return false

def eatKeyword (word : String) : Parser Bool :=
  eat (.keyword word)

/-- Whether a token ends a line. -/
def endsLine : TokenKind → Bool
  | .newline | .endOfFile => true
  | _ => false

/-- The tokens from here up to the first one that satisfies `stops`, or up to the end of
file. -/
def takeUntil (stops : TokenKind → Bool) : Parser (List Token) := do
  let cursor ← get
  let tokens := cursor.remaining.takeWhile fun token =>
    token.kind != .endOfFile && !stops token.kind
  set (cursor.skip tokens.length)
  return tokens

/-- An error at the current token. -/
def failHere {α : Type} (kind : ParseErrorKind) : Parser α := do
  throw ⟨kind, ← currentSpan⟩

/-- The current token does not fit what is expected. -/
def unexpected {α : Type} (expected : String) : Parser α := do
  throw (.unexpected (← current) expected)

/-- Takes the closing delimiter of one opened at `openedAt`. A line that ends first leaves
the delimiter unclosed. -/
def expectClosing (closing : TokenKind) (opening : String) (openedAt : Span)
    (expected : String) : Parser Span := do
  if ← isAt closing then advance
  else if endsLine (← currentKind) then failHere (.unclosedDelimiter opening openedAt)
  else unexpected expected

/-- The outcome of one round of a repetition. -/
inductive Round (σ : Type) where
  | more (state : σ)
  | done (state : σ)
deriving DecidableEq, Repr

/-- Repeats `round` until it is done, but at most once more than there are tokens in
`bound`. -/
def iterateOver {σ : Type} (round : σ → Parser (Round σ)) : List Token → σ → Parser σ
  | [], state => do
      match ← round state with
      | .more last | .done last => return last
  | _ :: bound, state => do
      match ← round state with
      | .more next => iterateOver round bound next
      | .done last => return last

/-- Repeats `round` until it is done. Every round that asks for more takes a token, so
the tokens that remain bound the number of rounds. -/
def iterate {σ : Type} (round : σ → Parser (Round σ)) (initial : σ) : Parser σ := do
  iterateOver round (← get).remaining initial

end Parser
end Transpiler
