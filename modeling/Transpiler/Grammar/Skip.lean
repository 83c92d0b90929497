import Transpiler.Grammar.Cursor
import Transpiler.Syntax.Tree

/-!
Contract: stretches of tokens that are passed over unread.

The contents of subscripts, displays and comprehensions, and the clauses of compound
statements, are only measured: brackets and blocks are matched to find where they
end, and what stands inside is not checked.
-/

namespace Transpiler

/-- What stood at the top level of skipped bracket contents. -/
structure BracketContents where
  /-- The number of tokens. -/
  count : Nat
  /-- A colon that does not belong to a lambda. -/
  hasColon : Bool
  isComprehension : Bool
deriving DecidableEq, Repr

namespace BracketContents

/-- Measures contents up to the bracket that closes them or the end of the line, with
`depth` brackets open and `lambdas` lambdas waiting for their colon. -/
def measureFrom (depth lambdas : Nat) (contents : BracketContents) :
    List Token → BracketContents
  | [] => contents
  | token :: rest =>
      let counted := { contents with count := contents.count + 1 }
      match token.kind with
      | .newline | .endOfFile => contents
      | .leftParen | .leftBracket | .leftBrace => measureFrom (depth + 1) lambdas counted rest
      | .rightParen | .rightBracket | .rightBrace =>
          match depth with
          | 0 => contents
          | outer + 1 => measureFrom outer lambdas counted rest
      | .keyword "lambda" =>
          measureFrom depth (if depth = 0 then lambdas + 1 else lambdas) counted rest
      | .keyword "for" =>
          measureFrom depth lambdas
            { counted with isComprehension := counted.isComprehension || depth = 0 } rest
      | .colon =>
          if depth = 0 then
            match lambdas with
            | waiting + 1 => measureFrom depth waiting counted rest
            | 0 => measureFrom depth 0 { counted with hasColon := true } rest
          else measureFrom depth lambdas counted rest
      | _ => measureFrom depth lambdas counted rest

def measure (tokens : List Token) : BracketContents :=
  measureFrom 0 0 ⟨0, false, false⟩ tokens

end BracketContents

/-- What is left to read of a lambda's parameters: the number of tokens before its colon,
or the token that stands where the colon should be. -/
def lambdaParameters (depth : Nat) : List Token → Except Token Nat
  | [] => .error ⟨.endOfFile, .dummy⟩
  | token :: rest =>
      let onward (depth : Nat) : Except Token Nat := (lambdaParameters depth rest).map (· + 1)
      match token.kind with
      | .newline | .endOfFile => .error token
      | .leftParen | .leftBracket | .leftBrace => onward (depth + 1)
      | .rightParen | .rightBracket | .rightBrace =>
          match depth with
          | 0 => .error token
          | outer + 1 => onward outer
      | .colon => if depth = 0 then .ok 0 else onward depth
      | _ => onward depth

/-- The tokens of a block after its first indent, through the dedent that closes it, with
`depth` blocks open. -/
def blockTokens (depth : Nat) : List Token → List Token
  | [] => []
  | token :: rest =>
      match depth with
      | 0 => []
      | outer + 1 =>
          match token.kind with
          | .endOfFile => []
          | .indent => token :: blockTokens (outer + 2) rest
          | .dedent => token :: blockTokens outer rest
          | _ => token :: blockTokens (outer + 1) rest

/-- A token that only marks lines and blocks. -/
def isLayoutKind : TokenKind → Bool
  | .newline | .indent | .dedent => true
  | _ => false

namespace Parser

/-- Passes over the contents of brackets and tells what stood in them. -/
def skipBracketContents : Parser BracketContents := do
  let cursor ← get
  let contents := BracketContents.measure cursor.remaining
  set (cursor.skip contents.count)
  return contents

/-- Passes over one clause of a compound statement: its header through the colon, then its
body on the same line or as a block. Yields the location of its last token. -/
def skipClause : Parser Span := do
  let first ← currentSpan
  let header ← takeUntil endsLine
  if !header.any (·.kind == .colon) then unexpected "`:`"
  else
    let last := (header.getLast?.map (·.span)).getD first
    let _ ← eat .newline
    if (header.getLast?.map (·.kind)) != some .colon then return last
    else if !(← eat .indent) then failHere .expectedIndentedBlock
    else
      let cursor ← get
      let body := blockTokens 1 cursor.remaining
      set (cursor.skip body.length)
      let visible := body.filter fun token => !isLayoutKind token.kind
      return (visible.getLast?.map (·.span)).getD last

/-- A node for a construct outside the subset that began at `start` and ends with the token
read last. -/
def unsupportedSince (kindName : String) (start : Span) : Parser Expr :=
  return .unsupported kindName (start.cover (← previousSpan))

end Parser
end Transpiler
