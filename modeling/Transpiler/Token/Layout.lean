import Transpiler.Source.Counter
import Transpiler.Text.Slice
import Transpiler.Token.Value

/-!
Contract: from source text to tokens, with logical lines and blocks.

A line break ends a logical line unless brackets are open or the line has no token.
The width of the blanks before the first token of a logical line decides its block:
a greater width than that of the block around it opens a block, a smaller one
closes blocks until a block of that width is reached. Tabs advance to the next
multiple of eight columns, and a form feed starts counting again. Columns are numbers
of 32 bits; where one does not fit, the first token of the line ends the program.
-/

namespace Transpiler

/-- The column after one character of a line's margin, if it fits. -/
@[inline] def marginStep (column : Nat) (character : Char) : Except Overflow Nat :=
  if character == ' ' then Overflow.addition.check (column + 1)
  else if character == '\t' then Overflow.multiplication.check ((column / 8 + 1) * 8)
  else if character == '\x0c' then .ok 0
  else .ok column

/-- The column after more of a line's margin, if it fits all along. -/
def countColumns (column : Nat) (text : List Char) : Except Overflow Nat :=
  text.foldlM marginStep column

/-- The width of the text between the start of a line and its first token. -/
def marginWidth (margin : List Char) : Except Overflow Nat :=
  countColumns 0 margin

namespace Layout

/-- The margin of a line that has no token yet: where the line starts, and the width of
the text since then. -/
structure Margin where
  start : Nat
  width : Except Overflow Nat
deriving Repr

/-- The margin at the start of a line. -/
def Margin.empty (start : Nat) : Margin :=
  ⟨start, marginWidth []⟩

/-- The margin with more text. -/
def Margin.extend (margin : Margin) (text : List Char) : Margin :=
  { margin with width := margin.width.bind (countColumns · text) }

/-- What decides the layout of the text to come. -/
structure State where
  /-- The number of open brackets. -/
  depth : Nat
  /-- The margin, while the logical line has no token. -/
  margin : Option Margin
  /-- The widths of the open blocks, innermost first. -/
  blocks : List Nat
deriving Repr

/-- The state at the start of a source. -/
def State.initial : State :=
  ⟨0, some (.empty 0), []⟩

/-- The width of the innermost block; outside all blocks it is zero. -/
def innermost (blocks : List Nat) : Nat :=
  blocks.headD 0

/-- The block marks before the first token of a line, and the blocks open from then on.
The line's width must be that of an open block. -/
def enterLine (blocks : List Nat) (margin : Margin) (offset : Nat) :
    Except (Halt LexError) (List Token × List Nat) :=
  let blank : Span := ⟨margin.start, offset⟩
  match margin.width with
  | .error operation => .error (.overflow operation)
  | .ok width =>
      if innermost blocks < width then .ok ([⟨.indent, blank⟩], width :: blocks)
      else
        let closed := blocks.takeWhile (width < ·)
        let remaining := blocks.dropWhile (width < ·)
        if innermost remaining = width then
          .ok (closed.map fun _ => ⟨.dedent, .point offset⟩, remaining)
        else .error (.fault ⟨.inconsistentDedent, blank⟩)

/-- The number of open brackets after a token. -/
def depthAfter (depth : Nat) : TokenKind → Nat
  | .leftParen | .leftBracket | .leftBrace => depth + 1
  | .rightParen | .rightBracket | .rightBrace => depth - 1
  | _ => depth

/-- The tokens that a lexeme at a byte offset adds, and the state after it. Text that
begins no lexeme is reported before the layout of its line, every other fault of a
lexeme after it. -/
def step (state : State) (offset : Nat) (lexeme : Lexeme) :
    Except (Halt LexError) (List Token × State) :=
  match lexeme.kind with
  | .comment => .ok ([], state)
  | .blank | .continuation =>
      .ok ([], { state with margin := state.margin.map (·.extend lexeme.text) })
  | .lineBreak =>
      if state.depth = 0 then
        let stop := offset + Text.byteLength lexeme.text
        let ended := if state.margin.isNone then [⟨.newline, ⟨offset, stop⟩⟩] else []
        .ok (ended, { state with margin := some (.empty stop) })
      else .ok ([], state)
  | .stray =>
      let span : Span := ⟨offset, offset + Text.byteLength lexeme.text⟩
      .error (.fault ⟨.invalidCharacter (lexeme.text.headD '\x00'), span⟩)
  | _ => do
      let (marks, blocks) ←
        match state.margin with
        | some margin => enterLine state.blocks margin offset
        | none => pure ([], state.blocks)
      let span : Span := ⟨offset, offset + Text.byteLength lexeme.text⟩
      match lexeme.token? with
      | .error cause => .error (.fault ⟨cause, span⟩)
      | .ok none => .ok (marks, ⟨state.depth, none, blocks⟩)
      | .ok (some kind) =>
          .ok (marks ++ [⟨kind, span⟩], ⟨depthAfter state.depth kind, none, blocks⟩)

/-- The tokens that end a source: the last line is closed, then every block. -/
def finish (state : State) (offset : Nat) : List Token :=
  let mark (kind : TokenKind) : Token := ⟨kind, .point offset⟩
  (if state.margin.isNone then [mark .newline] else [])
    ++ state.blocks.map (fun _ => mark .dedent) ++ [mark .endOfFile]

/-- The tokens of lexemes that begin at a byte offset. -/
def arrange (state : State) (offset : Nat) : List Lexeme → Except (Halt LexError) (List Token)
  | [] => .ok (finish state offset)
  | lexeme :: rest => do
      let (tokens, next) ← step state offset lexeme
      let more ← arrange next (offset + Text.byteLength lexeme.text) rest
      return tokens ++ more

end Layout

/-- The tokens of a source. The first fault stops, and so does the first overflow. -/
def tokenize (source : String) : Except (Halt LexError) (List Token) :=
  let text := source.toList
  if Span.offsetLimit < Text.byteLength text then .error (.fault ⟨.sourceTooLarge, .dummy⟩)
  else Layout.arrange .initial 0 (Lexeme.split text)

theorem tokenize_of_large {source : String} (large : Span.offsetLimit < source.utf8ByteSize) :
    tokenize source = .error (.fault ⟨.sourceTooLarge, .dummy⟩) := by
  rw [← Text.byteLength_toList] at large
  exact if_pos large

theorem tokenize_of_small {source : String} (small : source.utf8ByteSize ≤ Span.offsetLimit) :
    tokenize source = Layout.arrange .initial 0 (Lexeme.split source.toList) := by
  rw [← Text.byteLength_toList] at small
  exact if_neg (Nat.not_lt.mpr small)

end Transpiler
