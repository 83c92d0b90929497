import Mathlib.Data.List.Chain
import Transpiler.Proofs.Grammar.Balance
import Transpiler.Proofs.Token.Columns
import Transpiler.Proofs.Token.Joining

/-!
Contract: how the tokens of a source mark its lines and its blocks.

Owns: which kinds of tokens stand side by side, that the marks of blocks pair up, what is known
of the open blocks at every point of the scan, and which lines fit none of them.

Does not own: where tokens stand.
-/

namespace Transpiler

/-! ### Which tokens stand side by side -/

/-- Whether a token may stand directly after another one. -/
def TokenKind.mayFollow (previous : TokenKind) : TokenKind → Bool
  | .newline => !previous.isLayout
  | .indent => previous == .newline
  | .dedent | .endOfFile => previous == .newline || previous == .dedent
  | _ => previous != .endOfFile

/-- No text stands for a mark of lines, blocks or the end of the source. -/
theorem Lexeme.isLayout_of_token? {text : List Char} {lexeme : Lexeme} {kind : TokenKind}
    (member : lexeme ∈ split text) (stands : lexeme.token? = .ok (some kind)) :
    kind.isLayout = false := by
  obtain ⟨_, first, rest, _, rfl⟩ := exists_scan_of_mem_split member
  rcases token?_cases stands with isSymbol | ⟨_, rfl⟩ | isLiteral
  · have noLayout : (symbolTable.map (·.2)).all (!·.isLayout) = true := by decide
    have inTable := (scans_scan first rest).mem_symbolTable isSymbol
    simpa using List.all_eq_true.mp noLayout kind inTable
  · unfold TokenKind.ofWord
    grind [TokenKind.isLayout]
  · cases kind <;> first | rfl | contradiction

namespace Lexeme

private theorem numberToken_ne_inconsistentDedent {α : Type} (text : List Char)
    (token : α → TokenKind) (value : Option α) :
    (numberToken text token value).map some ≠ .error .inconsistentDedent := by
  cases value <;> simp [numberToken, Except.map]

private theorem literalToken_ne_inconsistentDedent (text : List Char) :
    (literalToken text).map some ≠ .error .inconsistentDedent := by
  unfold literalToken
  dsimp only
  split
  · split
    · simp [Except.map]
    · split
      · simp [Except.map]
      · cases Escape.decodeBytes _ <;> simp [Except.map, Except.mapError]
  · split
    · simp [Except.map]
    · cases Escape.decodeString _ <;> simp [Except.map, Except.mapError]

/-- What a lexeme stands for has no bearing on blocks. -/
theorem token?_ne_inconsistentDedent (lexeme : Lexeme) :
    lexeme.token? ≠ .error .inconsistentDedent := by
  unfold token?
  dsimp only
  split
  case h_6 => exact numberToken_ne_inconsistentDedent _ _ _
  case h_7 => exact numberToken_ne_inconsistentDedent _ _ _
  case h_8 => exact numberToken_ne_inconsistentDedent _ _ _
  case h_9 => exact numberToken_ne_inconsistentDedent _ _ _
  case h_10 => exact numberToken_ne_inconsistentDedent _ _ _
  case h_11 => exact literalToken_ne_inconsistentDedent _
  all_goals simp

end Lexeme

theorem TokenKind.mayFollow_of_isLayout {previous kind : TokenKind}
    (plain : kind.isLayout = false) : previous.mayFollow kind = (previous != .endOfFile) := by
  cases kind <;> first | rfl | contradiction

/-- After a token that is no mark comes another one or a line end. -/
theorem TokenKind.plain_or_newline_of_mayFollow {previous kind : TokenKind}
    (plain : previous.isLayout = false) (follows : previous.mayFollow kind = true) :
    kind.isLayout = false ∨ kind = .newline := by
  have noNewline : previous ≠ .newline := by
    rintro rfl
    contradiction
  have noDedent : previous ≠ .dedent := by
    rintro rfl
    contradiction
  cases kind <;> first | exact .inl rfl | simp_all [mayFollow]

namespace Layout

/-- The last of some token kinds. Where there is none, a line is about to begin. -/
def lastKind (kinds : List TokenKind) : TokenKind :=
  kinds.getLast?.getD .newline

@[simp] theorem lastKind_concat (kinds : List TokenKind) (kind : TokenKind) :
    lastKind (kinds ++ [kind]) = kind := by
  simp [lastKind]

/-- Token kinds stand as they may, close only blocks that are open, and leave a number of
blocks open. -/
structure Marked (kinds : List TokenKind) (level : Nat) : Prop where
  follows : (.newline :: kinds).IsChain fun previous kind => previous.mayFollow kind = true
  nested : ∀ front, front <+: kinds → front.count .dedent ≤ front.count .indent
  counted : kinds.count .dedent + level = kinds.count .indent

namespace Marked

variable {kinds : List TokenKind} {level : Nat}

theorem nil : Marked [] 0 where
  follows := .singleton _
  nested := by simp
  counted := rfl

/-- One token more. -/
theorem concat {kind : TokenKind} {next : Nat} (marked : Marked kinds level)
    (follows : (lastKind kinds).mayFollow kind = true)
    (counted : [kind].count .dedent + next = level + [kind].count .indent) :
    Marked (kinds ++ [kind]) next := by
  have total := marked.counted
  constructor
  · rw [← List.cons_append, List.isChain_append]
    refine ⟨marked.follows, .singleton _, ?_⟩
    intro previous isPrevious next isNext
    obtain rfl : kind = next := by simpa using isNext
    obtain rfl : lastKind kinds = previous := by
      rw [Option.mem_def, List.getLast?_cons] at isPrevious
      exact Option.some.inj isPrevious
    exact follows
  · intro front isPrefix
    rcases List.prefix_concat_iff.mp isPrefix with rfl | shorter
    · rw [List.count_append, List.count_append]
      omega
    · exact marked.nested front shorter
  · rw [List.count_append, List.count_append]
    omega

theorem visible {kind : TokenKind} (marked : Marked kinds level)
    (plain : kind.isLayout = false) (goesOn : lastKind kinds ≠ .endOfFile) :
    Marked (kinds ++ [kind]) level := by
  refine marked.concat ?_ ?_
  · rw [TokenKind.mayFollow_of_isLayout plain]
    simpa using goesOn
  · have noDedent : kind ≠ .dedent := by
      rintro rfl
      contradiction
    have noIndent : kind ≠ .indent := by
      rintro rfl
      contradiction
    simp [noDedent, noIndent]

theorem newline (marked : Marked kinds level) (hasToken : (lastKind kinds).isLayout = false) :
    Marked (kinds ++ [.newline]) level :=
  marked.concat (by simp [TokenKind.mayFollow, hasToken]) (by simp)

theorem indent (marked : Marked kinds level) (lineStart : lastKind kinds = .newline) :
    Marked (kinds ++ [.indent]) (level + 1) :=
  marked.concat (by simp [TokenKind.mayFollow, lineStart]) (by simp)

/-- Blocks close one after the other. -/
theorem dedents {count : Nat} (marked : Marked kinds (count + level))
    (lineStart : lastKind kinds = .newline ∨ lastKind kinds = .dedent) :
    Marked (kinds ++ List.replicate count .dedent) level ∧
      (lastKind (kinds ++ List.replicate count .dedent) = .newline ∨
        lastKind (kinds ++ List.replicate count .dedent) = .dedent) := by
  induction count generalizing kinds with
  | zero =>
      rw [Nat.zero_add] at marked
      simpa using ⟨marked, lineStart⟩
  | succ count inductionHypothesis =>
      rw [List.replicate_succ, List.append_cons]
      apply inductionHypothesis
      · refine marked.concat ?_ ?_
        · rcases lineStart with isLast | isLast <;> simp [TokenKind.mayFollow, isLast]
        · simp
          omega
      · simp

theorem endOfFile (marked : Marked kinds level)
    (lineStart : lastKind kinds = .newline ∨ lastKind kinds = .dedent) :
    Marked (kinds ++ [.endOfFile]) level := by
  refine marked.concat ?_ (by simp)
  rcases lineStart with isLast | isLast <;> simp [TokenKind.mayFollow, isLast]

end Marked

/-! ### The widths of the open blocks -/

/-- The widths of the open blocks, outermost first, after that of the source itself. -/
def levels (blocks : List Nat) : List Nat :=
  0 :: blocks.reverse

theorem levels_cons (width : Nat) (blocks : List Nat) :
    levels (width :: blocks) = levels blocks ++ [width] := by
  simp [levels]

private theorem getLast?_levels (blocks : List Nat) :
    (levels blocks).getLast? = some (innermost blocks) := by
  cases blocks with
  | nil => rfl
  | cons width rest => simp [levels_cons, innermost]

section

variable {blocks : List Nat}

private theorem le_innermost (increasing : (levels blocks).Pairwise (· < ·)) {level : Nat}
    (member : level ∈ levels blocks) : level ≤ innermost blocks := by
  cases blocks with
  | nil =>
      obtain rfl : level = 0 := by simpa [levels] using member
      exact Nat.zero_le _
  | cons width rest =>
      rw [levels_cons] at increasing member
      rcases List.mem_append.mp member with isOuter | isLast
      · exact Nat.le_of_lt ((List.pairwise_append.mp increasing).2.2 level isOuter width (by simp))
      · exact Nat.le_of_eq (List.mem_singleton.mp isLast)

private theorem increasing_cons {width : Nat} (increasing : (levels blocks).Pairwise (· < ·))
    (wider : innermost blocks < width) : (levels (width :: blocks)).Pairwise (· < ·) := by
  rw [levels_cons, List.pairwise_append]
  refine ⟨increasing, List.pairwise_singleton _ width, ?_⟩
  intro level member last isLast
  rw [List.mem_singleton.mp isLast]
  exact Nat.lt_of_le_of_lt (le_innermost increasing member) wider

private theorem increasing_dropWhile (closes : Nat → Bool)
    (increasing : (levels blocks).Pairwise (· < ·)) :
    (levels (blocks.dropWhile closes)).Pairwise (· < ·) := by
  have shorter : (levels (blocks.dropWhile closes)).Sublist (levels blocks) :=
    ((List.dropWhile_suffix closes).sublist.reverse).cons_cons 0
  exact List.Pairwise.sublist shorter increasing

/-- Closing the wider blocks reaches a width exactly if it is that of an open block. -/
private theorem innermost_dropWhile_eq_iff (increasing : (levels blocks).Pairwise (· < ·))
    (width : Nat) :
    innermost (blocks.dropWhile (width < ·)) = width ↔ width ∈ levels blocks := by
  induction blocks with
  | nil => simp [levels, innermost, eq_comm]
  | cons block rest inductionHypothesis =>
      have outer : (levels rest).Pairwise (· < ·) := by
        rw [levels_cons] at increasing
        exact (List.pairwise_append.mp increasing).1
      rw [levels_cons, List.mem_append, List.mem_singleton]
      by_cases closes : width < block
      · rw [List.dropWhile_cons_of_pos (by simpa using closes), inductionHypothesis outer]
        constructor
        · exact .inl
        · rintro (isOuter | rfl)
          · exact isOuter
          · exact absurd closes (Nat.lt_irrefl _)
      · rw [List.dropWhile_cons_of_neg (by simpa using closes)]
        constructor
        · intro isBlock
          exact .inr isBlock.symm
        · rintro (isOuter | rfl)
          · have inside : width ≤ block :=
              le_innermost increasing (by simp [levels_cons, isOuter])
            exact Nat.le_antisymm (Nat.not_lt.mp closes) inside
          · rfl

end

/-! ### The scan -/

/-- What is known of the tokens so far and of the state at every point of a scan. -/
structure Scanned (tokens : List Token) (state : State) : Prop where
  marked : Marked (tokens.map (·.kind)) state.blocks.length
  /-- Within a line its last token is the last token at all. -/
  hasToken : state.margin = none → (lastKind (tokens.map (·.kind))).isLayout = false
  noToken : state.margin.isSome = true →
    lastKind (tokens.map (·.kind)) = .newline ∧ state.depth = 0
  increasing : (levels state.blocks).Pairwise (· < ·)

theorem Scanned.initial : Scanned [] .initial where
  marked := .nil
  hasToken := by simp [State.initial]
  noToken _ := ⟨rfl, rfl⟩
  increasing := List.pairwise_singleton _ 0

/-- The blocks of a line are marked before its first token. -/
theorem Enters.marked {state : State} {offset : Nat} {tokens marks : List Token}
    {blocks : List Nat} (enters : Enters state offset marks blocks)
    (scanned : Scanned tokens state) :
    Marked ((tokens ++ marks).map (·.kind)) blocks.length ∧
      lastKind ((tokens ++ marks).map (·.kind)) ≠ .endOfFile ∧
      (levels blocks).Pairwise (· < ·) := by
  rw [List.map_append]
  cases enters with
  | inside hasToken =>
      have plain := scanned.hasToken hasToken
      refine ⟨by simpa using scanned.marked, ?_, scanned.increasing⟩
      intro isEnd
      rw [List.map_nil, List.append_nil] at isEnd
      rw [isEnd] at plain
      contradiction
  | deeper noToken _ wider =>
      have lineStart := (scanned.noToken (by rw [noToken]; rfl)).1
      refine ⟨scanned.marked.indent lineStart, ?_, increasing_cons scanned.increasing wider⟩
      simp
  | @closing _ width noToken =>
      have lineStart := (scanned.noToken (by rw [noToken]; rfl)).1
      have counted : state.blocks.length =
          (state.blocks.takeWhile (width < ·)).length +
            (state.blocks.dropWhile (width < ·)).length := by
        rw [← List.length_append, List.takeWhile_append_dropWhile]
      have marked := scanned.marked
      rw [counted] at marked
      obtain ⟨closed, isLast⟩ := marked.dedents (.inl lineStart)
      have kinds : ((state.blocks.takeWhile (width < ·)).map
          fun _ => (⟨.dedent, .point offset⟩ : Token)).map (·.kind) =
          List.replicate (state.blocks.takeWhile (width < ·)).length .dedent := by
        rw [List.map_map]
        exact List.map_const' ..
      rw [kinds]
      refine ⟨closed, ?_, increasing_dropWhile _ scanned.increasing⟩
      rcases isLast with isLast | isLast <;> simp [isLast]

/-- Every lexeme keeps it so. -/
private theorem scanned_step {state next : State} {offset : Nat} {lexeme : Lexeme}
    {tokens added : List Token} (scanned : Scanned tokens state)
    (plain : ∀ kind, lexeme.token? = .ok (some kind) → kind.isLayout = false)
    (steps : Steps state offset lexeme added next) : Scanned (tokens ++ added) next := by
  cases steps with
  | comment => simpa using scanned
  | margin =>
      rw [List.append_nil]
      refine ⟨scanned.marked, ?_, ?_, scanned.increasing⟩
      · intro hasToken
        exact scanned.hasToken (Option.map_eq_none_iff.mp hasToken)
      · intro noToken
        exact scanned.noToken (by simpa using noToken)
  | lineEnd _ outside hasToken =>
      refine ⟨?_, by simp, ?_, scanned.increasing⟩
      · rw [List.map_append]
        exact scanned.marked.newline (scanned.hasToken hasToken)
      · simp [outside]
  | blankLine _ outside noToken =>
      rw [List.append_nil]
      exact ⟨scanned.marked, by simp, fun _ => scanned.noToken noToken, scanned.increasing⟩
  | bracketed => simpa using scanned
  | token stands enters =>
      obtain ⟨marked, goesOn, increasing⟩ := enters.marked scanned
      rw [← List.append_assoc]
      refine ⟨?_, ?_, by simp, increasing⟩
      · rw [List.map_append]
        exact marked.visible (plain _ stands) goesOn
      · intro _
        rw [List.map_append, List.map_singleton, lastKind_concat]
        exact plain _ stands

theorem scanned_of_runs {text : List Char} {lexemes : List Lexeme} {tokens : List Token}
    {state : State} (inText : lexemes <+: Lexeme.split text)
    (runs : Runs .initial 0 lexemes tokens state) : Scanned tokens state := by
  refine runs.keeps (motive := fun _ tokens state => Scanned tokens state) .initial ?_
  intro before after lexeme taken added here next shape scanned stepped
  have member : lexeme ∈ Lexeme.split text := inText.subset (by simp [shape])
  exact scanned_step scanned (fun kind => Lexeme.isLayout_of_token? member) (steps_of_step stepped)

/-- The end of the source closes the line and all blocks. -/
theorem Scanned.finish {tokens : List Token} {state : State} (scanned : Scanned tokens state)
    (offset : Nat) : Marked ((tokens ++ finish state offset).map (·.kind)) 0 := by
  have dedents : (state.blocks.map fun _ => (⟨.dedent, .point offset⟩ : Token)).map (·.kind) =
      List.replicate state.blocks.length .dedent := by
    rw [List.map_map]
    exact List.map_const' ..
  have closed {kinds : List TokenKind} (marked : Marked kinds state.blocks.length)
      (lineStart : lastKind kinds = .newline) :
      Marked (kinds ++ (List.replicate state.blocks.length .dedent ++ [.endOfFile])) 0 := by
    obtain ⟨outside, isLast⟩ := @Marked.dedents kinds 0 _ marked (.inl lineStart)
    rw [← List.append_assoc]
    exact outside.endOfFile isLast
  rw [List.map_append, Layout.finish]
  cases hasMargin : state.margin with
  | none =>
      have ended := closed (scanned.marked.newline (scanned.hasToken hasMargin)) (by simp)
      simpa [dedents] using ended
  | some margin =>
      have ended := closed scanned.marked (scanned.noToken (by rw [hasMargin]; rfl)).1
      simpa [dedents] using ended

end Layout

/-! ### Lines and blocks of a whole source -/

/-- Token kinds mark lines and blocks as they should. -/
structure MarksLines (kinds : List TokenKind) : Prop where
  /-- The end of file is last, and there is no other. -/
  ends : ∃ body, kinds = body ++ [.endOfFile] ∧ .endOfFile ∉ body
  newlineAfter : ∀ before after, kinds = before ++ .newline :: after →
    ∃ previous ∈ before.getLast?, previous.isLayout = false
  /-- A line goes on until a line end closes it. -/
  lineEnds : ∀ before kind after, kinds = before ++ kind :: after → kind.isLayout = false →
    ∃ next ∈ after.head?, next.isLayout = false ∨ next = .newline
  indentAfter : ∀ before after, kinds = before ++ .indent :: after →
    before = [] ∨ before.getLast? = some .newline
  indentBefore : ∀ before after, kinds = before ++ .indent :: after →
    ∃ next ∈ after.head?, next.isLayout = false
  dedentAfter : ∀ before after, kinds = before ++ .dedent :: after →
    before.getLast? = some .newline ∨ before.getLast? = some .dedent
  dedentBefore : ∀ before after, kinds = before ++ .dedent :: after →
    ∃ next ∈ after.head?, next = .dedent ∨ next.isLayout = false ∨ next = .endOfFile
  nested : ∀ front, front <+: kinds → front.count .dedent ≤ front.count .indent
  closed : kinds.count .dedent = kinds.count .indent

namespace Layout

namespace Marked

variable {kinds before after : List TokenKind} {kind : TokenKind} {level : Nat}

theorem mayFollow_lastKind (marked : Marked kinds level) (shape : kinds = before ++ kind :: after) :
    (lastKind before).mayFollow kind = true := by
  have follows := marked.follows
  rw [shape, ← List.cons_append, List.isChain_append] at follows
  refine follows.2.2 _ ?_ kind rfl
  rw [Option.mem_def, List.getLast?_cons]
  rfl

/-- Only the end of file is not followed by a token. -/
theorem exists_next (marked : Marked kinds level) (ends : kinds.getLast? = some .endOfFile)
    (shape : kinds = before ++ kind :: after) (goesOn : kind ≠ .endOfFile) :
    ∃ next ∈ after.head?, kind.mayFollow next = true := by
  cases after with
  | nil =>
      rw [shape, List.getLast?_concat] at ends
      exact absurd (Option.some.inj ends) goesOn
  | cons next rest =>
      have follows := marked.follows
      rw [shape, ← List.cons_append, List.isChain_append_cons_cons] at follows
      exact ⟨next, rfl, follows.2.1⟩

theorem endOfFile_not_mem (marked : Marked (kinds ++ [.endOfFile]) level) :
    .endOfFile ∉ kinds := by
  intro member
  obtain ⟨front, rest, rfl⟩ := List.append_of_mem member
  have follows := marked.follows
  cases rest with
  | nil =>
      rw [List.append_assoc, List.cons_append, ← List.cons_append, List.nil_append,
        List.isChain_append_cons_cons] at follows
      simp [TokenKind.mayFollow] at follows
  | cons next others =>
      rw [List.append_assoc, List.cons_append, List.cons_append, ← List.cons_append,
        List.isChain_append_cons_cons] at follows
      have after := follows.2.1
      cases next <;> simp [TokenKind.mayFollow, TokenKind.isLayout] at after

theorem marksLines (marked : Marked kinds 0) (ends : kinds.getLast? = some .endOfFile) :
    MarksLines kinds where
  ends := by
    obtain ⟨body, rfl⟩ := List.getLast?_eq_some_iff.mp ends
    exact ⟨body, rfl, marked.endOfFile_not_mem⟩
  newlineAfter before after shape := by
    have follows := marked.mayFollow_lastKind shape
    unfold lastKind at follows
    cases isLast : before.getLast? with
    | none => simp [isLast, TokenKind.mayFollow, TokenKind.isLayout] at follows
    | some previous => exact ⟨previous, rfl, by simpa [isLast, TokenKind.mayFollow] using follows⟩
  lineEnds before kind after shape plain := by
    have goesOn : kind ≠ .endOfFile := by
      rintro rfl
      contradiction
    obtain ⟨next, isNext, follows⟩ := marked.exists_next ends shape goesOn
    exact ⟨next, isNext, TokenKind.plain_or_newline_of_mayFollow plain follows⟩
  indentAfter before after shape := by
    have follows := marked.mayFollow_lastKind shape
    unfold lastKind at follows
    cases isLast : before.getLast? with
    | none => exact .inl (List.getLast?_eq_none_iff.mp isLast)
    | some previous => simpa [isLast, TokenKind.mayFollow] using Or.inr follows
  indentBefore before after shape := by
    obtain ⟨next, isNext, follows⟩ := marked.exists_next ends shape (by simp)
    refine ⟨next, isNext, ?_⟩
    cases next <;> first | rfl | contradiction
  dedentAfter before after shape := by
    have follows := marked.mayFollow_lastKind shape
    unfold lastKind at follows
    cases isLast : before.getLast? with
    | none =>
        -- A block would close before any was opened.
        have nested := marked.nested [.dedent] (by
          rw [shape, List.getLast?_eq_none_iff.mp isLast]
          exact ⟨after, rfl⟩)
        contradiction
    | some previous => simpa [isLast, TokenKind.mayFollow] using follows
  dedentBefore before after shape := by
    obtain ⟨next, isNext, follows⟩ := marked.exists_next ends shape (by simp)
    refine ⟨next, isNext, ?_⟩
    cases next <;> first | contradiction | simp [TokenKind.isLayout]
  nested := marked.nested
  closed := by simpa using marked.counted

end Marked

/-! ### The text before the first token of a line -/

/-- While a line has no token, its margin is the text since a line feed outside brackets. After
a comment no token can come. -/
def MarginKnown (lexemes : List Lexeme) (state : State) : Prop :=
  ∀ margin ∈ state.margin, (∃ last ∈ lexemes.getLast?, last.kind = .comment) ∨
    ∃ front blanks, lexemes.flatMap Lexeme.text = front ++ blanks ∧
      (∀ last ∈ front.getLast?, last = '\n') ∧
      margin = ⟨Text.byteLength front, marginWidth blanks⟩

/-- A comment goes on to the end of its line. -/
private theorem lineBreak_of_comment {text : List Char} {before after : List Lexeme}
    {comment lexeme : Lexeme} (cuts : Lexeme.Cuts text (before ++ comment :: lexeme :: after))
    (isComment : comment.kind = .comment) : lexeme.kind = .lineBreak := by
  have trivia := cuts.trivia (by rw [isComment]; rfl)
  rw [isComment] at trivia
  rw [List.append_cons] at cuts
  obtain ⟨first, taken, shape, scanned⟩ := cuts.scan_of_append
  generalize comment.text = gap at trivia
  cases trivia with
  | comment _ toEnd =>
      obtain rfl : first = '\n' := toEnd first (by simp [shape])
      rw [← scanned]
      rfl

private theorem marginKnown_step {text : List Char} {before after : List Lexeme} {lexeme : Lexeme}
    {tokens added : List Token} {state next : State}
    (cuts : Lexeme.Cuts text (before ++ lexeme :: after)) (scanned : Scanned tokens state)
    (known : MarginKnown before state)
    (steps : Steps state (extent before) lexeme added next) :
    MarginKnown (before ++ [lexeme]) next := by
  have whole : (before ++ [lexeme]).flatMap Lexeme.text =
      before.flatMap Lexeme.text ++ lexeme.text := by simp
  have lineBegins (isKind : lexeme.kind = .lineBreak) :
      MarginKnown (before ++ [lexeme])
        { state with margin := some (.empty (extent before + Text.byteLength lexeme.text)) } := by
    have trivia := cuts.trivia (by rw [isKind]; rfl)
    rw [isKind] at trivia
    rintro margin ⟨⟩
    refine .inr ⟨(before ++ [lexeme]).flatMap Lexeme.text, [], by simp, ?_, ?_⟩
    · rw [whole, trivia.text_of_lineBreak]
      simp
    · rw [whole, Text.byteLength_append, ← extent]
      rfl
  cases steps with
  | comment isKind =>
      intro margin _
      exact .inl ⟨lexeme, by simp, isKind⟩
  | margin isKind =>
      intro margin isMargin
      obtain ⟨old, isOld, rfl⟩ := Option.map_eq_some_iff.mp isMargin
      rcases known old isOld with
        ⟨last, isLast, isComment⟩ | ⟨front, blanks, text, lineStart, rfl⟩
      · obtain ⟨others, rfl⟩ := List.getLast?_eq_some_iff.mp isLast
        rw [List.append_assoc] at cuts
        have isBreak := lineBreak_of_comment cuts isComment
        rw [isBreak] at isKind
        simp at isKind
      · refine .inr ⟨front, blanks ++ lexeme.text, ?_, lineStart, Margin.extend_marginWidth ..⟩
        rw [whole, text, List.append_assoc]
  | lineEnd isKind => exact lineBegins isKind
  | blankLine isKind => exact lineBegins isKind
  | bracketed _ inside =>
      intro margin isMargin
      have outside := (scanned.noToken (by rw [Option.mem_def.mp isMargin]; rfl)).2
      omega
  | token => simp [MarginKnown]

private theorem marginKnown_of_runs {text : List Char} {lexemes rest : List Lexeme}
    {tokens : List Token} {state : State} (shape : Lexeme.split text = lexemes ++ rest)
    (runs : Runs .initial 0 lexemes tokens state) : MarginKnown lexemes state := by
  have cuts := Lexeme.cuts_split text
  rw [shape] at cuts
  have initial : MarginKnown [] .initial := by
    rintro margin ⟨⟩
    exact .inr ⟨[], [], rfl, by simp, rfl⟩
  refine (runs.keeps (motive := fun lexemes tokens state =>
    Scanned tokens state ∧ MarginKnown lexemes state) ⟨.initial, initial⟩ ?_).2
  rintro before after lexeme taken added here next rfl ⟨scanned, known⟩ stepped
  have member : lexeme ∈ Lexeme.split text := by simp [shape]
  rw [Nat.zero_add] at stepped
  rw [List.append_assoc, List.cons_append] at cuts
  have steps := steps_of_step stepped
  exact ⟨scanned_step scanned (fun kind => Lexeme.isLayout_of_token? member) steps,
    marginKnown_step cuts scanned known steps⟩

/-- The margin of a line's first token is the text between a line feed and the token. -/
theorem margin_of_runs {text : List Char} {before after : List Lexeme} {lexeme : Lexeme}
    {tokens : List Token} {state : State} {margin : Margin}
    (shape : Lexeme.split text = before ++ lexeme :: after)
    (runs : Runs .initial 0 before tokens state) (isVisible : lexeme.kind.isTrivia = false)
    (noToken : state.margin = some margin) :
    ∃ front blanks, before.flatMap Lexeme.text = front ++ blanks ∧
      (∀ last ∈ front.getLast?, last = '\n') ∧
      margin = ⟨Text.byteLength front, marginWidth blanks⟩ := by
  rcases marginKnown_of_runs shape runs margin noToken with ⟨last, isLast, isComment⟩ | known
  · obtain ⟨others, rfl⟩ := List.getLast?_eq_some_iff.mp isLast
    have cuts := Lexeme.cuts_split text
    rw [shape, List.append_assoc] at cuts
    rw [lineBreak_of_comment cuts isComment] at isVisible
    contradiction
  · exact known

/-! ### Lines that fit no block -/

/-- The blanks have a width, exactly and in all of their beginnings one that fits. -/
def Measures (blanks : List Char) (width : Nat) : Prop :=
  exactWidth blanks = width ∧ ∀ part, part <+: blanks → exactWidth part ≤ counterMax

/-- A line of the source begins with a token, and the blanks before it have a width that is
smaller than that of the innermost block and not that of any open block. The span is that of the
blanks. -/
def Misfit (hasWidth : List Char → Nat → Prop) (source : String) (span : Span) : Prop :=
  ∃ before lexeme after emitted state front blanks width,
    Lexeme.split source.toList = before ++ lexeme :: after ∧
    Runs .initial 0 before emitted state ∧
    lexeme.kind.isTrivia = false ∧ lexeme.kind ≠ .stray ∧
    state.margin = some ⟨Text.byteLength front, marginWidth blanks⟩ ∧
    before.flatMap Lexeme.text = front ++ blanks ∧ (∀ last ∈ front.getLast?, last = '\n') ∧
    hasWidth blanks width ∧ width < innermost state.blocks ∧ width ∉ levels state.blocks ∧
    span = ⟨Text.byteLength front, extent before⟩

theorem Fails.misfit {source : String} {before after : List Lexeme} {lexeme : Lexeme}
    {emitted : List Token} {state : State} {span : Span}
    (shape : Lexeme.split source.toList = before ++ lexeme :: after)
    (runs : Runs .initial 0 before emitted state)
    (fails : Fails state (extent before) lexeme (.fault ⟨.inconsistentDedent, span⟩)) :
    Misfit Measures source span := by
  cases fails with
  | @margin margin width isVisible notStray noToken measured narrow unfit =>
      have scanned := scanned_of_runs ⟨lexeme :: after, shape.symm⟩ runs
      rw [Ne, innermost_dropWhile_eq_iff scanned.increasing] at unfit
      obtain ⟨front, blanks, text, lineStart, rfl⟩ := margin_of_runs shape runs isVisible noToken
      have smaller : width < innermost state.blocks := by
        apply Nat.lt_of_le_of_ne narrow
        intro same
        apply unfit
        rw [same]
        exact List.mem_of_getLast? (getLast?_levels state.blocks)
      exact ⟨before, lexeme, after, emitted, state, front, blanks, width, shape, runs, isVisible,
        notStray, noToken, text, lineStart, marginWidth_eq_ok_iff.mp measured, smaller, unfit, rfl⟩
  | value _ wrong => exact absurd wrong (Lexeme.token?_ne_inconsistentDedent lexeme)

/-- A line that fits no block stops the scan: as a fault, or because its width does not fit. -/
theorem tokenize_of_misfit {hasWidth : List Char → Nat → Prop}
    (exact : ∀ blanks width, hasWidth blanks width → exactWidth blanks = width)
    {source : String} {span : Span} (small : source.utf8ByteSize ≤ Span.offsetLimit)
    (misfit : Misfit hasWidth source span) :
    tokenize source = .error (.fault ⟨.inconsistentDedent, span⟩) ∨
      (∃ operation, tokenize source = .error (.overflow operation)) ∧
        ∃ blanks width, hasWidth blanks width ∧ ¬ Measures blanks width := by
  obtain ⟨before, lexeme, after, emitted, state, front, blanks, width, shape, runs, isVisible,
    notStray, noToken, _, _, measured, smaller, unfit, rfl⟩ := misfit
  simp only [tokenize_of_small small]
  have stops {halt : Halt LexError} (fails : Fails state (extent before) lexeme halt) :
      arrange .initial 0 (Lexeme.split source.toList) = .error halt :=
    arrange_eq_error_iff.mpr ⟨before, lexeme, after, emitted, state, shape, runs, by simpa⟩
  cases counted : marginWidth blanks with
  | error operation =>
      rw [counted] at noToken
      refine .inr ⟨⟨operation, stops (.overflow isVisible notStray noToken rfl)⟩, blanks, width,
        measured, fun fits => ?_⟩
      rw [marginWidth_eq_ok_iff.mpr fits] at counted
      contradiction
  | ok found =>
      obtain rfl : found = width :=
        (marginWidth_eq_ok_iff.mp counted).1.symm.trans (exact _ _ measured)
      have scanned := scanned_of_runs ⟨lexeme :: after, shape.symm⟩ runs
      rw [← innermost_dropWhile_eq_iff scanned.increasing] at unfit
      exact .inl (stops (.margin isVisible notStray noToken counted (Nat.le_of_lt smaller) unfit))

theorem tokenize_eq_inconsistentDedent_iff (source : String) (span : Span) :
    tokenize source = .error (.fault ⟨.inconsistentDedent, span⟩) ↔
      source.utf8ByteSize ≤ Span.offsetLimit ∧ Misfit Measures source span := by
  constructor
  · intro stopped
    rcases Nat.lt_or_ge Span.offsetLimit source.utf8ByteSize with large | small
    · simp [tokenize_of_large large] at stopped
    · rw [tokenize_of_small small] at stopped
      obtain ⟨before, lexeme, after, emitted, state, shape, runs, fails⟩ :=
        arrange_eq_error_iff.mp stopped
      rw [Nat.zero_add] at fails
      exact ⟨small, fails.misfit shape runs⟩
  · rintro ⟨small, misfit⟩
    rcases tokenize_of_misfit (fun _ _ => And.left) small misfit with
      stopped | ⟨_, blanks, width, measured, unmeasured⟩
    · exact stopped
    · exact absurd measured unmeasured

/-- What the lines and blocks are at a point of the scan. -/
structure LaidOut (front : List Lexeme) (emitted : List Token) (state : State) : Prop where
  outermost : (levels state.blocks).head? = some 0
  current : (levels state.blocks).getLast? = some (innermost state.blocks)
  increasing : (levels state.blocks).Pairwise (· < ·)
  counted : (emitted.map (·.kind)).count .dedent + ((levels state.blocks).length - 1) =
    (emitted.map (·.kind)).count .indent
  /-- Outside brackets a line break leaves no line without its mark. -/
  lineEnded : ∀ last ∈ front.getLast?, last.kind = .lineBreak →
    depthOf (emitted.map (·.kind)) = 0 → lastKind (emitted.map (·.kind)) = .newline

theorem laidOut_of_runs {text : List Char} {front rest : List Lexeme} {emitted : List Token}
    {state : State} (shape : Lexeme.split text = front ++ rest)
    (runs : Runs .initial 0 front emitted state) : LaidOut front emitted state where
  outermost := rfl
  current := getLast?_levels state.blocks
  increasing := (scanned_of_runs ⟨rest, shape.symm⟩ runs).increasing
  counted := by simpa [levels] using (scanned_of_runs ⟨rest, shape.symm⟩ runs).marked.counted
  lineEnded last isLast isBreak outside := by
    have scanned := scanned_of_runs ⟨rest, shape.symm⟩ runs
    have placed := placed_of_runs (shape ▸ Lexeme.cuts_split text) runs
    obtain ⟨before, rfl⟩ := List.getLast?_eq_some_iff.mp isLast
    obtain ⟨_, middle, _, _, final, _⟩ := runs.exists_of_append
    rw [← placed.depth] at outside
    refine (scanned.noToken ?_).1
    cases final with
    | more stepped others =>
        cases others
        simp only [step, isBreak] at stepped
        split at stepped
        next =>
          obtain ⟨_, rfl⟩ := Prod.mk.inj (Except.ok.inj stepped)
          rfl
        next inside =>
          obtain ⟨_, rfl⟩ := Prod.mk.inj (Except.ok.inj stepped)
          exact absurd outside inside

/-- After a block of one line the next line begins with that block open. -/
private theorem exists_runs_block : ∃ emitted here,
    Runs .initial 0 (Lexeme.split "a\n\tb\n".toList) emitted here ∧
      here.margin = some (.empty (Text.byteLength "a\n\tb\n".toList)) ∧ here.blocks = [8] := by
  have cut : Lexeme.split "a\n\tb\n".toList = [⟨.word, ['a']⟩, ⟨.lineBreak, ['\n']⟩,
      ⟨.blank, ['\t']⟩, ⟨.word, ['b']⟩, ⟨.lineBreak, ['\n']⟩] := by decide +kernel
  rw [cut]
  exact ⟨_, _, .more rfl (.more rfl (.more rfl (.more rfl (.more rfl .none)))), rfl, rfl⟩

/-- A line after the block that fits no block by its exact width, but begins with too many tabs. -/
private theorem tokenize_of_wide_misfit {source : String} {count : Nat}
    (wide : counterMax < 8 * count) (small : source.utf8ByteSize ≤ Span.offsetLimit)
    (shape : source.toList =
      "a\n\tb\n".toList ++ (List.replicate count '\t' ++ ['\x0c', ' ', ' '] ++ ['z'])) :
    (∃ span, Misfit (exactWidth · = ·) source span) ∧
      tokenize source = .error (.overflow .multiplication) := by
  obtain ⟨emitted, here, runs, begins, isBlock⟩ := exists_runs_block
  let blanks := List.replicate count '\t' ++ ['\x0c', ' ', ' ']
  have all : ∀ character ∈ blanks, Lexeme.isInlineBlank character = true := by
    simp only [blanks, List.mem_append, List.mem_replicate]
    rintro character (⟨_, rfl⟩ | member)
    · rfl
    · exact List.all_eq_true.mp (show [_, _, _].all Lexeme.isInlineBlank = true by rfl) _ member
  have nonempty : blanks ≠ [] := by simp [blanks]
  have lineStart : "a\n\tb\n".toList = [] ∨ ∃ lines, "a\n\tb\n".toList = lines ++ ['\n'] :=
    .inr ⟨"a\n\tb".toList, by decide⟩
  have feedLast : "a\n\tb\n".toList.getLast? = some '\n' := by decide
  have narrow : exactWidth blanks = 2 := by rw [exactWidth, List.foldl_append]; rfl
  obtain ⟨after, cut⟩ := @exists_split_line _ _ [] 'z' all nonempty rfl lineStart
  rw [← shape] at cut
  refine ⟨⟨_, _, _, after, emitted, _, "a\n\tb\n".toList, blanks, 2, cut,
    runs.extend_margin begins, rfl, by decide, rfl, ?_, ?_, narrow, ?_, ?_, rfl⟩,
    tokenize_of_wide_line all nonempty rfl shape small lineStart runs begins rfl (by decide)
      (marginWidth_tabs wide _)⟩
  · rw [List.flatMap_append, (Lexeme.cuts_split _).flatMap_text]
    simp
  · intro last isLast
    exact (Option.some.inj (feedLast.symm.trans isLast)).symm
  · show 2 < innermost here.blocks
    rw [isBlock]
    decide
  · show 2 ∉ levels here.blocks
    rw [isBlock]
    decide

end Layout

/-- The marks of lines and blocks are well formed. The tokens of a source end each of its
lines and close each of its blocks; while it is read, the widths of the open blocks grow from
the outermost to the innermost one and there are as many as were opened and not closed; and
it is a fault of the blocks exactly if a line is narrower than the innermost block and fits
none, where all parts of its margin have widths that fit. A line of which a part does not
ends the program instead. -/
theorem tokenize_marks_lines (source : String) :
    (∀ tokens, tokenize source = .ok tokens → MarksLines (tokens.map (·.kind))) ∧
      (∀ front rest emitted state, Lexeme.split source.toList = front ++ rest →
        Layout.Runs .initial 0 front emitted state → Layout.LaidOut front emitted state) ∧
      (∀ span, tokenize source = .error (.fault ⟨.inconsistentDedent, span⟩) ↔
        source.utf8ByteSize ≤ Span.offsetLimit ∧ Layout.Misfit Layout.Measures source span) ∧
      ∀ span, source.utf8ByteSize ≤ Span.offsetLimit →
        Layout.Misfit (exactWidth · = ·) source span →
          tokenize source = .error (.fault ⟨.inconsistentDedent, span⟩) ∨
            ∃ operation, tokenize source = .error (.overflow operation) := by
  refine ⟨?_, ?_, Layout.tokenize_eq_inconsistentDedent_iff source, ?_⟩
  · intro tokens tokenized
    obtain ⟨emitted, state, runs, rfl⟩ := Layout.runs_of_tokenize tokenized
    have scanned := Layout.scanned_of_runs List.prefix_rfl runs
    refine (scanned.finish source.utf8ByteSize).marksLines ?_
    simp [Layout.finish]
  · intro front rest emitted state shape runs
    exact Layout.laidOut_of_runs shape runs
  · intro span small misfit
    exact (Layout.tokenize_of_misfit (fun _ _ => id) small misfit).imp_right And.left

/-- A tab and eight blanks are of one width, and two blanks less than that. -/
theorem tokenize_marks_lines_blocks :
    (∃ tokens, tokenize "a\n\tb\n        c\nd" = .ok tokens ∧
      MarksLines (tokens.map (·.kind))) ∧
    tokenize "a\n\tb\n  c" = .error (.fault ⟨.inconsistentDedent, ⟨5, 7⟩⟩) ∧
      Layout.Misfit Layout.Measures "a\n\tb\n  c" ⟨5, 7⟩ := by
  have tokenized : tokenize "a\n\tb\n        c\nd" = .ok
      [⟨.ident "a", ⟨0, 1⟩⟩, ⟨.newline, ⟨1, 2⟩⟩, ⟨.indent, ⟨2, 3⟩⟩, ⟨.ident "b", ⟨3, 4⟩⟩,
        ⟨.newline, ⟨4, 5⟩⟩, ⟨.ident "c", ⟨13, 14⟩⟩, ⟨.newline, ⟨14, 15⟩⟩,
        ⟨.dedent, ⟨15, 15⟩⟩, ⟨.ident "d", ⟨15, 16⟩⟩, ⟨.newline, ⟨16, 16⟩⟩,
        ⟨.endOfFile, ⟨16, 16⟩⟩] := by decide +kernel
  have stopped : tokenize "a\n\tb\n  c" = .error (.fault ⟨.inconsistentDedent, ⟨5, 7⟩⟩) := by
    decide +kernel
  exact ⟨⟨_, tokenized, (tokenize_marks_lines _).1 _ tokenized⟩, stopped,
    (((tokenize_marks_lines _).2.2.1 _).mp stopped).2⟩

/-- Two blanks after a form feed fit no block behind a tab, but half a GiB of tabs before them does
not fit its number. -/
theorem overflow_of_misfit :
    let tabs := List.replicate (2 ^ 29) '\t'
    let source := String.ofList ("a\n\tb\n".toList ++ (tabs ++ ['\x0c', ' ', ' '] ++ ['z']))
    source.utf8ByteSize ≤ Span.offsetLimit ∧
      (∃ span, Layout.Misfit (exactWidth · = ·) source span) ∧
      tokenize source = .error (.overflow .multiplication) := by
  intro tabs source
  have small : source.utf8ByteSize ≤ Span.offsetLimit := by
    have tabBytes : Text.byteLength tabs = 2 ^ 29 := Text.byteLength_replicate rfl _
    simp only [source, Text.utf8ByteSize_ofList, Text.byteLength_append, tabBytes]
    decide
  exact ⟨small, Layout.tokenize_of_wide_misfit (by decide) small String.toList_ofList⟩

end Transpiler
