import Transpiler.Proofs.Token.Coverage
import Transpiler.Proofs.Token.LineBreaks

/-!
Contract: the tokens of two sources with a line break between them.

Owns: that the tokens of a text do not depend on where it starts, in which state a source
leaves the layout, and that a source which closes its brackets and opens no block leaves
it as a source finds it.

Does not own: which sources do so.
-/

namespace Transpiler

/-! ### Moving tokens -/

/-- The range that starts and stops a distance later. -/
def Span.shift (distance : Nat) (span : Span) : Span :=
  ⟨span.start + distance, span.stop + distance⟩

/-- The token a distance later in the source. -/
def Token.shift (distance : Nat) (token : Token) : Token :=
  ⟨token.kind, token.span.shift distance⟩

@[simp] theorem Token.kind_shift (distance : Nat) (token : Token) :
    (token.shift distance).kind = token.kind := rfl

namespace Layout

def Margin.shift (distance : Nat) (margin : Margin) : Margin :=
  ⟨margin.start + distance, margin.width⟩

/-- The state a distance later in the source. -/
def State.shift (distance : Nat) (state : State) : State :=
  ⟨state.depth, state.margin.map (·.shift distance), state.blocks⟩

section

variable {state next : State} {offset : Nat} (distance : Nat)

theorem State.margin_shift_of_none (hasToken : state.margin = none) :
    (state.shift distance).margin = none := by
  rw [State.shift, hasToken]
  rfl

theorem State.margin_shift_of_some {margin : Margin} (noToken : state.margin = some margin) :
    (state.shift distance).margin = some (margin.shift distance) := by
  rw [State.shift, noToken]
  rfl

theorem Enters.shift {marks : List Token} {blocks : List Nat}
    (enters : Enters state offset marks blocks) :
    Enters (state.shift distance) (offset + distance) (marks.map (·.shift distance)) blocks := by
  cases enters with
  | inside hasToken => exact .inside (State.margin_shift_of_none distance hasToken)
  | deeper noToken measured wider =>
      exact .deeper (State.margin_shift_of_some distance noToken) measured wider
  | closing noToken measured narrow fits =>
      have moved := @Enters.closing (state.shift distance) (offset + distance) _ _
        (State.margin_shift_of_some distance noToken) measured narrow fits
      rwa [List.map_map]

/-- What a lexeme does, it does at every place. -/
theorem Steps.shift {lexeme : Lexeme} {tokens : List Token}
    (steps : Steps state offset lexeme tokens next) :
    Steps (state.shift distance) (offset + distance) lexeme (tokens.map (·.shift distance))
      (next.shift distance) := by
  have stop := Nat.add_right_comm offset (Text.byteLength lexeme.text) distance
  cases steps with
  | comment isKind => exact .comment isKind
  | margin isKind =>
      have moved := @Steps.margin (state.shift distance) (offset + distance) lexeme isKind
      simpa [State.shift, Margin.shift, Margin.extend, Function.comp_def] using moved
  | lineEnd isKind outside hasToken =>
      have moved := @Steps.lineEnd (state.shift distance) (offset + distance) lexeme isKind outside
        (State.margin_shift_of_none distance hasToken)
      rwa [← stop] at moved
  | blankLine isKind outside noToken =>
      have moved := @Steps.blankLine (state.shift distance) (offset + distance) lexeme isKind
        outside (by simpa [State.shift] using noToken)
      rwa [← stop] at moved
  | bracketed isKind inside => exact .bracketed isKind inside
  | token stands enters =>
      have moved := Steps.token stands (enters.shift distance)
      rw [← stop] at moved
      rwa [List.map_append]

theorem finish_shift (state : State) (offset : Nat) :
    finish (state.shift distance) (offset + distance) =
      (finish state offset).map (·.shift distance) := by
  obtain ⟨depth, margin, blocks⟩ := state
  cases margin <;> simp [finish, State.shift, Token.shift, Span.shift, Span.point]

end

/-! ### Where a run leaves the layout -/

namespace Runs

variable {state last : State} {offset : Nat} {lexemes : List Lexeme} {tokens : List Token}

/-- What lexemes add does not depend on where they start. -/
theorem shift (distance : Nat) (runs : Runs state offset lexemes tokens last) :
    Runs (state.shift distance) (offset + distance) lexemes (tokens.map (·.shift distance))
      (last.shift distance) := by
  induction runs with
  | none => exact .none
  | more stepped _ inductionHypothesis =>
      rw [List.map_append]
      refine .more (step_of_steps ((steps_of_step stepped).shift distance)) ?_
      rwa [Nat.add_right_comm]

theorem kind_ne_stray (runs : Runs state offset lexemes tokens last) {lexeme : Lexeme}
    (member : lexeme ∈ lexemes) : lexeme.kind ≠ .stray := by
  induction runs with
  | none => simp at member
  | more stepped _ inductionHypothesis =>
      rcases List.mem_cons.mp member with rfl | inRest
      · intro isStray
        simp [step, isStray] at stepped
      · exact inductionHypothesis inRest

/-- Without a token that opens a block, no block is open. -/
theorem blocks_eq_nil (runs : Runs .initial offset lexemes tokens last)
    (noBlock : ∀ token ∈ tokens, token.kind ≠ .indent) : last.blocks = [] := by
  refine runs.keeps (motive := fun _ tokens state =>
    (∀ token ∈ tokens, token.kind ≠ .indent) → state.blocks = []) (fun _ => rfl) ?_ noBlock
  intro before after lexeme taken added here next _ holds stepped noBlock
  have closed : here.blocks = [] := holds fun token member => noBlock token (by simp [member])
  cases steps_of_step stepped with
  | comment => exact closed
  | margin => exact closed
  | lineEnd => exact closed
  | blankLine => exact closed
  | bracketed => exact closed
  | token _ enters =>
      cases enters with
      | inside => exact closed
      | deeper => exact absurd rfl (noBlock _ (List.mem_append_right _ List.mem_cons_self))
      | closing => simp [closed]

/-- A line without a token begins where the line before it ended, or at the start. -/
private theorem newline_of_getLast? (runs : Runs .initial offset lexemes tokens last)
    (noToken : last.margin.isSome = true) : ∀ token ∈ tokens.getLast?, token.kind = .newline := by
  refine runs.keeps (motive := fun _ tokens state => state.margin.isSome = true →
    ∀ token ∈ tokens.getLast?, token.kind = .newline) (fun _ => by simp) ?_ noToken
  intro before after lexeme taken added here next _ holds stepped noToken
  cases steps_of_step stepped with
  | comment => simpa using holds noToken
  | margin => simpa using holds (by simpa using noToken)
  | lineEnd => simp
  | blankLine _ _ wasEmpty => simpa using holds wasEmpty
  | bracketed => simpa using holds noToken
  | token => simp at noToken

end Runs

end Layout

/-! ### The end of a source -/

theorem TokenKind.ofWord_ne_endOfFile (word : String) : ofWord word ≠ .endOfFile := by
  unfold ofWord
  grind

/-- No text stands for the end of file. -/
theorem Lexeme.ne_endOfFile_of_token? {text : List Char} {lexeme : Lexeme} {kind : TokenKind}
    (member : lexeme ∈ split text) (stands : lexeme.token? = .ok (some kind)) :
    kind ≠ .endOfFile := by
  obtain ⟨_, first, rest, _, rfl⟩ := exists_scan_of_mem_split member
  rcases token?_cases stands with isSymbol | ⟨_, rfl⟩ | isLiteral
  · have noEnd : (symbolTable.map (·.2)).all (· != .endOfFile) = true := by decide
    have inTable := (scans_scan first rest).mem_symbolTable isSymbol
    simpa using List.all_eq_true.mp noEnd kind inTable
  · exact TokenKind.ofWord_ne_endOfFile _
  · rintro rfl
    contradiction

namespace Layout

theorem Enters.ne_endOfFile {state : State} {offset : Nat} {marks : List Token}
    {blocks : List Nat} (enters : Enters state offset marks blocks) :
    ∀ token ∈ marks, token.kind ≠ .endOfFile := by
  cases enters with
  | inside => simp
  | deeper => simp
  | closing =>
      intro token member
      obtain ⟨_, _, rfl⟩ := List.mem_map.mp member
      simp

theorem Runs.ne_endOfFile {text : List Char} {tokens : List Token} {last : State}
    (runs : Runs .initial 0 (Lexeme.split text) tokens last) :
    ∀ token ∈ tokens, token.kind ≠ .endOfFile := by
  refine runs.keeps (motive := fun _ tokens _ => ∀ token ∈ tokens, token.kind ≠ .endOfFile)
    (by simp) ?_
  intro before after lexeme taken added here next shape holds stepped token member
  rcases List.mem_append.mp member with isTaken | isAdded
  · exact holds token isTaken
  · cases steps_of_step stepped with
    | comment => simp at isAdded
    | margin => simp at isAdded
    | lineEnd => simp_all
    | blankLine => simp at isAdded
    | bracketed => simp at isAdded
    | token stands enters =>
        rcases List.mem_append.mp isAdded with isMark | isLast
        · exact enters.ne_endOfFile token isMark
        · obtain rfl := List.mem_singleton.mp isLast
          have inText : lexeme ∈ Lexeme.split text := by simp [shape]
          exact Lexeme.ne_endOfFile_of_token? inText stands

end Layout

/-- The end of file is the last token of a source, and no other. -/
theorem tokenize_endOfFile {source : String} {tokens : List Token}
    (tokenized : tokenize source = .ok tokens) :
    ∃ body last, tokens = body ++ [last] ∧ last.kind = .endOfFile ∧
      ∀ token ∈ body, token.kind ≠ .endOfFile := by
  obtain ⟨added, state, runs, rfl⟩ := Layout.runs_of_tokenize tokenized
  refine ⟨added ++ _, _, (List.append_assoc _ _ _).symm, rfl, ?_⟩
  intro token member
  rcases List.mem_append.mp member with isAdded | isFinal
  · exact runs.ne_endOfFile token isAdded
  · grind

/-! ### Two sources -/

namespace Layout

variable {state : State}

/-- Outside brackets and blocks, a line break leaves the layout as a source finds it, and adds
what the end of the source would. -/
theorem step_lineBreak (offset : Nat) (outside : state.depth = 0) (noBlocks : state.blocks = []) :
    ∃ ended,
      step state offset ⟨.lineBreak, ['\n']⟩ = .ok (ended, State.initial.shift (offset + 1)) ∧
      ended.map (·.kind) ++ [.endOfFile] = (finish state offset).map (·.kind) := by
  obtain ⟨depth, margin, blocks⟩ := state
  subst outside noBlocks
  have start : State.initial.shift (offset + 1) = ⟨0, some (.empty (offset + 1)), []⟩ := by
    simp [State.initial, State.shift, Margin.shift, Margin.empty]
  cases margin with
  | none => exact ⟨[⟨.newline, ⟨offset, offset + 1⟩⟩], by rw [start]; rfl, rfl⟩
  | some margin => exact ⟨[], by rw [start]; rfl, rfl⟩

/-- The tokens that end a source open and close no brackets. -/
theorem foldl_depthAfter_finish (offset depth : Nat) (noBlocks : state.blocks = []) :
    ((finish state offset).map (·.kind)).foldl depthAfter depth = depth := by
  obtain ⟨_, margin, blocks⟩ := state
  subst noBlocks
  cases margin <;> rfl

end Layout

/-- If the first of two sources opens no block and closes its brackets, a line break between
them leaves the tokens of each as they are, up to their places; only the end of the first
one is lost. -/
theorem tokenize_join {first second : String} {firstTokens secondTokens : List Token}
    (fits : (first ++ "\n" ++ second).utf8ByteSize ≤ Span.offsetLimit)
    (firstTokenized : tokenize first = .ok firstTokens)
    (secondTokenized : tokenize second = .ok secondTokens)
    (noBlock : .indent ∉ firstTokens.map (·.kind))
    (balanced : Layout.depthOf (firstTokens.map (·.kind)) = 0) :
    ∃ front, tokenize (first ++ "\n" ++ second) =
        .ok (front ++ secondTokens.map (·.shift (first.utf8ByteSize + 1))) ∧
      front.map (·.kind) ++ [.endOfFile] = firstTokens.map (·.kind) ∧
      ∀ token ∈ front.getLast?, token.kind = .newline := by
  obtain ⟨added, last, runs, rfl⟩ := Layout.runs_of_tokenize firstTokenized
  obtain ⟨others, final, secondRuns, rfl⟩ := Layout.runs_of_tokenize secondTokenized
  have noBlocks : last.blocks = [] := by
    refine runs.blocks_eq_nil fun token member isIndent => noBlock ?_
    rw [← isIndent]
    exact List.mem_map_of_mem (List.mem_append_left _ member)
  have outside : last.depth = 0 := by
    have cuts := Lexeme.cuts_split first.toList
    rw [← List.append_nil (Lexeme.split _)] at cuts
    rw [List.map_append, Layout.depthOf_append,
      Layout.foldl_depthAfter_finish _ _ noBlocks] at balanced
    rw [(Layout.placed_of_runs cuts runs).depth, balanced]
  have size : Layout.extent (Lexeme.split first.toList) = first.utf8ByteSize := by
    rw [Layout.extent, (Lexeme.cuts_split _).flatMap_text, Text.byteLength_toList]
  obtain ⟨ended, stepped, shape⟩ := Layout.step_lineBreak first.utf8ByteSize outside noBlocks
  -- The lexemes of the first source and the line break, then those of the second source.
  have frontRuns : Layout.Runs .initial 0
      (Lexeme.split first.toList ++ [⟨.lineBreak, ['\n']⟩]) (added ++ (ended ++ []))
      (Layout.State.initial.shift (first.utf8ByteSize + 1)) := by
    refine runs.append (.more ?_ .none)
    rw [Nat.zero_add, size, stepped]
  have lexemes : Lexeme.split (first ++ "\n" ++ second).toList =
      Lexeme.split first.toList ++ [⟨.lineBreak, ['\n']⟩] ++ Lexeme.split second.toList := by
    have text : (first ++ "\n" ++ second).toList = first.toList ++ '\n' :: second.toList := by
      simp
    rw [text, Lexeme.split_append_lineBreak _ fun lexeme member => runs.kind_ne_stray member,
      List.append_assoc]
    rfl
  have wholeRuns : Layout.Runs .initial 0 (Lexeme.split (first ++ "\n" ++ second).toList)
      (added ++ ended ++ others.map (·.shift (first.utf8ByteSize + 1)))
      (final.shift (first.utf8ByteSize + 1)) := by
    rw [List.append_nil] at frontRuns
    rw [lexemes]
    refine frontRuns.append ?_
    have start : Layout.extent (Lexeme.split first.toList ++ [⟨.lineBreak, ['\n']⟩]) =
        first.utf8ByteSize + 1 := by
      rw [Layout.extent_append, size]
      rfl
    rw [start]
    exact secondRuns.shift (first.utf8ByteSize + 1)
  refine ⟨added ++ ended, ?_, ?_, ?_⟩
  · have total : (first ++ "\n" ++ second).utf8ByteSize =
        second.utf8ByteSize + (first.utf8ByteSize + 1) := by
      rw [String.utf8ByteSize_append, String.utf8ByteSize_append, Nat.add_comm]
      rfl
    rw [Layout.tokenize_of_runs fits wholeRuns, total, Layout.finish_shift, List.map_append,
      List.append_assoc]
  · rw [List.map_append, List.append_assoc, shape, List.map_append]
  · simpa using frontRuns.newline_of_getLast? rfl

end Transpiler
