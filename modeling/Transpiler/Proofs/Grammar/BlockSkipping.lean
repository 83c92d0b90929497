import Transpiler.Proofs.Grammar.EndOfFile
import Transpiler.Proofs.Grammar.LineLocality
import Transpiler.Proofs.Grammar.StatementReading
import Transpiler.Proofs.Token.Blocks

/-!
Contract: where the parts of a compound statement end.

Owns: tokens that close a number of blocks (`Closes`), the stretch of tokens that is passed over
as a block (`blockTokens_append`), what the steps over a decorator, a clause and a line of simple
statements do when the tokens of their line and its end are given, and that the lines and clauses
of a source begin outside all blocks (`StartsLine.outside`, `StartsClause.outside`).

Does not own: how the tokens of a source mark lines and blocks, or what becomes of a module when
the tokens of a block change.
-/

namespace Transpiler

/-! ### Tokens that open and close blocks -/

/-- How many blocks are opened among the tokens. -/
def blocksOpened (tokens : List Token) : Nat :=
  (tokens.map (·.kind)).count .indent

/-- How many blocks are closed among the tokens. -/
def blocksClosed (tokens : List Token) : Nat :=
  (tokens.map (·.kind)).count .dedent

@[simp] theorem blocksOpened_nil : blocksOpened [] = 0 := rfl

@[simp] theorem blocksClosed_nil : blocksClosed [] = 0 := rfl

@[simp] theorem blocksOpened_append (first second : List Token) :
    blocksOpened (first ++ second) = blocksOpened first + blocksOpened second := by
  simp [blocksOpened]

@[simp] theorem blocksClosed_append (first second : List Token) :
    blocksClosed (first ++ second) = blocksClosed first + blocksClosed second := by
  simp [blocksClosed]

theorem blocksOpened_cons (token : Token) (rest : List Token) :
    blocksOpened (token :: rest) = (if token.kind = .indent then 1 else 0) + blocksOpened rest := by
  by_cases isKind : token.kind = .indent <;> simp [blocksOpened, isKind, Nat.add_comm]

theorem blocksClosed_cons (token : Token) (rest : List Token) :
    blocksClosed (token :: rest) = (if token.kind = .dedent then 1 else 0) + blocksClosed rest := by
  by_cases isKind : token.kind = .dedent <;> simp [blocksClosed, isKind, Nat.add_comm]

/-- Tokens of one line open and close no block. -/
private theorem blocks_of_visible {tokens : List Token}
    (visible : ∀ token ∈ tokens, token.kind.isLayout = false) :
    blocksOpened tokens = 0 ∧ blocksClosed tokens = 0 := by
  have absent {kind : TokenKind} (marks : kind.isLayout = true) :
      (tokens.map (·.kind)).count kind = 0 := by
    refine List.count_eq_zero.mpr ?_
    intro member
    obtain ⟨token, inTokens, rfl⟩ := List.mem_map.mp member
    rw [visible token inTokens] at marks
    cases marks
  exact ⟨absent rfl, absent rfl⟩

/-- Tokens that close `depth` blocks besides those they open: the outer blocks are closed in turn,
and what is opened is closed. -/
structure Closes (depth : Nat) (tokens : List Token) : Prop where
  noEnd : ∀ token ∈ tokens, token.kind ≠ .endOfFile
  nested : ∀ front, front <+: tokens → blocksClosed front ≤ depth + blocksOpened front
  counted : blocksClosed tokens = depth + blocksOpened tokens

/-- Tokens that close the blocks they open and no others. -/
abbrev Paired (tokens : List Token) : Prop :=
  Closes 0 tokens

namespace Closes

variable {depth inner : Nat} {token : Token} {rest : List Token}

theorem nil : Closes 0 [] where
  noEnd := by simp
  nested := by simp
  counted := rfl

theorem cons (closes : Closes inner rest) (notEnd : token.kind ≠ .endOfFile)
    (counts : depth + blocksOpened [token] = inner + blocksClosed [token]) :
    Closes depth (token :: rest) where
  noEnd := List.forall_mem_cons.mpr ⟨notEnd, closes.noEnd⟩
  nested front isPrefix := by
    cases front with
    | nil => exact Nat.zero_le _
    | cons first front =>
        obtain ⟨rfl, inRest⟩ := List.cons_prefix_cons.mp isPrefix
        have below := closes.nested front inRest
        rw [← List.singleton_append, blocksClosed_append, blocksOpened_append]
        omega
  counted := by
    have total := closes.counted
    rw [← List.singleton_append, blocksClosed_append, blocksOpened_append]
    omega

end Closes

/-! ### The tokens of a block -/

@[simp] theorem blockTokens_zero (tokens : List Token) : blockTokens 0 tokens = [] := by
  cases tokens <;> rfl

/-- A token changes the number of open blocks by those it opens and closes. -/
theorem blockTokens_cons {token : Token} {depth inner : Nat} (notEnd : token.kind ≠ .endOfFile)
    (counts : depth + 1 + blocksOpened [token] = inner + blocksClosed [token])
    (rest : List Token) :
    blockTokens (depth + 1) (token :: rest) = token :: blockTokens inner rest := by
  simp only [blocksOpened_cons, blocksClosed_cons, blocksOpened_nil, blocksClosed_nil] at counts
  rw [blockTokens]
  split
  next isEnd => exact absurd isEnd notEnd
  next isIndent =>
    rw [if_pos isIndent, if_neg (by simp [isIndent])] at counts
    obtain rfl : inner = depth + 2 := by omega
    rfl
  next isDedent =>
    rw [if_pos isDedent, if_neg (by simp [isDedent])] at counts
    obtain rfl : inner = depth := by omega
    rfl
  next notIndent notDedent =>
    rw [if_neg notIndent, if_neg notDedent] at counts
    obtain rfl : inner = depth + 1 := by omega
    rfl

/-- How a stretch of tokens without an end of file bears on the block it stands in: it closes the
block, and nothing after that is looked at, or it leaves blocks open. -/
theorem blockTokens_append (depth : Nat) (tokens : List Token)
    (noEnd : ∀ token ∈ tokens, token.kind ≠ .endOfFile) :
    (∃ body closing rest, tokens = body ++ closing :: rest ∧ closing.kind = .dedent ∧
      Closes depth body ∧
      ∀ others, blockTokens (depth + 1) (tokens ++ others) = body ++ [closing]) ∨
    ∃ outer, blocksClosed tokens + outer = depth + blocksOpened tokens ∧
      ∀ others, blockTokens (depth + 1) (tokens ++ others) =
        tokens ++ blockTokens (outer + 1) others := by
  induction tokens generalizing depth with
  | nil => exact .inr ⟨depth, by simp, fun _ => rfl⟩
  | cons token rest inductionHypothesis =>
      obtain ⟨notEnd, restNoEnd⟩ := List.forall_mem_cons.mp noEnd
      have closesOne : blocksClosed [token] ≤ 1 := by
        rw [blocksClosed_cons]
        split <;> simp
      have total := List.singleton_append (x := token) (l := rest)
      -- The blocks that are open after the token; with none left the block is closed.
      obtain ⟨inner, counts⟩ : ∃ inner,
          depth + 1 + blocksOpened [token] = inner + blocksClosed [token] :=
        ⟨depth + 1 + blocksOpened [token] - blocksClosed [token], by omega⟩
      cases inner with
      | zero =>
          have isDedent : token.kind = .dedent := by
            by_contra notDedent
            simp [blocksClosed_cons, notDedent] at counts
          have outermost : depth = 0 := by omega
          subst outermost
          refine .inl ⟨[], token, rest, rfl, isDedent, .nil, fun others => ?_⟩
          rw [List.cons_append, blockTokens_cons notEnd counts, blockTokens_zero]
          rfl
      | succ inner =>
          have step (others : List Token) := blockTokens_cons notEnd counts (rest ++ others)
          rcases inductionHypothesis inner restNoEnd with
            ⟨body, closing, more, rfl, isDedent, closes, taken⟩ | ⟨outer, open_, taken⟩
          · refine .inl ⟨token :: body, closing, more, rfl, isDedent,
              closes.cons notEnd (by omega), fun others => ?_⟩
            rw [List.cons_append, step, taken]
            rfl
          · refine .inr ⟨outer, ?_, fun others => ?_⟩
            · rw [← total, blocksClosed_append, blocksOpened_append]
              omega
            · rw [List.cons_append, step, taken]
              rfl

/-- Tokens that close what they open are passed over and leave the open blocks as they are. -/
theorem Closes.blockTokens_append {body : List Token} (paired : Paired body) (depth : Nat)
    (others : List Token) :
    blockTokens (depth + 1) (body ++ others) = body ++ blockTokens (depth + 1) others := by
  rcases Transpiler.blockTokens_append depth body paired.noEnd with
    ⟨front, closing, rest, rfl, isDedent, closes, _⟩ | ⟨outer, counts, taken⟩
  · have below := paired.nested (front ++ [closing]) ⟨rest, by simp⟩
    have counted := closes.counted
    simp only [blocksClosed_append, blocksOpened_append, blocksClosed_cons, blocksOpened_cons,
      isDedent, if_true, blocksClosed_nil, blocksOpened_nil, reduceCtorEq, if_false] at below
    omega
  · have same := paired.counted
    obtain rfl : outer = depth := by omega
    exact taken others

/-! ### Lines with their end -/

theorem Cursor.skip_append (taken others : List Token) (previous : Span) :
    (⟨taken ++ others, previous⟩ : Cursor).skip taken.length =
      ⟨others, (taken.getLast?.map (·.span)).getD previous⟩ := by
  simp [skip]

namespace Parser

/-- The body of a clause after the line of its header. -/
def clauseBody (last : Span) : Parser Span := do
  if !(← eat .indent) then failHere .expectedIndentedBlock
  else
    let cursor ← get
    let body := blockTokens 1 cursor.remaining
    set (cursor.skip body.length)
    let visible := body.filter fun token => !isLayoutKind token.kind
    return (visible.getLast?.map (·.span)).getD last

private theorem skipClause_eq :
    skipClause = (do
      let first ← currentSpan
      let header ← takeUntil endsLine
      if !header.any (·.kind == .colon) then unexpected "`:`"
      else
        let last := (header.getLast?.map (·.span)).getD first
        let _ ← eat .newline
        if (header.getLast?.map (·.kind)) != some .colon then return last
        else clauseBody last) := rfl

section Lines

variable {line others : List Token} {stop : Token} {previous : Span}
  (inLine : ∀ token ∈ line, endsLine token.kind = false) (isBreak : stop.kind = .newline)
include inLine isBreak

theorem run_takeUntil_endsLine :
    takeUntil endsLine ⟨line ++ stop :: others, previous⟩ =
      .ok (line, ⟨stop :: others, (line.getLast?.map (·.span)).getD previous⟩) := by
  have goesOn : ∀ token ∈ line, (token.kind != .endOfFile && !endsLine token.kind) = true := by
    intro token member
    have same := inLine token member
    generalize token.kind = kind at same ⊢
    cases kind <;> simp_all [endsLine]
  have taken : (line ++ stop :: others).takeWhile
      (fun token => token.kind != .endOfFile && !endsLine token.kind) = line := by
    rw [List.takeWhile_append_of_pos goesOn,
      List.takeWhile_cons_of_neg (by simp [isBreak, endsLine]), List.append_nil]
  simp only [takeUntil, run_bind, run_get, run_set, run_pure, taken, Cursor.skip_append]

/-- The line at a place is what stands before its first line break. -/
private theorem line_unique {otherLine behind : List Token} {otherStop : Token}
    (inOther : ∀ token ∈ otherLine, endsLine token.kind = false)
    (otherBreak : otherStop.kind = .newline)
    (same : line ++ stop :: others = otherLine ++ otherStop :: behind) :
    line = otherLine ∧ stop :: others = otherStop :: behind := by
  have taken := @run_takeUntil_endsLine line others stop .dummy inLine isBreak
  rw [same, run_takeUntil_endsLine inOther otherBreak] at taken
  simp only [Except.ok.injEq, Prod.mk.injEq, Cursor.mk.injEq] at taken
  exact ⟨taken.1.symm, taken.2.1.symm⟩

theorem run_decoratorRound {sign : Token} (isSign : sign.kind = .atSign) (found : Bool) :
    decoratorRound found ⟨sign :: (line ++ stop :: others), previous⟩ =
      .ok (.more true, ⟨others, stop.span⟩) := by
  simp only [decoratorRound, run_bind, run_eat, Cursor.current_cons, isSign, if_true,
    Cursor.advance_cons sign _ _ (by simp [isSign]), run_takeUntil_endsLine inLine isBreak,
    isBreak, Cursor.advance_cons stop _ _ (by simp [isBreak]), run_pure]

/-- A header is a line with a colon; after a colon at its end comes a block. -/
theorem run_skipClause {last : Token} (isLast : line.getLast? = some last) :
    skipClause ⟨line ++ stop :: others, previous⟩ =
      if !line.any (·.kind == .colon) then .error (.unexpected stop "`:`")
      else if last.kind ≠ .colon then .ok (last.span, ⟨others, stop.span⟩)
      else clauseBody last.span ⟨others, stop.span⟩ := by
  rw [skipClause_eq, run_bind_of_ok (run_currentSpan _),
    run_bind_of_ok (run_takeUntil_endsLine inLine isBreak)]
  split
  next => exact run_unexpected _ _
  next =>
    rw [run_bind, run_eat]
    simp only [Cursor.current_cons, isBreak, if_true, isLast, Option.map_some, Option.getD_some,
      bne_iff_ne, ne_eq, Option.some.injEq, Cursor.advance_cons stop others _ (by simp [isBreak])]
    split <;> rfl

end Lines

/-- A block is passed over with the indent that opens it. -/
theorem run_clauseBody {opening : Token} {inner block after : List Token} {last previous : Span}
    (isIndent : opening.kind = .indent) (taken : blockTokens 1 inner = block)
    (split : inner = block ++ after) :
    clauseBody last ⟨opening :: inner, previous⟩ =
      .ok (((block.filter fun token => !isLayoutKind token.kind).getLast?.map (·.span)).getD last,
        ⟨after, (block.getLast?.map (·.span)).getD opening.span⟩) := by
  have skipped := Cursor.skip_append block after opening.span
  rw [← split] at skipped
  simp only [clauseBody, run_bind, run_eat, Cursor.current_cons, isIndent, if_true,
    Cursor.advance_cons opening _ _ (by simp [isIndent]), Bool.not_true, Bool.false_eq_true,
    if_false, run_get, taken, skipped, run_set, run_pure]

theorem run_clauseBody_of_ne {cursor : Cursor} {last : Span}
    (notIndent : cursor.current.kind ≠ .indent) :
    clauseBody last cursor = .error ⟨.expectedIndentedBlock, cursor.current.span⟩ := by
  simp [clauseBody, run_bind, run_eat, notIndent, run_failHere]

/-- A word that begins a further clause is no mark. -/
theorem isLayout_of_clause {clauses : List String} {kind : TokenKind}
    (atClause : clauses.any (kind == .keyword ·) = true) : kind.isLayout = false := by
  obtain ⟨word, _, atWord⟩ := List.any_eq_true.mp atClause
  rw [eq_of_beq atWord]
  rfl

/-- Where no compound statement begins, nothing is taken. -/
theorem yields_compoundStatement_none {cursor : Cursor} :
    compoundStatement.Yields cursor fun result after => result = none → after = cursor := by
  have skips : skipDecorators.Yields cursor fun found after => found = false → after = cursor := by
    rintro found after ran rfl
    exact ((meets_of_ok ran).mp (@meets_skipDecorators cursor fun _ => True)).2
  rw [compoundStatement_eq, yields_bind, yields_currentSpan, yields_bind]
  refine skips.mono ?_
  intro isDecorated place begun
  rw [yields_bind, yields_get]
  split
  next =>
    cases isDecorated with
    | true => exact yields_unexpected
    | false => exact yields_pure.mpr fun _ => begun rfl
  next =>
    simp only [yields_bind, yields_pure, reduceCtorEq, false_implies]
    exact fun _ _ _ _ _ _ => trivial

end Parser

/-! ### Places outside all blocks -/

/-- The last token is an end of file, and no other is. -/
theorem MarksLines.of_concat {kinds front : List TokenKind} {last : TokenKind}
    (marks : MarksLines kinds) (split : kinds = front ++ [last]) :
    last = .endOfFile ∧ .endOfFile ∉ front := by
  obtain ⟨body, ends, noEnd⟩ := marks.ends
  obtain ⟨rfl, isLast⟩ := List.append_inj' (split.symm.trans ends) rfl
  exact ⟨by simpa using isLast, noEnd⟩

/-- A token that is no mark begins the rest of a line, which a line break ends. -/
theorem MarksLines.exists_line {tokens read remaining : List Token}
    (marks : MarksLines (tokens.map (·.kind))) (split : tokens = read ++ remaining)
    (visible : (Cursor.headKind remaining).isLayout = false) :
    ∃ line stop others, remaining = line ++ stop :: others ∧ line ≠ [] ∧
      (∀ token ∈ line, token.kind.isLayout = false) ∧ stop.kind = .newline := by
  induction remaining generalizing read with
  | nil => cases visible
  | cons token rest inductionHypothesis =>
      have here : token.kind.isLayout = false := visible
      obtain ⟨next, isNext, plainOrBreak⟩ := marks.lineEnds (read.map (·.kind)) token.kind
        (rest.map (·.kind)) (by simp [split]) here
      obtain ⟨follower, others, rfl, rfl⟩ : ∃ follower others,
          rest = follower :: others ∧ follower.kind = next := by
        cases rest with
        | nil => cases isNext
        | cons follower others => exact ⟨follower, others, rfl, by simpa using isNext⟩
      rcases plainOrBreak with plain | isBreak
      · obtain ⟨line, stop, behind, shape, _, inLine, isBreak⟩ :=
          @inductionHypothesis (read ++ [token]) (by simp [split]) plain
        refine ⟨token :: line, stop, behind, ?_, by simp, ?_, isBreak⟩
        · rw [shape, List.cons_append]
        · exact List.forall_mem_cons.mpr ⟨here, inLine⟩
      · exact ⟨[token], follower, others, rfl, by simp, by simpa using here, isBreak⟩

namespace Cursor

/-- Before the place as many blocks were closed as were opened. -/
def Outside (tokens : List Token) (cursor : Cursor) : Prop :=
  ∃ read, tokens = read ++ cursor.remaining ∧ blocksOpened read = blocksClosed read

namespace Outside

variable {tokens : List Token} {cursor : Cursor}

theorem start (tokens : List Token) : (Cursor.start tokens).Outside tokens :=
  ⟨[], rfl, rfl⟩

theorem passes {others : List Token} (outside : cursor.Outside tokens) (taken : List Token)
    (split : cursor.remaining = taken ++ others)
    (even : blocksOpened taken = blocksClosed taken) (previous : Span) :
    (⟨others, previous⟩ : Cursor).Outside tokens := by
  obtain ⟨read, shape, counts⟩ := outside
  refine ⟨read ++ taken, ?_, ?_⟩
  · rw [shape, split, List.append_assoc]
  · rw [blocksOpened_append, blocksClosed_append, counts, even]

variable (marks : MarksLines (tokens.map (·.kind))) (outside : cursor.Outside tokens)
include marks outside

/-- There is no block left to be closed. -/
theorem current_ne_dedent : cursor.current.kind ≠ .dedent := by
  intro isDedent
  obtain ⟨read, shape, counts⟩ := outside
  obtain ⟨token, rest, remaining⟩ : ∃ token rest, cursor.remaining = token :: rest := by
    refine List.exists_cons_of_ne_nil fun isNil => ?_
    simp [current, isNil] at isDedent
  have isToken : token.kind = .dedent := by simpa [current, remaining] using isDedent
  have below := marks.nested ((read ++ [token]).map (·.kind)) ⟨rest.map (·.kind), by
    simp [shape, remaining]⟩
  have opened := blocksOpened_append read [token]
  have closed := blocksClosed_append read [token]
  rw [blocksOpened_cons, if_neg (by simp [isToken]), blocksOpened_nil] at opened
  rw [blocksClosed_cons, if_pos isToken, blocksClosed_nil] at closed
  unfold blocksOpened blocksClosed at *
  omega

/-- A line that begins with no mark ends with a line break and opens and closes no block. -/
theorem exists_line (visible : cursor.current.kind.isLayout = false) :
    ∃ line stop others, cursor.remaining = line ++ stop :: others ∧ line ≠ [] ∧
      (∀ token ∈ line, Parser.endsLine token.kind = false) ∧ stop.kind = .newline ∧
      ∀ previous, (⟨others, previous⟩ : Cursor).Outside tokens := by
  obtain ⟨read, shape, counts⟩ := outside
  rw [current_kind] at visible
  obtain ⟨line, stop, others, remaining, nonempty, plain, isBreak⟩ :=
    marks.exists_line shape visible
  have inLine : ∀ token ∈ line, Parser.endsLine token.kind = false :=
    fun token member => Extent.endsLine_of_isLayout (plain token member)
  refine ⟨line, stop, others, remaining, nonempty, inLine, isBreak, ?_⟩
  have noBlocks := blocks_of_visible plain
  apply Outside.passes ⟨read, shape, counts⟩ (line ++ [stop])
  · rw [remaining, List.append_assoc, List.singleton_append]
  · simp [noBlocks, blocksOpened_cons, blocksClosed_cons, isBreak]

omit outside in
/-- A block is closed before the end of file. -/
theorem exists_block {opening : Token} {inner : List Token} {previous : Span}
    (outside : (⟨opening :: inner, previous⟩ : Cursor).Outside tokens)
    (isIndent : opening.kind = .indent) :
    ∃ body closing after, inner = body ++ closing :: after ∧ closing.kind = .dedent ∧
      Paired body ∧ blockTokens 1 inner = body ++ [closing] ∧
      ∀ previous, (⟨after, previous⟩ : Cursor).Outside tokens := by
  obtain ⟨read, shape, counts⟩ := outside
  have total : blocksClosed tokens = blocksOpened tokens := marks.closed
  rcases List.eq_nil_or_concat inner with rfl | ⟨core, final, rfl⟩
  · have isEnd : opening.kind = .endOfFile :=
      (marks.of_concat (by rw [shape, List.map_append]; rfl)).1
    rw [isIndent] at isEnd
    cases isEnd
  obtain ⟨isEnd, noEnd⟩ : final.kind = .endOfFile ∧
      .endOfFile ∉ (read ++ opening :: core).map (·.kind) :=
    marks.of_concat (by simp [shape])
  rw [shape] at total
  have coreNoEnd : ∀ token ∈ core, token.kind ≠ .endOfFile := by
    intro token member isEnd
    apply noEnd
    rw [← isEnd]
    exact List.mem_map_of_mem (by simp [member])
  rcases blockTokens_append 0 core coreNoEnd with
    ⟨body, closing, rest, rfl, isDedent, closes, taken⟩ | ⟨outer, stillOpen, _⟩
  · refine ⟨body, closing, rest ++ [final], by simp, isDedent, closes, ?_, ?_⟩
    · rw [List.concat_eq_append]
      exact taken [final]
    apply Outside.passes ⟨read, shape, counts⟩ (opening :: (body ++ [closing]))
    · simp
    · have even := closes.counted
      simp only [blocksOpened_cons, blocksClosed_cons, blocksOpened_append, blocksClosed_append,
        isIndent, isDedent, reduceCtorEq, if_true, if_false, blocksOpened_nil, blocksClosed_nil]
      omega
  · simp only [blocksClosed_append, blocksOpened_append, blocksClosed_cons, blocksOpened_cons,
      isIndent, isEnd, reduceCtorEq, if_true, if_false, List.concat_eq_append,
      blocksClosed_nil, blocksOpened_nil] at total
    omega

end Outside
end Cursor

namespace Parser

section Outside

variable {tokens : List Token} {cursor : Cursor} (marks : MarksLines (tokens.map (·.kind)))
  (outside : cursor.Outside tokens)
include marks outside

private theorem yields_skipDecorators_outside :
    skipDecorators.Yields cursor fun _ after => after.Outside tokens := by
  rw [skipDecorators_eq]
  refine yields_iterate_of_rounds (fun _ after => after.Outside tokens) outside ?_
  rintro found ⟨remaining, previous⟩ outside
  by_cases atSign : (⟨remaining, previous⟩ : Cursor).current.kind = .atSign
  · obtain ⟨line, stop, others, rfl, nonempty, inLine, isBreak, behind⟩ :=
      outside.exists_line marks (by rw [atSign]; rfl)
    obtain ⟨sign, rest, rfl⟩ := List.exists_cons_of_ne_nil nonempty
    have goesOn := (List.forall_mem_cons.mp inLine).2
    exact (yields_of_ok (run_decoratorRound goesOn isBreak atSign found)).mpr (behind _)
  · simp only [decoratorRound, yields_bind, yields_eat, yields_ite, yields_pure, atSign,
      false_implies, true_and, Bool.false_eq_true, not_false_eq_true, forall_const]
    exact fun _ => outside

/-- A block is passed over through the dedent that closes it. -/
private theorem run_clauseBody_outside (isIndent : cursor.current.kind = .indent) (last : Span) :
    ∃ opening body closing after span, cursor.remaining = opening :: (body ++ closing :: after) ∧
      closing.kind = .dedent ∧ Paired body ∧
      blockTokens 1 (body ++ closing :: after) = body ++ [closing] ∧
      clauseBody last cursor = .ok (span, ⟨after, closing.span⟩) ∧
      Cursor.Outside tokens ⟨after, closing.span⟩ := by
  obtain ⟨remaining, previous⟩ := cursor
  cases remaining with
  | nil => cases isIndent
  | cons opening inner =>
      obtain ⟨body, closing, after, rfl, isDedent, paired, taken, behind⟩ :=
        outside.exists_block marks isIndent
      have passed := @run_clauseBody _ _ _ after last previous isIndent taken (by simp)
      rw [List.getLast?_concat] at passed
      exact ⟨opening, body, closing, after, _, rfl, isDedent, paired, taken, passed, behind _⟩

private theorem yields_skipClause_outside (visible : cursor.current.kind.isLayout = false) :
    skipClause.Yields cursor fun _ after => after.Outside tokens := by
  obtain ⟨line, stop, others, shape, nonempty, inLine, isBreak, behind⟩ :=
    outside.exists_line marks visible
  obtain ⟨remaining, previous⟩ := cursor
  obtain rfl : remaining = line ++ stop :: others := shape
  obtain ⟨last, isLast⟩ := Option.ne_none_iff_exists'.mp
    (fun isNone => nonempty (List.getLast?_eq_none_iff.mp isNone))
  intro span after ran
  rw [run_skipClause inLine isBreak isLast] at ran
  split at ran
  next => cases ran
  next =>
    split at ran
    next =>
      cases ran
      exact behind _
    next =>
      by_cases isIndent : (⟨others, stop.span⟩ : Cursor).current.kind = .indent
      · obtain ⟨_, _, closing, rest, _, _, _, _, _, passed, behind⟩ :=
          run_clauseBody_outside marks (behind stop.span) isIndent last.span
        rw [passed] at ran
        cases ran
        exact behind
      · rw [run_clauseBody_of_ne isIndent] at ran
        cases ran

private theorem yields_compoundStatement_outside :
    compoundStatement.Yields cursor fun _ after => after.Outside tokens := by
  rw [compoundStatement_eq, yields_bind, yields_currentSpan, yields_bind]
  refine (yields_skipDecorators_outside marks outside).mono ?_
  intro isDecorated place outside
  rw [yields_bind, yields_get]
  split
  next =>
    rw [yields_ite, yields_pure]
    exact ⟨fun _ => yields_unexpected, fun _ => outside⟩
  next kind found =>
    simp only [yields_bind, yields_pure]
    refine (yields_skipClause_outside marks outside (isLayout_of_compoundKind? found)).mono ?_
    intro last after outside
    refine yields_iterate_of_rounds (fun _ after => after.Outside tokens) outside ?_
    intro last place outside
    simp only [clauseRound, yields_bind, yields_currentKind, yields_ite, yields_pure]
    refine ⟨fun atClause => ?_, fun _ => outside⟩
    exact yields_skipClause_outside marks outside (isLayout_of_clause atClause)

private theorem yields_line_outside (visible : cursor.current.kind.isLayout = false) :
    line.Yields cursor fun _ after => after.Outside tokens := by
  rw [line, yields_bind]
  intro result place ran
  have behind := yields_compoundStatement_outside marks outside result place ran
  cases result with
  | some statement => exact yields_pure.mpr behind
  | none =>
      obtain rfl := yields_compoundStatement_none none place ran rfl
      obtain ⟨line, stop, others, shape, _, inLine, isBreak, afterLine⟩ :=
        outside.exists_line marks visible
      obtain ⟨remaining, previous⟩ := place
      obtain rfl : remaining = line ++ stop :: others := shape
      intro statements after ran
      dsimp only at ran
      rw [run_simpleLine inLine isBreak] at ran
      cases alone : simpleLine ⟨line ++ [stop], previous⟩ with
      | error error =>
          rw [alone] at ran
          cases ran
      | ok result =>
          rw [alone] at ran
          cases ran
          exact afterLine _

private theorem yields_lineRound_outside (body : List Stmt) :
    (lineRound body).Yields cursor fun _ after => after.Outside tokens := by
  have notDedent := outside.current_ne_dedent marks
  rw [lineRound, yields_bind, yields_currentKind]
  split
  next => exact yields_pure.mpr outside
  next atBreak =>
    rw [yields_bind, yields_advance, yields_pure]
    obtain ⟨remaining, previous⟩ := cursor
    cases remaining with
    | nil => cases atBreak
    | cons token rest =>
        have isBreak : token.kind = .newline := atBreak
        rw [Cursor.advance_cons token rest previous (by simp [isBreak])]
        exact outside.passes [token] rfl (by simp [blocksOpened_cons, blocksClosed_cons, isBreak]) _
  next => exact yields_failHere
  next notEnd notBreak notIndent =>
    simp only [yields_bind, yields_pure]
    apply yields_line_outside marks outside
    generalize cursor.current.kind = kind at *
    cases kind <;> simp_all [TokenKind.isLayout]

end Outside

/-! ### Where lines and clauses begin -/

/-- The places where the lines of a module begin, with the statements read before them. -/
inductive StartsLine (tokens : List Token) : List Stmt → Cursor → Prop where
  | first : StartsLine tokens [] (.start tokens)
  | next {body more : List Stmt} {cursor after : Cursor} (starts : StartsLine tokens body cursor)
      (ran : lineRound body cursor = .ok (.more more, after)) : StartsLine tokens more after

/-- The places where the clauses of compound statements begin. -/
inductive StartsClause (tokens : List Token) : CompoundKind → Cursor → Prop where
  | first {body : List Stmt} {cursor after : Cursor} {isDecorated : Bool} {kind : CompoundKind}
      (starts : StartsLine tokens body cursor)
      (decorators : skipDecorators cursor = .ok (isDecorated, after))
      (begins : compoundKind? after = some kind) : StartsClause tokens kind after
  | next {kind : CompoundKind} {cursor after : Cursor} {last : Span}
      (starts : StartsClause tokens kind cursor) (ran : skipClause cursor = .ok (last, after))
      (begins : kind.clauses.any (after.current.kind == .keyword ·) = true) :
      StartsClause tokens kind after

/-- The clause at a place has a block: a colon and a line break end its header, and an indent
follows. Given is what comes after the indent. -/
def HasBlock (cursor : Cursor) (inner : List Token) : Prop :=
  ∃ header colon stop opening, cursor.remaining = header ++ colon :: stop :: opening :: inner ∧
    (∀ token ∈ header, endsLine token.kind = false) ∧ colon.kind = .colon ∧
    stop.kind = .newline ∧ opening.kind = .indent

section Starts

variable {tokens : List Token} {cursor : Cursor} (marks : MarksLines (tokens.map (·.kind)))
include marks

theorem StartsLine.outside {body : List Stmt} (starts : StartsLine tokens body cursor) :
    cursor.Outside tokens := by
  induction starts with
  | first => exact .start tokens
  | next _ ran outside => exact yields_lineRound_outside marks outside _ _ _ ran

theorem StartsClause.outside {kind : CompoundKind} (starts : StartsClause tokens kind cursor) :
    cursor.Outside tokens ∧ cursor.current.kind.isLayout = false := by
  induction starts with
  | first starts decorators begins =>
      exact ⟨yields_skipDecorators_outside marks (starts.outside marks) _ _ decorators,
        isLayout_of_compoundKind? begins⟩
  | next _ ran begins here =>
      obtain ⟨outside, visible⟩ := here
      exact ⟨yields_skipClause_outside marks outside visible _ _ ran, isLayout_of_clause begins⟩

/-- A clause with a block is passed over through the dedent that closes the block. -/
theorem StartsClause.skipClause_block {kind : CompoundKind} {inner : List Token}
    (starts : StartsClause tokens kind cursor) (hasBlock : HasBlock cursor inner) :
    ∃ body closing after last, inner = body ++ closing :: after ∧ closing.kind = .dedent ∧
      Paired body ∧ blockTokens 1 inner = body ++ [closing] ∧
      skipClause cursor = .ok (last, ⟨after, closing.span⟩) := by
  obtain ⟨outside, visible⟩ := starts.outside marks
  obtain ⟨header, colon, stop, opening, split, inHeader, isColon, isBreak, isIndent⟩ := hasBlock
  obtain ⟨remaining, previous⟩ := cursor
  obtain rfl : remaining = (header ++ [colon]) ++ stop :: opening :: inner := by simpa using split
  have inLine : ∀ token ∈ header ++ [colon], endsLine token.kind = false := by
    refine List.forall_mem_append.mpr ⟨inHeader, ?_⟩
    simp [isColon, endsLine]
  have behind : Cursor.Outside tokens ⟨opening :: inner, stop.span⟩ := by
    obtain ⟨line, ending, others, shape, _, goesOn, isEnding, behind⟩ :=
      outside.exists_line marks visible
    obtain ⟨_, same⟩ := line_unique inLine isBreak goesOn isEnding shape
    rw [(List.cons.inj same).2]
    exact behind _
  obtain ⟨_, body, closing, after, last, shape, isDedent, paired, taken, passed, _⟩ :=
    run_clauseBody_outside marks behind isIndent colon.span
  obtain ⟨_, rfl⟩ := List.cons.inj shape
  refine ⟨body, closing, after, last, rfl, isDedent, paired, taken, ?_⟩
  rw [run_skipClause inLine isBreak List.getLast?_concat, if_neg (by simp [isColon]),
    if_neg (by simp [isColon])]
  exact passed

end Starts
end Parser

end Transpiler
