import Transpiler.Proofs.Generate.SourceLayout
import Transpiler.Proofs.Grammar.BlockSkipping

/-!
Contract: the tokens of a block have no bearing on the module around it.

Owns: tokens without locations that differ in the body of one block (`BlockSwap`), that every rule
for lines and compound statements does the same on both, and that the blocks of a source are
passed over whole (`tokenize_seals_blocks`).

Does not own: where the lines and clauses of a source begin, or the rules for one line.
-/

namespace Transpiler

/-! ### Lines before a block -/

/-- Whole lines without an end of file, whose tokens have no locations. -/
structure WholeLines (tokens : List Token) : Prop where
  ended : ∀ last ∈ tokens.getLast?, last.kind = .newline
  noEnd : ∀ token ∈ tokens, token.kind ≠ .endOfFile
  unlocated : ∀ token ∈ tokens, token.span = .dummy

namespace WholeLines

variable {tokens : List Token}

/-- What is left of whole lines ends as they do. -/
theorem of_append {front rest : List Token} (lines : WholeLines (front ++ rest)) :
    WholeLines rest where
  ended last isLast := lines.ended last (by
    rw [Option.mem_def] at isLast ⊢
    rw [List.getLast?_append, isLast]
    rfl)
  noEnd token member := lines.noEnd token (List.mem_append_right front member)
  unlocated token member := lines.unlocated token (List.mem_append_right front member)

theorem exists_line (lines : WholeLines tokens) (nonempty : tokens ≠ []) :
    ∃ line stop rest, tokens = line ++ stop :: rest ∧
      (∀ token ∈ line, Parser.endsLine token.kind = false) ∧ stop.kind = .newline := by
  induction tokens with
  | nil => exact absurd rfl nonempty
  | cons first others inductionHypothesis =>
      cases ends : Parser.endsLine first.kind with
      | true =>
          have isBreak := (Bound.newline_or_end ends).resolve_right
            (lines.noEnd first List.mem_cons_self)
          exact ⟨[], first, others, rfl, by simp, isBreak⟩
      | false =>
          have notLast : others ≠ [] := by
            rintro rfl
            have isBreak := lines.ended first rfl
            rw [isBreak] at ends
            cases ends
          have later : WholeLines others := @of_append [first] others lines
          obtain ⟨line, stop, rest, rfl, inLine, isBreak⟩ := inductionHypothesis later notLast
          exact ⟨first :: line, stop, rest, rfl, List.forall_mem_cons.mpr ⟨ends, inLine⟩, isBreak⟩

end WholeLines

/-! ### Two bodies of a block -/

/-- Two bodies of one block, and what comes after it. -/
structure BlockSwap where
  opening : Token
  first : List Token
  second : List Token
  closing : Token
  after : List Token
  opens : opening.kind = .indent
  closes : closing.kind = .dedent
  firstPaired : Paired first
  secondPaired : Paired second
  unlocated : ∀ token ∈ opening :: closing :: (first ++ second ++ after), token.span = .dummy

namespace BlockSwap

/-- The block with one of its bodies, and what comes after it. -/
def holding (swap : BlockSwap) (body : List Token) : List Token :=
  swap.opening :: (body ++ swap.closing :: swap.after)

/-- Places that differ at most in the body of the block, which is still to come. -/
inductive Beside (swap : BlockSwap) : Cursor → Cursor → Prop where
  | same (cursor : Cursor) : swap.Beside cursor cursor
  | ahead {front : List Token} (lines : WholeLines front) (previous : Span) :
      swap.Beside ⟨front ++ swap.holding swap.first, previous⟩
        ⟨front ++ swap.holding swap.second, previous⟩

/-- Runs that yield the same value at such places, or fail with the same error. -/
inductive Alike (swap : BlockSwap) {α : Type} :
    Except ParseError (α × Cursor) → Except ParseError (α × Cursor) → Prop where
  | ok (value : α) {here there : Cursor} (beside : swap.Beside here there) :
      swap.Alike (.ok (value, here)) (.ok (value, there))
  | error (error : ParseError) : swap.Alike (.error error) (.error error)

variable {swap : BlockSwap} {here there : Cursor}

theorem Beside.current_eq (beside : swap.Beside here there) : here.current = there.current := by
  cases beside with
  | same => rfl
  | @ahead front lines previous => cases front <;> rfl

/-- At a line that is not the block itself, the whole line comes before the block. -/
theorem Beside.exists_line (beside : swap.Beside here there)
    (notBreak : here.current.kind ≠ .newline) (notIndent : here.current.kind ≠ .indent) :
    here = there ∨ ∃ line stop rest previous,
      here = ⟨line ++ stop :: (rest ++ swap.holding swap.first), previous⟩ ∧
      there = ⟨line ++ stop :: (rest ++ swap.holding swap.second), previous⟩ ∧
      line ≠ [] ∧ (∀ token ∈ line, Parser.endsLine token.kind = false) ∧
      stop.kind = .newline ∧ WholeLines rest ∧ ∀ token ∈ line, token.span = .dummy := by
  cases beside with
  | same => exact .inl rfl
  | @ahead front lines previous =>
      have nonempty : front ≠ [] := by
        rintro rfl
        exact notIndent swap.opens
      obtain ⟨line, stop, rest, rfl, inLine, isBreak⟩ := lines.exists_line nonempty
      refine .inr ⟨line, stop, rest, previous, by simp, by simp, ?_, inLine, isBreak, ?_, ?_⟩
      · rintro rfl
        exact notBreak isBreak
      · exact @WholeLines.of_append (line ++ [stop]) rest (by simpa using lines)
      · exact fun token member => lines.unlocated token (List.mem_append_left _ member)

private theorem ne_of_visible {kind mark : TokenKind} (visible : kind.isLayout = false)
    (isMark : mark.isLayout = true) : kind ≠ mark := by
  rintro rfl
  rw [visible] at isMark
  cases isMark

theorem Beside.compoundKind?_eq (beside : swap.Beside here there) :
    compoundKind? here = compoundKind? there := by
  have sameCurrent := beside.current_eq
  by_cases visible : here.current.kind.isLayout = false
  · rcases beside.exists_line (ne_of_visible visible rfl) (ne_of_visible visible rfl) with
      rfl | ⟨line, stop, rest, previous, rfl, rfl, nonempty, _⟩
    · rfl
    · obtain ⟨first, others, rfl⟩ := List.exists_cons_of_ne_nil nonempty
      have sameNext : ∀ more : List Token, Cursor.nextKind ⟨first :: others ++ stop :: more,
          previous⟩ = Cursor.nextKind ⟨first :: others ++ [stop], previous⟩ := by
        intro more
        cases others <;> rfl
      rw [compoundKind?, compoundKind?, sameCurrent, (sameNext _).trans (sameNext _).symm]
  · have nowhere {place : Cursor} (same : place.current = here.current) :
        compoundKind? place = none := by
      refine Option.eq_none_iff_forall_not_mem.mpr fun kind begins => visible ?_
      rw [← same]
      exact Parser.isLayout_of_compoundKind? begins
    rw [nowhere rfl, nowhere sameCurrent.symm]

/-! ### Rules that treat both bodies alike -/

section Laws

variable {α β σ : Type}

theorem Alike.refl (outcome : Except ParseError (α × Cursor)) : swap.Alike outcome outcome := by
  cases outcome with
  | ok pair => exact .ok pair.1 (.same pair.2)
  | error error => exact .error error

theorem Alike.of_ok {value : α} {outcome : Except ParseError (α × Cursor)}
    (alike : swap.Alike (.ok (value, here)) outcome) :
    ∃ there, outcome = .ok (value, there) ∧ swap.Beside here there := by
  cases alike with
  | ok _ beside => exact ⟨_, rfl, beside⟩

theorem Alike.of_error {error : ParseError} {outcome : Except ParseError (α × Cursor)}
    (alike : swap.Alike (.error error) outcome) : outcome = .error error := by
  cases alike with
  | error => rfl

theorem alike_bind {first : Parser β} {next : β → Parser α}
    (alike : swap.Alike (first here) (first there))
    (continues : ∀ value here' there', first here = .ok (value, here') →
      first there = .ok (value, there') → swap.Beside here' there' →
        swap.Alike (next value here') (next value there')) :
    swap.Alike ((first >>= next) here) ((first >>= next) there) := by
  rw [Parser.run_bind, Parser.run_bind]
  generalize ran : first here = outcome at *
  generalize ranToo : first there = otherOutcome at *
  cases alike with
  | ok value beside => exact continues value _ _ rfl rfl beside
  | error error => exact .error error

private theorem alike_currentSpan (beside : swap.Beside here there) :
    swap.Alike (Parser.currentSpan here) (Parser.currentSpan there) := by
  rw [Parser.run_currentSpan, Parser.run_currentSpan, beside.current_eq]
  exact .ok _ beside

private theorem alike_currentKind {next : TokenKind → Parser α} (beside : swap.Beside here there)
    (continues : swap.Alike (next here.current.kind here) (next here.current.kind there)) :
    swap.Alike ((Parser.currentKind >>= next) here) ((Parser.currentKind >>= next) there) := by
  rw [Parser.run_bind_of_ok (Parser.run_currentKind here),
    Parser.run_bind_of_ok (Parser.run_currentKind there), ← beside.current_eq]
  exact continues

private theorem alike_unexpected (beside : swap.Beside here there) (expected : String) :
    swap.Alike ((Parser.unexpected expected : Parser α) here)
      (Parser.unexpected expected there) := by
  rw [Parser.run_unexpected, Parser.run_unexpected, beside.current_eq]
  exact .error _

private theorem alike_failHere (beside : swap.Beside here there) (kind : ParseErrorKind) :
    swap.Alike ((Parser.failHere kind : Parser α) here) (Parser.failHere kind there) := by
  rw [Parser.run_failHere, Parser.run_failHere, beside.current_eq]
  exact .error _

/-- The tokens that bound the two repetitions differ in number, so they are compared round by round
and not bound by bound. -/
private theorem alike_loops {round : σ → Parser (Parser.Round σ)}
    (rounds : ∀ state here there, swap.Beside here there →
      swap.Alike (round state here) (round state there))
    {state : σ} {outcome otherOutcome : Except ParseError (σ × Cursor)}
    (loops : Parser.Loops round state here outcome)
    (loopsToo : Parser.Loops round state there otherOutcome) (beside : swap.Beside here there) :
    swap.Alike outcome otherOutcome := by
  induction loops generalizing there otherOutcome with
  | @done state last place after ran =>
      have alike := rounds state place there beside
      rw [ran] at alike
      obtain ⟨other, ranToo, behind⟩ := alike.of_ok
      obtain rfl := loopsToo.unique (.done ranToo)
      exact .ok last behind
  | @failed state place error ran =>
      have alike := rounds state place there beside
      rw [ran] at alike
      obtain rfl := loopsToo.unique (.failed alike.of_error)
      exact .error error
  | @more state next place between outcome ran _ inductionHypothesis =>
      have alike := rounds state place there beside
      rw [ran] at alike
      obtain ⟨other, ranToo, behind⟩ := alike.of_ok
      cases loopsToo with
      | done ranOther => simp [ranToo] at ranOther
      | failed ranOther => simp [ranToo] at ranOther
      | more ranOther others =>
          rw [ranToo] at ranOther
          cases ranOther
          exact inductionHypothesis others behind

private theorem alike_iterate {round : σ → Parser (Parser.Round σ)}
    (consumes : Parser.Consumes round)
    (rounds : ∀ state here there, swap.Beside here there →
      swap.Alike (round state here) (round state there))
    (state : σ) (beside : swap.Beside here there) :
    swap.Alike (Parser.iterate round state here) (Parser.iterate round state there) :=
  alike_loops rounds (Parser.loops_iterate consumes state here)
    (Parser.loops_iterate consumes state there) beside

end Laws

/-! ### Blocks -/

private theorem blockTokens_holding {body : List Token} (paired : Paired body) (depth : Nat) :
    blockTokens (depth + 1) (swap.holding body) =
      swap.opening :: (body ++ swap.closing :: blockTokens (depth + 1) swap.after) := by
  have opens := @blockTokens_cons swap.opening depth (depth + 2) (by simp [swap.opens])
    (by simp [blocksOpened_cons, blocksClosed_cons, swap.opens])
  have closes := @blockTokens_cons swap.closing (depth + 1) (depth + 1) (by simp [swap.closes])
    (by simp [blocksOpened_cons, blocksClosed_cons, swap.closes])
  rw [holding, opens, paired.blockTokens_append (depth + 1), closes]

/-- The block itself is passed over through its end. -/
private theorem blockTokens_body {body : List Token} (paired : Paired body) :
    blockTokens 1 (body ++ swap.closing :: swap.after) = body ++ [swap.closing] := by
  have closes := @blockTokens_cons swap.closing 0 0 (by simp [swap.closes])
    (by simp [blocksOpened_cons, blocksClosed_cons, swap.closes])
  rw [paired.blockTokens_append 0, closes, blockTokens_zero]

/-- Among tokens without locations the last one tells nothing. -/
private theorem lastSpan_eq_dummy {tokens : List Token}
    (unlocated : ∀ token ∈ tokens, token.span = .dummy) :
    (tokens.getLast?.map (·.span)).getD .dummy = .dummy := by
  cases isLast : tokens.getLast? with
  | none => rfl
  | some last => exact unlocated last (List.mem_of_getLast? isLast)

/-- Without locations all that is left of a block is where it ends. -/
private theorem run_clauseBody_unlocated {opening : Token} {inner block after : List Token}
    (isIndent : opening.kind = .indent) (taken : blockTokens 1 inner = block)
    (split : inner = block ++ after)
    (unlocated : ∀ token ∈ opening :: block, token.span = .dummy) (previous : Span) :
    Parser.clauseBody .dummy ⟨opening :: inner, previous⟩ = .ok (.dummy, ⟨after, .dummy⟩) := by
  obtain ⟨openingSpan, blockSpans⟩ := List.forall_mem_cons.mp unlocated
  have visibleSpans : ∀ token ∈ block.filter fun token => !isLayoutKind token.kind,
      token.span = .dummy :=
    fun token member => blockSpans token (List.mem_of_mem_filter member)
  rw [Parser.run_clauseBody isIndent taken split, lastSpan_eq_dummy visibleSpans, openingSpan,
    lastSpan_eq_dummy blockSpans]

/-- A rule does the same with both bodies if it does something that no body of the block
changes. -/
private theorem alike_of_paired {α : Type} {rule : Parser α} {front : List Token} {previous : Span}
    {value : α} {place : Cursor}
    (ran : ∀ body, Paired body → (∀ token ∈ body, token.span = .dummy) →
      rule ⟨front ++ swap.holding body, previous⟩ = .ok (value, place)) :
    swap.Alike (rule ⟨front ++ swap.holding swap.first, previous⟩)
      (rule ⟨front ++ swap.holding swap.second, previous⟩) := by
  have unlocated := swap.unlocated
  rw [ran swap.first swap.firstPaired fun token member => unlocated token (by simp [member]),
    ran swap.second swap.secondPaired fun token member => unlocated token (by simp [member])]
  exact .ok _ (.same _)

private theorem unlocated_holding {body : List Token}
    (bodySpans : ∀ token ∈ body, token.span = .dummy) :
    ∀ token ∈ swap.holding body, token.span = .dummy := by
  intro token member
  have unlocated := swap.unlocated token
  simp only [holding, List.mem_cons, List.mem_append] at member unlocated
  rcases member with isOpening | inBody | isClosing | inAfter
  · exact unlocated (.inl isOpening)
  · exact bodySpans token inBody
  · exact unlocated (.inr (.inl isClosing))
  · exact unlocated (.inr (.inr (.inr inAfter)))

/-- The block is the body of the clause. -/
private theorem alike_clauseBody_here (previous : Span) :
    swap.Alike (Parser.clauseBody .dummy ⟨swap.holding swap.first, previous⟩)
      (Parser.clauseBody .dummy ⟨swap.holding swap.second, previous⟩) := by
  refine @alike_of_paired swap Span _ [] previous .dummy ⟨swap.after, .dummy⟩ ?_
  intro body paired bodySpans
  refine run_clauseBody_unlocated swap.opens (blockTokens_body paired) (by simp) ?_ previous
  intro token member
  apply unlocated_holding bodySpans
  simp only [holding, List.mem_cons, List.mem_append, List.not_mem_nil, or_false] at member ⊢
  tauto

/-- The block comes after the body of the clause, or is part of it. -/
private theorem alike_clauseBody_later {opening : Token} {lines : List Token}
    (isIndent : opening.kind = .indent) (whole : WholeLines (opening :: lines)) (previous : Span) :
    swap.Alike (Parser.clauseBody .dummy ⟨opening :: lines ++ swap.holding swap.first, previous⟩)
      (Parser.clauseBody .dummy ⟨opening :: lines ++ swap.holding swap.second, previous⟩) := by
  have later : WholeLines lines := @WholeLines.of_append [opening] lines whole
  rcases blockTokens_append 0 lines later.noEnd with
    ⟨body, closing, rest, rfl, isDedent, closes, taken⟩ | ⟨outer, _, taken⟩
  · -- the body of the clause ends before the block whose bodies differ
    have passed (others : List Token) :
        Parser.clauseBody .dummy ⟨opening :: (body ++ closing :: rest ++ others), previous⟩ =
          .ok (.dummy, ⟨rest ++ others, .dummy⟩) := by
      refine run_clauseBody_unlocated isIndent (taken others) (by simp) ?_ previous
      intro token member
      apply whole.unlocated
      simp only [List.mem_cons, List.mem_append, List.not_mem_nil, or_false] at member ⊢
      tauto
    rw [List.cons_append, List.cons_append, passed, passed]
    refine .ok _ (.ahead ?_ _)
    exact @WholeLines.of_append (body ++ [closing]) rest (by simpa using later)
  · -- it goes on after that block, so both runs leave at the same place behind it
    obtain ⟨rest, split⟩ := (Parser.blockTokens_isPrefix (outer + 1) swap.after).1
    refine @alike_of_paired swap Span _ (opening :: lines) previous .dummy ⟨rest, .dummy⟩ ?_
    intro body paired bodySpans
    have shape : swap.holding body = blockTokens (outer + 1) (swap.holding body) ++ rest := by
      rw [blockTokens_holding paired, holding]
      nth_rewrite 1 [← split]
      simp
    refine run_clauseBody_unlocated isIndent (taken _) ?_ ?_ previous
    · rw [List.append_assoc, ← shape]
    · intro token member
      rw [← List.cons_append] at member
      rcases List.mem_append.mp member with inLines | inBlock
      · exact whole.unlocated token inLines
      · apply unlocated_holding bodySpans
        rw [shape]
        exact List.mem_append_left rest inBlock

private theorem alike_clauseBody {lines : List Token} (whole : WholeLines lines) (previous : Span) :
    swap.Alike (Parser.clauseBody .dummy ⟨lines ++ swap.holding swap.first, previous⟩)
      (Parser.clauseBody .dummy ⟨lines ++ swap.holding swap.second, previous⟩) := by
  cases lines with
  | nil => exact alike_clauseBody_here previous
  | cons opening lines =>
      by_cases isIndent : opening.kind = .indent
      · exact alike_clauseBody_later isIndent whole previous
      · have failed (others : List Token) :
            Parser.clauseBody .dummy ⟨opening :: others, previous⟩ =
              .error ⟨.expectedIndentedBlock, opening.span⟩ :=
          Parser.run_clauseBody_of_ne isIndent
        rw [List.cons_append, List.cons_append, failed, failed]
        exact .error _

/-! ### Compound statements, lines and modules -/

private theorem alike_decoratorRound (found : Bool) (beside : swap.Beside here there) :
    swap.Alike (Parser.decoratorRound found here) (Parser.decoratorRound found there) := by
  have sameCurrent := beside.current_eq
  by_cases atSign : here.current.kind = .atSign
  · rcases beside.exists_line (by simp [atSign]) (by simp [atSign]) with
      rfl | ⟨line, stop, rest, previous, rfl, rfl, nonempty, inLine, isBreak, lines, _⟩
    · exact .refl _
    · obtain ⟨sign, others, rfl⟩ := List.exists_cons_of_ne_nil nonempty
      have goesOn := (List.forall_mem_cons.mp inLine).2
      have isSign : sign.kind = .atSign := atSign
      rw [List.cons_append, List.cons_append, Parser.run_decoratorRound goesOn isBreak isSign,
        Parser.run_decoratorRound goesOn isBreak isSign]
      exact .ok _ (.ahead lines _)
  · have done {place : Cursor} (same : place.current = here.current) :
        Parser.decoratorRound found place = .ok (.done found, place) := by
      rw [← same] at atSign
      simp only [Parser.decoratorRound, Parser.run_bind, Parser.run_eat, if_neg atSign]
      rfl
    rw [done rfl, done sameCurrent.symm]
    exact .ok _ beside

private theorem alike_skipClause (beside : swap.Beside here there)
    (visible : here.current.kind.isLayout = false) :
    swap.Alike (Parser.skipClause here) (Parser.skipClause there) := by
  rcases beside.exists_line (ne_of_visible visible rfl) (ne_of_visible visible rfl) with
    rfl | ⟨line, stop, rest, previous, rfl, rfl, nonempty, inLine, isBreak, lines, unlocated⟩
  · exact .refl _
  · obtain ⟨last, isLast⟩ := Option.ne_none_iff_exists'.mp
      (fun isNone => nonempty (List.getLast?_eq_none_iff.mp isNone))
    rw [Parser.run_skipClause inLine isBreak isLast, Parser.run_skipClause inLine isBreak isLast,
      unlocated last (List.mem_of_getLast? isLast)]
    split
    next => exact .error _
    next =>
      split
      next => exact .ok _ (.ahead lines _)
      next => exact alike_clauseBody lines _

private theorem alike_clauseRound (clauses : List String) (last : Span)
    (beside : swap.Beside here there) :
    swap.Alike (Parser.clauseRound clauses last here) (Parser.clauseRound clauses last there) := by
  refine alike_currentKind beside ?_
  split
  next atClause =>
    have visible := Parser.isLayout_of_clause atClause
    exact alike_bind (alike_skipClause beside visible) fun last _ _ _ _ beside => .ok _ beside
  next => exact .ok _ beside

private theorem alike_compoundStatement (beside : swap.Beside here there) :
    swap.Alike (Parser.compoundStatement here) (Parser.compoundStatement there) := by
  rw [Parser.compoundStatement_eq]
  refine alike_bind (alike_currentSpan beside) fun start here there _ _ beside => ?_
  refine alike_bind (alike_iterate (@Parser.roundsMirror_decorator .identity).consumes
    (fun found _ _ => alike_decoratorRound found) false beside)
    fun isDecorated here there _ _ beside => ?_
  rw [Parser.run_bind_of_ok (Parser.run_get _), Parser.run_bind_of_ok (Parser.run_get _),
    beside.compoundKind?_eq]
  cases found : compoundKind? there with
  | none =>
      cases isDecorated with
      | true => exact alike_unexpected beside _
      | false => exact .ok _ beside
  | some kind =>
      have visible : here.current.kind.isLayout = false := by
        rw [beside.current_eq]
        exact Parser.isLayout_of_compoundKind? found
      refine alike_bind (alike_skipClause beside visible) fun last _ _ _ _ beside => ?_
      exact alike_bind (alike_iterate (@Parser.roundsMirror_clause .identity kind.clauses).consumes
        (fun last _ _ => alike_clauseRound kind.clauses last) last beside)
        fun last _ _ _ _ beside => .ok _ beside

private theorem alike_line (beside : swap.Beside here there)
    (notBreak : here.current.kind ≠ .newline) (notIndent : here.current.kind ≠ .indent) :
    swap.Alike (Parser.line here) (Parser.line there) := by
  refine alike_bind (alike_compoundStatement beside) fun result _ _ ran ranToo behind => ?_
  cases result with
  | some statement => exact .ok _ behind
  | none =>
      obtain rfl := Parser.yields_compoundStatement_none none _ ran rfl
      obtain rfl := Parser.yields_compoundStatement_none none _ ranToo rfl
      dsimp only
      rcases beside.exists_line notBreak notIndent with
        rfl | ⟨line, stop, rest, previous, rfl, rfl, _, inLine, isBreak, lines, _⟩
      · exact .refl _
      · have ran (others : List Token) :=
          @Parser.run_simpleLine line stop inLine isBreak others previous
        rw [ran (rest ++ swap.holding swap.first), ran (rest ++ swap.holding swap.second)]
        cases Parser.simpleLine ⟨line ++ [stop], previous⟩ with
        | error error => exact .error error
        | ok result => exact .ok _ (.ahead lines _)

/-- A line break comes before the block. -/
private theorem alike_advance (beside : swap.Beside here there)
    (isBreak : here.current.kind = .newline) :
    swap.Alike (Parser.advance here) (Parser.advance there) := by
  cases beside with
  | same => exact .refl _
  | @ahead front lines previous =>
      cases front with
      | nil =>
          have isIndent := swap.opens
          rw [show swap.opening.kind = .newline from isBreak] at isIndent
          cases isIndent
      | cons stop rest =>
          have notEnd := lines.noEnd stop List.mem_cons_self
          have passed (others : List Token) : Parser.advance ⟨stop :: others, previous⟩ =
              .ok (stop.span, ⟨others, stop.span⟩) := by
            rw [Parser.run_advance, Cursor.advance_cons stop others previous notEnd]
            rfl
          rw [List.cons_append, List.cons_append, passed, passed]
          exact .ok _ (.ahead (@WholeLines.of_append [stop] rest lines) _)

private theorem alike_lineRound (body : List Stmt) (beside : swap.Beside here there) :
    swap.Alike (Parser.lineRound body here) (Parser.lineRound body there) := by
  refine alike_currentKind beside ?_
  cases isKind : here.current.kind
  case endOfFile => exact .ok _ beside
  case newline =>
    exact alike_bind (alike_advance beside isKind) fun _ _ _ _ _ behind => .ok _ behind
  case indent => exact alike_failHere beside _
  all_goals
    refine alike_bind (alike_line beside (by simp [isKind]) (by simp [isKind])) ?_
    exact fun statements _ _ _ _ behind => .ok _ behind

/-- After the same whole lines, both bodies of the block make the same module. -/
theorem ofTokens_eq (swap : BlockSwap) {lines : List Token} (whole : WholeLines lines) :
    Module.ofTokens (lines ++ swap.holding swap.second) =
      Module.ofTokens (lines ++ swap.holding swap.first) := by
  have alike : swap.Alike (Parser.wholeModule (.start (lines ++ swap.holding swap.first)))
      (Parser.wholeModule (.start (lines ++ swap.holding swap.second))) := by
    rw [Parser.wholeModule_eq]
    exact alike_bind (alike_iterate (@Parser.roundsMirror_line .identity).consumes
      (fun body _ _ => alike_lineRound body) [] (.ahead whole .dummy))
      fun body _ _ _ _ beside => .ok _ beside
  unfold Module.ofTokens StateT.run
  generalize Parser.wholeModule (.start (lines ++ swap.holding swap.first)) = outcome at alike ⊢
  generalize Parser.wholeModule (.start (lines ++ swap.holding swap.second)) = other at alike ⊢
  cases alike with
  | ok tree beside => rfl
  | error error => rfl

end BlockSwap

/-! ### Blocks of a source -/

section Forgetting

variable {tokens : List Token} {move : Relocation}

private theorem blocksOpened_relocate (move : Relocation) (tokens : List Token) :
    blocksOpened (tokens.map (·.relocate move)) = blocksOpened tokens := by
  simp [blocksOpened, Token.relocate, Function.comp_def]

private theorem blocksClosed_relocate (move : Relocation) (tokens : List Token) :
    blocksClosed (tokens.map (·.relocate move)) = blocksClosed tokens := by
  simp [blocksClosed, Token.relocate, Function.comp_def]

theorem Closes.relocate {depth : Nat} (closes : Closes depth tokens) :
    Closes depth (tokens.map (·.relocate move)) where
  noEnd := by simpa [Token.relocate] using closes.noEnd
  nested front isPrefix := by
    obtain ⟨original, inTokens, rfl⟩ := List.prefix_map_iff.mp isPrefix
    rw [blocksOpened_relocate, blocksClosed_relocate]
    exact closes.nested original inTokens
  counted := by rw [blocksOpened_relocate, blocksClosed_relocate, closes.counted]

private theorem span_of_mem_forget {token : Token}
    (member : token ∈ tokens.map (·.relocate .forget)) :
    token.span = .dummy := by
  obtain ⟨original, _, rfl⟩ := List.mem_map.mp member
  rfl

/-- Two bodies of a block, without locations. -/
def BlockSwap.forgetting {body other : List Token} {opening closing : Token} (after : List Token)
    (isIndent : opening.kind = .indent) (isDedent : closing.kind = .dedent) (paired : Paired body)
    (otherPaired : Paired other) : BlockSwap where
  opening := opening.relocate .forget
  first := body.map (·.relocate .forget)
  second := other.map (·.relocate .forget)
  closing := closing.relocate .forget
  after := after.map (·.relocate .forget)
  opens := isIndent
  closes := isDedent
  firstPaired := paired.relocate
  secondPaired := otherPaired.relocate
  unlocated token member :=
    @span_of_mem_forget (opening :: closing :: (body ++ other ++ after)) token
      (by simpa using member)

/-- Before a block stand whole lines. -/
theorem MarksLines.wholeLines_forget (marks : MarksLines (tokens.map (·.kind)))
    {before inner : List Token} {opening : Token} (split : tokens = before ++ opening :: inner)
    (isIndent : opening.kind = .indent) : WholeLines (before.map (·.relocate .forget)) where
  ended last isLast := by
    obtain ⟨original, isOriginal, rfl⟩ := Option.map_eq_some_iff.mp (List.getLast?_map ▸ isLast)
    rcases marks.indentAfter (before.map (·.kind)) (inner.map (·.kind))
      (by simp [split, isIndent]) with isNil | isBreak
    · simp_all
    · simpa [isOriginal, Token.relocate] using isBreak
  noEnd token member isEnd := by
    obtain ⟨original, inBefore, rfl⟩ := List.mem_map.mp member
    obtain ⟨front, last, ending⟩ : ∃ front last, opening :: inner = front ++ [last] := by
      simpa using List.eq_nil_or_concat (opening :: inner)
    have noEnd := (@MarksLines.of_concat _ ((before ++ front).map (·.kind)) last.kind marks
      (by simp [split, ending])).2
    apply noEnd
    rw [← show original.kind = .endOfFile from isEnd]
    exact List.mem_map_of_mem (List.mem_append_left front inBefore)
  unlocated token member := span_of_mem_forget member

end Forgetting

/-- What tokens form, without locations. -/
def Module.formOf (tokens : List Token) : Except ParseError Module :=
  ((ofTokens tokens).map (·.unlocated)).mapError (·.relocate .forget)

theorem Module.formOf_eq (tokens : List Token) :
    formOf tokens = ofTokens (tokens.map (·.relocate .forget)) := by
  rw [ofTokens_relocate, formOf]
  simp only [relocate_forget]

/-- Blocks are passed over whole. -/
structure SealsBlocks (tokens : List Token) : Prop where
  /-- Where a line of the module begins, every block that was opened is closed. -/
  outside : ∀ body cursor, Parser.StartsLine tokens body cursor → cursor.Outside tokens
  noDedent : ∀ body cursor, Parser.StartsLine tokens body cursor → cursor.current.kind ≠ .dedent
  /-- The block of a clause ends with the dedent that closes it, not with the end of file. -/
  closed : ∀ kind cursor inner, Parser.StartsClause tokens kind cursor →
    Parser.HasBlock cursor inner →
      ∃ body closing after last, inner = body ++ closing :: after ∧ closing.kind = .dedent ∧
        Paired body ∧ blockTokens 1 inner = body ++ [closing] ∧
        Parser.skipClause cursor = .ok (last, ⟨after, closing.span⟩)
  /-- With any other body a block leaves the module as it is. -/
  replaced : ∀ before opening body closing after other,
    tokens = before ++ opening :: (body ++ closing :: after) →
    opening.kind = .indent → closing.kind = .dedent → Paired body → Paired other →
      Module.formOf (before ++ opening :: (other ++ closing :: after)) = Module.formOf tokens

theorem MarksLines.formOf_replaced {tokens before body after other : List Token}
    {opening closing : Token} (marks : MarksLines (tokens.map (·.kind)))
    (split : tokens = before ++ opening :: (body ++ closing :: after))
    (isIndent : opening.kind = .indent) (isDedent : closing.kind = .dedent) (paired : Paired body)
    (otherPaired : Paired other) :
    Module.formOf (before ++ opening :: (other ++ closing :: after)) = Module.formOf tokens := by
  have same := (BlockSwap.forgetting after isIndent isDedent paired otherPaired).ofTokens_eq
    (marks.wholeLines_forget split isIndent)
  rw [Module.formOf_eq, Module.formOf_eq, split]
  simpa [BlockSwap.holding, BlockSwap.forgetting] using same

end Transpiler
