import Transpiler.Proofs.Token.Blocks

/-!
Contract: when columns and open brackets fit their counters.

Owns: that a source ends the program exactly if a margin that is too wide comes to be measured
(`Layout.exists_overflow_iff`), and the bounds of widths and brackets by the number of bytes.
-/

namespace Transpiler.Layout

/-- The lexeme is the first of its line that is measured, and a part of the margin before it is
too wide. -/
structure Overflows (before : List Lexeme) (state : State) (lexeme : Lexeme) : Prop where
  isVisible : lexeme.kind.isTrivia = false
  notStray : lexeme.kind ≠ .stray
  tooWide : ∃ front blanks part, before.flatMap Lexeme.text = front ++ blanks ∧
    (∀ last ∈ front.getLast?, last = '\n') ∧
    state.margin = some ⟨Text.byteLength front, marginWidth blanks⟩ ∧
    part <+: blanks ∧ counterMax < exactWidth part

/-- A lexeme of a source stops the run with an overflow exactly if it overflows. -/
private theorem exists_fails_overflow_iff {text : List Char} {before after : List Lexeme}
    {lexeme : Lexeme} {tokens : List Token} {state : State}
    (shape : Lexeme.split text = before ++ lexeme :: after)
    (runs : Runs .initial 0 before tokens state) (offset : Nat) :
    (∃ operation, Fails state offset lexeme (.overflow operation)) ↔
      Overflows before state lexeme := by
  constructor
  · rintro ⟨operation, fails⟩
    cases fails with
    | overflow isVisible notStray noToken unmeasured =>
        obtain ⟨front, blanks, text, lineStart, isMargin⟩ :=
          margin_of_runs shape runs isVisible noToken
        rw [isMargin] at unmeasured noToken
        obtain ⟨part, isPrefix, wide⟩ := exists_marginWidth_eq_error_iff.mp ⟨_, unmeasured⟩
        exact ⟨isVisible, notStray, front, blanks, part, text, lineStart, noToken, isPrefix, wide⟩
  · rintro ⟨isVisible, notStray, front, blanks, part, _, _, noToken, isPrefix, wide⟩
    obtain ⟨operation, unmeasured⟩ := exists_marginWidth_eq_error_iff.mpr ⟨part, isPrefix, wide⟩
    exact ⟨operation, .overflow isVisible notStray noToken unmeasured⟩

/-- A source is ended by an overflow exactly if a margin that is too wide comes to be measured. -/
theorem exists_overflow_iff {source : String} (small : source.utf8ByteSize ≤ Span.offsetLimit) :
    (∃ operation, tokenize source = .error (.overflow operation)) ↔
      ∃ before lexeme after tokens here, Lexeme.split source.toList = before ++ lexeme :: after ∧
        Runs .initial 0 before tokens here ∧ Overflows before here lexeme := by
  rw [tokenize_of_small small]
  constructor
  · rintro ⟨operation, ended⟩
    obtain ⟨before, lexeme, after, tokens, here, shape, runs, fails⟩ :=
      arrange_eq_error_iff.mp ended
    exact ⟨before, lexeme, after, tokens, here, shape, runs,
      (exists_fails_overflow_iff shape runs _).mp ⟨operation, fails⟩⟩
  · rintro ⟨before, lexeme, after, tokens, here, shape, runs, overflows⟩
    obtain ⟨operation, fails⟩ :=
      (exists_fails_overflow_iff shape runs (0 + extent before)).mpr overflows
    exact ⟨operation,
      arrange_eq_error_iff.mpr ⟨before, lexeme, after, tokens, here, shape, runs, fails⟩⟩

/-- Every open bracket is a byte that has been read. -/
theorem Runs.depth_le {text : List Char} {before after : List Lexeme} {tokens : List Token}
    {last : State} (runs : Runs .initial 0 before tokens last)
    (cut : Lexeme.split text = before ++ after) : last.depth ≤ extent before := by
  refine runs.keeps (motive := fun taken _ here => here.depth ≤ extent taken) (Nat.zero_le _) ?_
  intro front back lexeme _ _ here next shape bounded stepped
  have cuts := Lexeme.cuts_split text
  rw [cut, shape, List.append_assoc, List.cons_append] at cuts
  obtain ⟨first, taken, isText, _⟩ := cuts.scan_of_append
  have size := first.utf8Size_pos
  have deeper : next.depth ≤ here.depth + 1 := by
    cases steps_of_step stepped with
    | @token kind =>
        show depthAfter here.depth kind ≤ here.depth + 1
        unfold depthAfter
        split <;> omega
    | _ => exact Nat.le_succ _
  simp only [extent_append, extent_cons, extent_nil, isText, Text.byteLength_cons]
  omega

/-- The lexemes before a place take no more bytes than the source. -/
private theorem extent_le {source : List Char} {before after : List Lexeme}
    (cut : Lexeme.split source = before ++ after) : extent before ≤ Text.byteLength source := by
  rw [← (Lexeme.cuts_split source).flatMap_text, cut, List.flatMap_append, Text.byteLength_append]
  exact Nat.le_add_right _ _

/-- Of a source that is not too large the depth of brackets fits its counter everywhere, but widths
may be eight times as large as the source. So a source of less than 2 ^ 29 bytes ends in no
overflow, and a larger one does exactly if a part of a margin that is measured is too wide. -/
theorem counters_fit (source : String) (small : source.utf8ByteSize ≤ Span.offsetLimit) :
    (∀ before after tokens here, Lexeme.split source.toList = before ++ after →
        Runs .initial 0 before tokens here → here.depth ≤ counterMax) ∧
      (∀ part, part <:+: source.toList → exactWidth part ≤ 8 * source.utf8ByteSize) ∧
      (source.utf8ByteSize < 2 ^ 29 →
        ∀ operation, tokenize source ≠ .error (.overflow operation)) ∧
      ((∃ operation, tokenize source = .error (.overflow operation)) ↔
        ∃ before lexeme after tokens here,
          Lexeme.split source.toList = before ++ lexeme :: after ∧
            Runs .initial 0 before tokens here ∧ Overflows before here lexeme) := by
  have size := Text.byteLength_toList source
  refine ⟨?_, ?_, ?_, exists_overflow_iff small⟩
  · intro before after tokens here cut runs
    have deep := runs.depth_le cut
    have short := extent_le cut
    simp only [Span.offsetLimit] at small
    omega
  · rintro part ⟨front, back, shape⟩
    have narrow := exactWidth_le part
    rw [← shape, Text.byteLength_append, Text.byteLength_append] at size
    omega
  · intro short operation ended
    obtain ⟨before, lexeme, after, tokens, here, cut, runs, overflows⟩ :=
      (exists_overflow_iff small).mp ⟨operation, ended⟩
    obtain ⟨front, blanks, part, text, _, _, ⟨others, rfl⟩, wide⟩ := overflows.tooWide
    have inSource := extent_le cut
    have narrow := exactWidth_le part
    rw [extent, text, Text.byteLength_append, Text.byteLength_append] at inSource
    simp only [counterMax] at wide
    omega

/-- A block behind one tab. -/
theorem counters_fit_of_block :
    "if x:\n\ty".utf8ByteSize ≤ Span.offsetLimit ∧
      ∀ operation, tokenize "if x:\n\ty" ≠ .error (.overflow operation) :=
  ⟨by decide, (counters_fit "if x:\n\ty" (by decide)).2.2.1 (by decide)⟩

private theorem tokenize_tabs {count : Nat} (wide : counterMax < 8 * count)
    (small : count + 1 ≤ Span.offsetLimit) :
    tokenize (String.ofList (List.replicate count '\t' ++ ['x'])) =
      .error (.overflow .multiplication) := by
  have size : (String.ofList (List.replicate count '\t' ++ ['x'])).utf8ByteSize = count + 1 := by
    rw [Text.utf8ByteSize_ofList, Text.byteLength_append, Text.byteLength_replicate rfl]
    rfl
  rw [← size] at small
  exact @Layout.tokenize_of_tabs [] [] 'x' [] .initial rfl _ count wide String.toList_ofList small
    (.inl rfl) .none rfl rfl (by decide)

/-- A half GiB of tabs is a margin that does not fit. -/
theorem overflow_of_tabs :
    (String.ofList (List.replicate (2 ^ 29) '\t' ++ ['x'])).utf8ByteSize ≤ Span.offsetLimit ∧
      exactWidth (List.replicate (2 ^ 29) '\t') = counterMax + 1 ∧
      tokenize (String.ofList (List.replicate (2 ^ 29) '\t' ++ ['x'])) =
        .error (.overflow .multiplication) := by
  refine ⟨?_, ?_, tokenize_tabs (by decide) (by decide)⟩
  · rw [Text.utf8ByteSize_ofList, Text.byteLength_append, Text.byteLength_replicate rfl]
    decide
  · rw [exactWidth_tabs]
    decide

end Transpiler.Layout
