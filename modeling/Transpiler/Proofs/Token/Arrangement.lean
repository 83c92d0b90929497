import Transpiler.Proofs.Token.Scanning

/-!
Contract: what the layout does with one lexeme, and with lexemes one after the other.

Owns: the cases of a step and of its faults, runs of steps, and the passage from one step to
a whole run for properties that every step keeps.

Does not own: any such property.
-/

namespace Transpiler

theorem Lexeme.map_some_ne_none {α : Type} (result : Except LexErrorKind α) :
    result.map some ≠ .ok none := by
  cases result <;> simp [Except.map]

/-- A lexeme that stands for no token is of one of the kinds that never do. -/
theorem Lexeme.isTrivia_of_token? {lexeme : Lexeme} (noToken : lexeme.token? = .ok none) :
    lexeme.kind.isTrivia = true := by
  unfold token? at noToken
  split at noToken
  case h_1 isKind => rw [isKind]; rfl
  case h_2 isKind => rw [isKind]; rfl
  case h_3 isKind => rw [isKind]; rfl
  case h_4 isKind => rw [isKind]; rfl
  case h_5 => simp at noToken
  case h_12 => simp at noToken
  case h_13 => simp at noToken
  case h_14 => simp at noToken
  case h_15 => simp at noToken
  all_goals exact absurd noToken (map_some_ne_none _)

theorem Lexeme.token?_of_isTrivia {lexeme : Lexeme} (isTrivia : lexeme.kind.isTrivia = true) :
    lexeme.token? = .ok none := by
  cases isKind : lexeme.kind <;> simp_all [token?, LexemeKind.isTrivia]

theorem countColumns_append (column : Nat) (front back : List Char) :
    countColumns column (front ++ back) =
      (countColumns column front).bind (countColumns · back) :=
  List.foldlM_append

namespace Layout

@[simp] theorem Margin.start_empty (start : Nat) : (empty start).start = start := rfl

@[simp] theorem Margin.width_empty (start : Nat) : (empty start).width = .ok 0 := rfl

@[simp] theorem Margin.start_extend (margin : Margin) (text : List Char) :
    (margin.extend text).start = margin.start := rfl

@[simp] theorem Margin.extend_nil (margin : Margin) : margin.extend [] = margin := by
  obtain ⟨start, width⟩ := margin
  cases width <;> rfl

theorem Margin.extend_extend (margin : Margin) (text more : List Char) :
    (margin.extend text).extend more = margin.extend (text ++ more) := by
  obtain ⟨start, width⟩ := margin
  cases width with
  | error operation => rfl
  | ok column => simp [extend, Except.bind, countColumns_append]

/-- The width of a margin is that of its text, however it came about. -/
theorem Margin.extend_marginWidth (start : Nat) (text more : List Char) :
    extend ⟨start, marginWidth text⟩ more = ⟨start, marginWidth (text ++ more)⟩ := by
  rw [extend, marginWidth, marginWidth, countColumns_append]

/-! ### One step -/

/-- The block marks before a token at an offset, and the blocks open from then on. -/
inductive Enters (state : State) (offset : Nat) : List Token → List Nat → Prop where
  /-- The line has a token already. -/
  | inside (hasToken : state.margin = none) : Enters state offset [] state.blocks
  | deeper {margin : Margin} {width : Nat} (noToken : state.margin = some margin)
      (measured : margin.width = .ok width) (wider : innermost state.blocks < width) :
      Enters state offset [⟨.indent, ⟨margin.start, offset⟩⟩] (width :: state.blocks)
  | closing {margin : Margin} {width : Nat} (noToken : state.margin = some margin)
      (measured : margin.width = .ok width) (narrow : width ≤ innermost state.blocks)
      (fits : innermost (state.blocks.dropWhile (width < ·)) = width) :
      Enters state offset
        ((state.blocks.takeWhile (width < ·)).map fun _ => ⟨.dedent, .point offset⟩)
        (state.blocks.dropWhile (width < ·))

/-- What a lexeme at an offset may do: the tokens that it adds, and the state after it. -/
inductive Steps (state : State) (offset : Nat) (lexeme : Lexeme) : List Token → State → Prop where
  | comment (isKind : lexeme.kind = .comment) : Steps state offset lexeme [] state
  | margin (isKind : lexeme.kind = .blank ∨ lexeme.kind = .continuation) :
      Steps state offset lexeme []
        { state with margin := state.margin.map (·.extend lexeme.text) }
  | lineEnd (isKind : lexeme.kind = .lineBreak) (outside : state.depth = 0)
      (hasToken : state.margin = none) :
      Steps state offset lexeme
        [⟨.newline, ⟨offset, offset + Text.byteLength lexeme.text⟩⟩]
        { state with margin := some (.empty (offset + Text.byteLength lexeme.text)) }
  | blankLine (isKind : lexeme.kind = .lineBreak) (outside : state.depth = 0)
      (noToken : state.margin.isSome = true) :
      Steps state offset lexeme []
        { state with margin := some (.empty (offset + Text.byteLength lexeme.text)) }
  | bracketed (isKind : lexeme.kind = .lineBreak) (inside : 0 < state.depth) :
      Steps state offset lexeme [] state
  | token {kind : TokenKind} {marks : List Token} {blocks : List Nat}
      (stands : lexeme.token? = .ok (some kind)) (enters : Enters state offset marks blocks) :
      Steps state offset lexeme
        (marks ++ [⟨kind, ⟨offset, offset + Text.byteLength lexeme.text⟩⟩])
        ⟨depthAfter state.depth kind, none, blocks⟩

private theorem enters_of_enterLine {state : State} {margin : Margin} {offset : Nat}
    {marks : List Token} {blocks : List Nat} (noToken : state.margin = some margin)
    (entered : enterLine state.blocks margin offset = .ok (marks, blocks)) :
    Enters state offset marks blocks := by
  unfold enterLine at entered
  dsimp only at entered
  cases measured : margin.width with
  | error operation => simp [measured] at entered
  | ok width =>
      simp only [measured] at entered
      split at entered
      next wider =>
        obtain ⟨rfl, rfl⟩ := Prod.mk.inj (Except.ok.inj entered)
        exact .deeper noToken measured wider
      next narrow =>
        split at entered
        next fits =>
          obtain ⟨rfl, rfl⟩ := Prod.mk.inj (Except.ok.inj entered)
          exact .closing noToken measured (by omega) fits
        next => simp at entered

/-- The block marks before a visible lexeme, and the blocks open from then on. -/
def entry (state : State) (offset : Nat) : Except (Halt LexError) (List Token × List Nat) :=
  match state.margin with
  | some margin => enterLine state.blocks margin offset
  | none => .ok ([], state.blocks)

private theorem enters_of_entry {state : State} {offset : Nat} {marks : List Token}
    {blocks : List Nat} (entered : entry state offset = .ok (marks, blocks)) :
    Enters state offset marks blocks := by
  unfold entry at entered
  split at entered
  next margin noToken => exact enters_of_enterLine noToken entered
  next hasToken =>
    obtain ⟨rfl, rfl⟩ := Prod.mk.inj (Except.ok.inj entered)
    exact .inside hasToken

private theorem entry_of_enters {state : State} {offset : Nat} {marks : List Token}
    {blocks : List Nat} (enters : Enters state offset marks blocks) :
    entry state offset = .ok (marks, blocks) := by
  unfold entry
  cases enters with
  | inside hasToken => rw [hasToken]
  | deeper noToken measured wider => simp [noToken, enterLine, measured, wider]
  | closing noToken measured narrow fits =>
      simp [noToken, enterLine, measured, Nat.not_lt.mpr narrow, fits]

/-- A lexeme that stands for no token stops nothing. -/
private theorem steps_of_isTrivia (state : State) (offset : Nat) {lexeme : Lexeme}
    (isTrivia : lexeme.kind.isTrivia = true) :
    ∃ tokens next, step state offset lexeme = .ok (tokens, next) ∧
      Steps state offset lexeme tokens next := by
  unfold step
  dsimp only
  split
  case h_1 isKind => exact ⟨_, _, rfl, .comment isKind⟩
  case h_2 isKind => exact ⟨_, _, rfl, .margin (.inl isKind)⟩
  case h_3 isKind => exact ⟨_, _, rfl, .margin (.inr isKind)⟩
  case h_4 isKind =>
    split
    next outside =>
      cases hasMargin : state.margin with
      | none => exact ⟨_, _, rfl, .lineEnd isKind outside hasMargin⟩
      | some margin => exact ⟨_, _, rfl, .blankLine isKind outside (by simp [hasMargin])⟩
    next inside => exact ⟨_, _, rfl, .bracketed isKind (Nat.pos_of_ne_zero inside)⟩
  case h_5 isKind => simp [isKind, LexemeKind.isTrivia] at isTrivia
  case h_6 => cases isKind : lexeme.kind <;> simp_all [LexemeKind.isTrivia]

theorem step_of_isVisible {state : State} {offset : Nat} {lexeme : Lexeme}
    (isVisible : lexeme.kind.isTrivia = false) (notStray : lexeme.kind ≠ .stray) :
    step state offset lexeme = entry state offset >>= fun (marks, blocks) =>
      afterMarks state offset lexeme marks blocks := by
  unfold step
  dsimp only
  split
  case h_1 isKind => simp [isKind, LexemeKind.isTrivia] at isVisible
  case h_2 isKind => simp [isKind, LexemeKind.isTrivia] at isVisible
  case h_3 isKind => simp [isKind, LexemeKind.isTrivia] at isVisible
  case h_4 isKind => simp [isKind, LexemeKind.isTrivia] at isVisible
  case h_5 isKind => exact absurd isKind notStray
  case h_6 =>
    unfold entry
    cases state.margin <;> rfl

theorem steps_of_step {state next : State} {offset : Nat} {lexeme : Lexeme} {tokens : List Token}
    (stepped : step state offset lexeme = .ok (tokens, next)) :
    Steps state offset lexeme tokens next := by
  cases isTrivia : lexeme.kind.isTrivia with
  | true =>
      obtain ⟨added, after, taken, steps⟩ := steps_of_isTrivia state offset isTrivia
      obtain ⟨rfl, rfl⟩ := Prod.mk.inj (Except.ok.inj (taken.symm.trans stepped))
      exact steps
  | false =>
      have notStray : lexeme.kind ≠ .stray := by
        intro isStray
        simp [step, isStray] at stepped
      rw [step_of_isVisible isTrivia notStray] at stepped
      cases entered : entry state offset with
      | error cause =>
          rw [entered] at stepped
          contradiction
      | ok result =>
          rw [entered] at stepped
          have taken : afterMarks state offset lexeme result.1 result.2 = .ok (tokens, next) :=
            stepped
          unfold afterMarks at taken
          dsimp only at taken
          split at taken
          next => simp at taken
          next noToken => simp [Lexeme.isTrivia_of_token? noToken] at isTrivia
          next kind stands =>
            obtain ⟨rfl, rfl⟩ := Prod.mk.inj (Except.ok.inj taken)
            exact .token stands (enters_of_entry entered)

private theorem step_of_enters {state : State} {offset : Nat} {lexeme : Lexeme} {kind : TokenKind}
    {marks : List Token} {blocks : List Nat} (stands : lexeme.token? = .ok (some kind))
    (enters : Enters state offset marks blocks) :
    step state offset lexeme =
      .ok (marks ++ [⟨kind, ⟨offset, offset + Text.byteLength lexeme.text⟩⟩],
        ⟨depthAfter state.depth kind, none, blocks⟩) := by
  have isVisible : lexeme.kind.isTrivia = false := by
    by_contra isTrivia
    simp [Lexeme.token?_of_isTrivia (by simpa using isTrivia)] at stands
  have notStray : lexeme.kind ≠ .stray := by
    intro isStray
    simp [Lexeme.token?, isStray] at stands
  rw [step_of_isVisible isVisible notStray, entry_of_enters enters]
  show afterMarks state offset lexeme marks blocks = _
  simp [afterMarks, stands]

/-- Whatever a lexeme may do, it does. -/
theorem step_of_steps {state next : State} {offset : Nat} {lexeme : Lexeme} {tokens : List Token}
    (steps : Steps state offset lexeme tokens next) :
    step state offset lexeme = .ok (tokens, next) := by
  cases steps with
  | comment isKind => simp [step, isKind]
  | margin isKind => rcases isKind with isKind | isKind <;> simp [step, isKind]
  | lineEnd isKind outside hasToken => simp [step, isKind, outside, hasToken]
  | blankLine isKind outside noToken =>
      have hasMargin := Option.isSome_iff_ne_none.mp noToken
      simp [step, isKind, outside, hasMargin]
  | bracketed isKind inside => simp [step, isKind, Nat.ne_of_gt inside]
  | token stands enters => exact step_of_enters stands enters

/-! ### Faults -/

/-- Why a lexeme at an offset may stop the layout. Only text that begins no lexeme is reported
before the line's margin is looked at. -/
inductive Fails (state : State) (offset : Nat) (lexeme : Lexeme) : Halt LexError → Prop where
  | stray (isKind : lexeme.kind = .stray) :
      Fails state offset lexeme
        (.fault ⟨.invalidCharacter (lexeme.text.headD '\x00'),
          ⟨offset, offset + Text.byteLength lexeme.text⟩⟩)
  | overflow {margin : Margin} {operation : Overflow} (isVisible : lexeme.kind.isTrivia = false)
      (notStray : lexeme.kind ≠ .stray) (noToken : state.margin = some margin)
      (unmeasured : margin.width = .error operation) :
      Fails state offset lexeme (.overflow operation)
  | margin {margin : Margin} {width : Nat} (isVisible : lexeme.kind.isTrivia = false)
      (notStray : lexeme.kind ≠ .stray) (noToken : state.margin = some margin)
      (measured : margin.width = .ok width) (narrow : width ≤ innermost state.blocks)
      (unfit : innermost (state.blocks.dropWhile (width < ·)) ≠ width) :
      Fails state offset lexeme (.fault ⟨.inconsistentDedent, ⟨margin.start, offset⟩⟩)
  | value {cause : LexErrorKind} {marks : List Token} {blocks : List Nat}
      (notStray : lexeme.kind ≠ .stray) (wrong : lexeme.token? = .error cause)
      (enters : Enters state offset marks blocks) :
      Fails state offset lexeme (.fault ⟨cause, ⟨offset, offset + Text.byteLength lexeme.text⟩⟩)

private theorem enterLine_eq_error_iff {blocks : List Nat} {margin : Margin} {offset : Nat}
    {halt : Halt LexError} :
    enterLine blocks margin offset = .error halt ↔
      (∃ operation, margin.width = .error operation ∧ halt = .overflow operation) ∨
      ∃ width, margin.width = .ok width ∧ width ≤ innermost blocks ∧
        innermost (blocks.dropWhile (width < ·)) ≠ width ∧
        halt = .fault ⟨.inconsistentDedent, ⟨margin.start, offset⟩⟩ := by
  unfold enterLine
  dsimp only
  cases margin.width with
  | error operation => simp [eq_comm]
  | ok width =>
      dsimp only
      split
      next wider => simp [Nat.not_le.mpr wider]
      next narrow =>
        split
        next fits => simp [fits]
        next unfit => simpa [Nat.not_lt.mp narrow, unfit] using eq_comm

private theorem entry_eq_error_iff {state : State} {offset : Nat} {halt : Halt LexError} :
    entry state offset = .error halt ↔ ∃ margin, state.margin = some margin ∧
      enterLine state.blocks margin offset = .error halt := by
  unfold entry
  cases state.margin <;> simp

private theorem afterMarks_eq_error_iff {state : State} {offset : Nat} {lexeme : Lexeme}
    {marks : List Token} {blocks : List Nat} {halt : Halt LexError} :
    afterMarks state offset lexeme marks blocks = .error halt ↔
      ∃ cause, lexeme.token? = .error cause ∧
        halt = .fault ⟨cause, ⟨offset, offset + Text.byteLength lexeme.text⟩⟩ := by
  unfold afterMarks
  dsimp only
  split
  next cause wrong => simp [wrong, eq_comm]
  next noToken => simp [noToken]
  next kind stands => simp [stands]

private theorem step_of_refused {state : State} {offset : Nat} {lexeme : Lexeme} {margin : Margin}
    {halt : Halt LexError} (isVisible : lexeme.kind.isTrivia = false)
    (notStray : lexeme.kind ≠ .stray) (noToken : state.margin = some margin)
    (refused : enterLine state.blocks margin offset = .error halt) :
    step state offset lexeme = .error halt := by
  rw [step_of_isVisible isVisible notStray, entry_eq_error_iff.mpr ⟨margin, noToken, refused⟩]
  rfl

/-- A step stops for one of these reasons and no other. -/
theorem step_eq_error_iff {state : State} {offset : Nat} {lexeme : Lexeme}
    {halt : Halt LexError} :
    step state offset lexeme = .error halt ↔ Fails state offset lexeme halt := by
  constructor
  · intro stopped
    by_cases isStray : lexeme.kind = .stray
    · simp only [step, isStray] at stopped
      obtain rfl := Except.error.inj stopped
      exact .stray isStray
    have isVisible : lexeme.kind.isTrivia = false := by
      by_contra isTrivia
      obtain ⟨tokens, next, stepped, _⟩ := steps_of_isTrivia state offset (by simpa using isTrivia)
      simp [stepped] at stopped
    rw [step_of_isVisible isVisible isStray] at stopped
    cases entered : entry state offset with
    | error cause =>
        rw [entered] at stopped
        obtain rfl : cause = halt := by simpa [bind, Except.bind] using stopped
        obtain ⟨margin, noToken, refused⟩ := entry_eq_error_iff.mp entered
        rcases enterLine_eq_error_iff.mp refused with
          ⟨operation, unmeasured, rfl⟩ | ⟨width, measured, narrow, unfit, rfl⟩
        · exact .overflow isVisible isStray noToken unmeasured
        · exact .margin isVisible isStray noToken measured narrow unfit
    | ok result =>
        obtain ⟨marks, blocks⟩ := result
        rw [entered] at stopped
        obtain ⟨cause, wrong, rfl⟩ := afterMarks_eq_error_iff.mp stopped
        exact .value isStray wrong (enters_of_entry entered)
  · intro fails
    cases fails with
    | stray isKind => simp [step, isKind]
    | overflow isVisible notStray noToken unmeasured =>
        exact step_of_refused isVisible notStray noToken
          (enterLine_eq_error_iff.mpr (.inl ⟨_, unmeasured, rfl⟩))
    | margin isVisible notStray noToken measured narrow unfit =>
        exact step_of_refused isVisible notStray noToken
          (enterLine_eq_error_iff.mpr (.inr ⟨_, measured, narrow, unfit, rfl⟩))
    | value notStray wrong enters =>
        have isVisible : lexeme.kind.isTrivia = false := by
          by_contra isTrivia
          simp [Lexeme.token?_of_isTrivia (by simpa using isTrivia)] at wrong
        rw [step_of_isVisible isVisible notStray, entry_of_enters enters]
        exact afterMarks_eq_error_iff.mpr ⟨_, wrong, rfl⟩

/-! ### Runs -/

/-- The number of bytes that lexemes take together. -/
def extent (lexemes : List Lexeme) : Nat :=
  Text.byteLength (lexemes.flatMap Lexeme.text)

@[simp] theorem extent_nil : extent [] = 0 := rfl

@[simp] theorem extent_cons (lexeme : Lexeme) (rest : List Lexeme) :
    extent (lexeme :: rest) = Text.byteLength lexeme.text + extent rest := by
  simp [extent]

@[simp] theorem extent_append (first second : List Lexeme) :
    extent (first ++ second) = extent first + extent second := by
  simp [extent]

/-- From a state and an offset, lexemes are taken one after the other: the tokens that they
add, and the state after them. -/
inductive Runs : State → Nat → List Lexeme → List Token → State → Prop where
  | none {state : State} {offset : Nat} : Runs state offset [] [] state
  | more {state next last : State} {offset : Nat} {lexeme : Lexeme} {rest : List Lexeme}
      {tokens others : List Token}
      (stepped : step state offset lexeme = .ok (tokens, next))
      (further : Runs next (offset + Text.byteLength lexeme.text) rest others last) :
      Runs state offset (lexeme :: rest) (tokens ++ others) last

/-- A run hands the lexemes after it on to the state that it leads to. -/
theorem arrange_append {state here : State} {offset : Nat} {before after : List Lexeme}
    {added : List Token} (runs : Runs state offset before added here) :
    arrange state offset (before ++ after) =
      (arrange here (offset + extent before) after).map (added ++ ·) := by
  induction runs with
  | none =>
      rw [extent_nil, Nat.add_zero, List.nil_append]
      cases arrange _ _ after <;> rfl
  | @more _ _ _ offset lexeme rest _ _ stepped _ inductionHypothesis =>
      rw [extent_cons, ← Nat.add_assoc, List.cons_append, arrange, stepped]
      dsimp only [bind, Except.bind]
      rw [inductionHypothesis]
      cases arrange _ _ after <;> simp [Except.map, pure, Except.pure]

/-- The tokens of lexemes are those of a run over them, and those that end the source. -/
theorem arrange_eq_ok_iff {state : State} {offset : Nat} {lexemes : List Lexeme}
    {tokens : List Token} :
    arrange state offset lexemes = .ok tokens ↔
      ∃ added last, Runs state offset lexemes added last ∧
        tokens = added ++ finish last (offset + extent lexemes) := by
  constructor
  · intro arranged
    induction lexemes generalizing state offset tokens with
    | nil =>
        obtain rfl := Except.ok.inj arranged
        exact ⟨[], state, .none, by simp⟩
    | cons lexeme rest inductionHypothesis =>
        rw [arrange] at arranged
        cases stepped : step state offset lexeme with
        | error cause => simp [stepped, bind, Except.bind] at arranged
        | ok result =>
            obtain ⟨first, next⟩ := result
            cases others : arrange next (offset + Text.byteLength lexeme.text) rest with
            | error cause => simp [stepped, others, bind, Except.bind] at arranged
            | ok more =>
                obtain rfl : first ++ more = tokens := by
                  simpa [stepped, others, bind, Except.bind, pure, Except.pure] using arranged
                obtain ⟨added, last, runs, rfl⟩ := inductionHypothesis others
                refine ⟨first ++ added, last, .more stepped runs, ?_⟩
                rw [extent_cons, Nat.add_assoc, List.append_assoc]
  · rintro ⟨added, last, runs, rfl⟩
    rw [← List.append_nil lexemes, arrange_append runs]
    simp [arrange, Except.map]

/-- Lexemes stop where a run over those in front leads to one that stops. -/
theorem arrange_eq_error_iff {state : State} {offset : Nat} {lexemes : List Lexeme}
    {halt : Halt LexError} :
    arrange state offset lexemes = .error halt ↔
      ∃ before lexeme after added here, lexemes = before ++ lexeme :: after ∧
        Runs state offset before added here ∧ Fails here (offset + extent before) lexeme halt := by
  constructor
  · intro arranged
    induction lexemes generalizing state offset with
    | nil => simp [arrange] at arranged
    | cons lexeme rest inductionHypothesis =>
        rw [arrange] at arranged
        cases stepped : step state offset lexeme with
        | error cause =>
            rw [stepped] at arranged
            obtain rfl : cause = halt := Except.error.inj arranged
            exact ⟨[], lexeme, rest, [], state, rfl, .none, step_eq_error_iff.mp stepped⟩
        | ok result =>
            obtain ⟨first, next⟩ := result
            have stopped : arrange next (offset + Text.byteLength lexeme.text) rest =
                .error halt := by
              cases others : arrange next (offset + Text.byteLength lexeme.text) rest with
              | error cause => simpa [stepped, others, bind, Except.bind] using arranged
              | ok more =>
                  simp [stepped, others, bind, Except.bind, pure, Except.pure] at arranged
            obtain ⟨before, stopping, after, added, here, rfl, runs, fails⟩ :=
              inductionHypothesis stopped
            refine ⟨lexeme :: before, stopping, after, first ++ added, here, rfl,
              .more stepped runs, ?_⟩
            rwa [extent_cons, ← Nat.add_assoc]
  · rintro ⟨before, lexeme, after, added, here, rfl, runs, fails⟩
    rw [arrange_append runs, arrange, step_eq_error_iff.mpr fails]
    rfl

namespace Runs

variable {state middle last : State} {offset : Nat} {first second lexemes : List Lexeme}
  {tokens firstTokens secondTokens : List Token}

theorem append (front : Runs state offset first firstTokens middle)
    (back : Runs middle (offset + extent first) second secondTokens last) :
    Runs state offset (first ++ second) (firstTokens ++ secondTokens) last := by
  induction front with
  | none => simpa using back
  | more stepped _ inductionHypothesis =>
      rw [List.append_assoc]
      refine .more stepped (inductionHypothesis ?_)
      rwa [extent_cons, ← Nat.add_assoc] at back

/-- A run can be cut between any two lexemes. -/
theorem exists_of_append (runs : Runs state offset (first ++ second) tokens last) :
    ∃ firstTokens middle secondTokens, Runs state offset first firstTokens middle ∧
      Runs middle (offset + extent first) second secondTokens last ∧
      tokens = firstTokens ++ secondTokens := by
  induction first generalizing state offset tokens with
  | nil => exact ⟨[], state, tokens, .none, by simpa using runs, rfl⟩
  | cons lexeme rest inductionHypothesis =>
      cases runs with
      | @more _ _ _ _ _ _ added others stepped further =>
          obtain ⟨restTokens, middle, secondTokens, front, back, rfl⟩ := inductionHypothesis further
          refine ⟨added ++ restTokens, middle, secondTokens, .more stepped front, ?_, by simp⟩
          rwa [extent_cons, ← Nat.add_assoc]

/-- What holds at the start and is kept by every step holds at the end. -/
theorem keeps {motive : List Lexeme → List Token → State → Prop}
    (runs : Runs state offset lexemes tokens last) (start : motive [] [] state)
    (kept : ∀ {before after : List Lexeme} {lexeme : Lexeme} {taken added : List Token}
      {here next : State}, lexemes = before ++ lexeme :: after → motive before taken here →
        step here (offset + extent before) lexeme = .ok (added, next) →
        motive (before ++ [lexeme]) (taken ++ added) next) :
    motive lexemes tokens last := by
  suffices general : ∀ (before rest : List Lexeme) (taken tokens : List Token) (here : State),
      lexemes = before ++ rest → motive before taken here →
      Runs here (offset + extent before) rest tokens last →
      motive lexemes (taken ++ tokens) last by
    simpa using general [] lexemes [] tokens state rfl start (by simpa using runs)
  intro before rest
  induction rest generalizing before with
  | nil =>
      rintro taken tokens here rfl holds ⟨⟩
      simpa using holds
  | cons lexeme rest inductionHypothesis =>
      intro taken tokens here shape holds further
      cases further with
      | @more _ next _ _ _ _ added others stepped further =>
          rw [← List.append_assoc]
          refine inductionHypothesis (before ++ [lexeme]) (taken ++ added) others next
            (by simp [shape]) (kept shape holds stepped) ?_
          simpa [Nat.add_assoc] using further

end Runs

/-- The tokens of a source are those of a run over all of its lexemes, and those that end
it. -/
theorem runs_of_tokenize {source : String} {tokens : List Token}
    (tokenized : tokenize source = .ok tokens) :
    ∃ added last, Runs .initial 0 (Lexeme.split source.toList) added last ∧
      tokens = added ++ finish last source.utf8ByteSize := by
  rcases Nat.lt_or_ge Span.offsetLimit source.utf8ByteSize with large | small
  · cases (tokenize_of_large large).symm.trans tokenized
  · rw [tokenize_of_small small] at tokenized
    obtain ⟨added, last, runs, rfl⟩ := arrange_eq_ok_iff.mp tokenized
    refine ⟨added, last, runs, ?_⟩
    rw [Nat.zero_add, extent, (Lexeme.cuts_split _).flatMap_text, Text.byteLength_toList]

theorem tokenize_of_runs {source : String} {added : List Token} {last : State}
    (fits : source.utf8ByteSize ≤ Span.offsetLimit)
    (runs : Runs .initial 0 (Lexeme.split source.toList) added last) :
    tokenize source = .ok (added ++ finish last source.utf8ByteSize) := by
  rw [tokenize_of_small fits]
  refine arrange_eq_ok_iff.mpr ⟨added, last, runs, ?_⟩
  rw [Nat.zero_add, extent, (Lexeme.cuts_split _).flatMap_text, Text.byteLength_toList]

end Layout
end Transpiler
