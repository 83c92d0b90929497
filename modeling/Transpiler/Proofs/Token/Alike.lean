import Transpiler.Proofs.Token.Arrangement
import Transpiler.Proofs.Token.LineBreaks

/-!
Contract: the layout of lexemes up to the places of its tokens.

Owns: what of a state and of a lexeme decides the kinds of the tokens (`State.Alike`,
`Lexeme.Alike`), that offsets and the rest of a lexeme's text do not, and what blanks and
comments at the front of a text do to the kinds of the tokens behind them.
-/

namespace Transpiler

/-- The kinds of the tokens, or the kind of the error. -/
def tokenKinds (outcome : Except (Halt LexError) (List Token)) :
    Except (Halt LexErrorKind) (List TokenKind) :=
  match outcome with
  | .ok tokens => .ok (tokens.map (·.kind))
  | .error halt => .error (halt.map (·.kind))

/-- Two lexemes that do the same to every line. -/
structure Lexeme.Alike (first second : Lexeme) : Prop where
  kind : first.kind = second.kind
  head : first.text.headD '\x00' = second.text.headD '\x00'
  margin : first.kind = .blank ∨ first.kind = .continuation →
    ∀ column, countColumns column first.text = countColumns column second.text
  token : first.token? = second.token?

theorem Lexeme.Alike.refl (lexeme : Lexeme) : lexeme.Alike lexeme :=
  ⟨rfl, rfl, fun _ _ => rfl, rfl⟩

namespace Layout

/-! ### States up to places -/

/-- Two states that differ only in where the margin of the line stands and how it is spelled. -/
structure State.Alike (first second : State) : Prop where
  depth : first.depth = second.depth
  width : first.margin.map (·.width) = second.margin.map (·.width)
  blocks : first.blocks = second.blocks

namespace State.Alike

variable {first second : State}

theorem refl (state : State) : state.Alike state :=
  ⟨rfl, rfl, rfl⟩

theorem symm (alike : first.Alike second) : second.Alike first :=
  ⟨alike.depth.symm, alike.width.symm, alike.blocks.symm⟩

theorem margin_eq_none (alike : first.Alike second) (hasToken : first.margin = none) :
    second.margin = none := by
  have width := alike.width
  rw [hasToken] at width
  exact Option.map_eq_none_iff.mp width.symm

theorem exists_margin (alike : first.Alike second) {margin : Margin}
    (noToken : first.margin = some margin) :
    ∃ other, second.margin = some other ∧ other.width = margin.width := by
  have width := alike.width
  rw [noToken] at width
  exact Option.map_eq_some_iff.mp width.symm

/-- Alike states mark their blocks alike. -/
theorem enters (alike : first.Alike second) {offset : Nat} (place : Nat) {marks : List Token}
    {blocks : List Nat} (enters : Enters first offset marks blocks) :
    ∃ others, Enters second place others blocks ∧ others.map (·.kind) = marks.map (·.kind) := by
  cases enters with
  | inside hasToken =>
      rw [alike.blocks]
      exact ⟨[], .inside (alike.margin_eq_none hasToken), rfl⟩
  | deeper noToken measured wider =>
      obtain ⟨margin, noToken, width⟩ := alike.exists_margin noToken
      rw [alike.blocks] at wider ⊢
      exact ⟨_, .deeper noToken (width.trans measured) wider, rfl⟩
  | closing noToken measured narrow fits =>
      obtain ⟨margin, noToken, width⟩ := alike.exists_margin noToken
      rw [alike.blocks] at narrow fits ⊢
      exact ⟨_, .closing noToken (width.trans measured) narrow fits, by simp⟩

end State.Alike

/-! ### Steps up to places -/

/-- Two steps that add tokens of the same kinds and lead to alike states, or that stop for the
same reason. -/
inductive StepsAlike : Except (Halt LexError) (List Token × State) →
    Except (Halt LexError) (List Token × State) → Prop where
  | ok {tokens others : List Token} {next other : State}
      (kinds : tokens.map (·.kind) = others.map (·.kind)) (states : next.Alike other) :
      StepsAlike (.ok (tokens, next)) (.ok (others, other))
  | error {first second : Halt LexError} (kinds : first.map (·.kind) = second.map (·.kind)) :
      StepsAlike (.error first) (.error second)

private theorem step_alike {first second : State} {lexeme other : Lexeme}
    (states : first.Alike second) (lexemes : lexeme.Alike other) (offset place : Nat) :
    StepsAlike (step first offset lexeme) (step second place other) := by
  have sameKind := lexemes.kind
  cases stepped : step first offset lexeme with
  | ok result =>
      obtain ⟨tokens, next⟩ := result
      cases steps_of_step stepped with
      | comment isKind =>
          rw [step_of_steps (.comment (sameKind ▸ isKind))]
          exact .ok rfl states
      | margin isKind =>
          rw [step_of_steps (.margin (sameKind ▸ isKind))]
          refine .ok rfl ⟨states.depth, ?_, states.blocks⟩
          cases hasMargin : first.margin with
          | none => simp [states.margin_eq_none hasMargin]
          | some margin =>
              obtain ⟨otherMargin, isOther, width⟩ := states.exists_margin hasMargin
              simp [isOther, Margin.extend, width, lexemes.margin isKind]
      | lineEnd isKind outside hasToken =>
          rw [step_of_steps (.lineEnd (sameKind ▸ isKind) (states.depth ▸ outside)
            (states.margin_eq_none hasToken))]
          exact .ok rfl ⟨states.depth, rfl, states.blocks⟩
      | blankLine isKind outside noToken =>
          obtain ⟨margin, isMargin⟩ := Option.isSome_iff_exists.mp noToken
          obtain ⟨otherMargin, isOther, _⟩ := states.exists_margin isMargin
          rw [step_of_steps (.blankLine (sameKind ▸ isKind) (states.depth ▸ outside)
            (by simp [isOther]))]
          exact .ok rfl ⟨states.depth, rfl, states.blocks⟩
      | bracketed isKind inside =>
          rw [step_of_steps (.bracketed (sameKind ▸ isKind) (states.depth ▸ inside))]
          exact .ok rfl states
      | token stands enters =>
          obtain ⟨others, entersOther, kinds⟩ := states.enters place enters
          rw [step_of_steps (.token (lexemes.token ▸ stands) entersOther)]
          exact .ok (by simp [kinds]) ⟨by rw [states.depth], rfl, rfl⟩
  | error error =>
      cases step_eq_error_iff.mp stepped with
      | stray isKind =>
          rw [step_eq_error_iff.mpr (.stray (sameKind ▸ isKind)), ← lexemes.head]
          exact .error rfl
      | overflow isVisible notStray noToken unmeasured =>
          obtain ⟨otherMargin, isOther, width⟩ := states.exists_margin noToken
          rw [step_eq_error_iff.mpr (.overflow (sameKind ▸ isVisible) (sameKind ▸ notStray) isOther
            (width.trans unmeasured))]
          exact .error rfl
      | margin isVisible notStray noToken measured narrow unfit =>
          obtain ⟨otherMargin, isOther, width⟩ := states.exists_margin noToken
          rw [states.blocks] at narrow unfit
          rw [step_eq_error_iff.mpr (.margin (sameKind ▸ isVisible) (sameKind ▸ notStray) isOther
            (width.trans measured) narrow unfit)]
          exact .error rfl
      | value notStray wrong enters =>
          obtain ⟨others, entersOther, _⟩ := states.enters place enters
          rw [step_eq_error_iff.mpr (.value (sameKind ▸ notStray) (lexemes.token ▸ wrong)
            entersOther)]
          exact .error rfl

/-! ### Arrangements up to places -/

section

variable {first second : State} {lexeme other : Lexeme} {rest others : List Lexeme}

private theorem tokenKinds_arrange_of_ok {state next : State} {offset : Nat} {tokens : List Token}
    (stepped : step state offset lexeme = .ok (tokens, next)) :
    tokenKinds (arrange state offset (lexeme :: rest)) =
      (tokenKinds (arrange next (offset + Text.byteLength lexeme.text) rest)).map
        (tokens.map (·.kind) ++ ·) := by
  rw [arrange, stepped]
  dsimp only [bind, Except.bind]
  cases arrange next (offset + Text.byteLength lexeme.text) rest <;>
    simp [tokenKinds, Except.map, pure, Except.pure]

private theorem tokenKinds_arrange_of_error {state : State} {offset : Nat} {halt : Halt LexError}
    (stopped : step state offset lexeme = .error halt) :
    tokenKinds (arrange state offset (lexeme :: rest)) = .error (halt.map (·.kind)) := by
  rw [arrange, stopped]
  rfl

/-- Alike lexemes at alike states, before lexemes that come to the same. -/
theorem tokenKinds_arrange_cons (states : first.Alike second) (lexemes : lexeme.Alike other)
    (rests : ∀ next otherNext offset place, State.Alike next otherNext →
      tokenKinds (arrange next offset rest) = tokenKinds (arrange otherNext place others))
    (offset place : Nat) :
    tokenKinds (arrange first offset (lexeme :: rest)) =
      tokenKinds (arrange second place (other :: others)) := by
  have alike := step_alike states lexemes offset place
  generalize isFirst : step first offset lexeme = firstStep at alike
  generalize isSecond : step second place other = secondStep at alike
  cases alike with
  | ok kinds nexts =>
      rw [tokenKinds_arrange_of_ok isFirst, tokenKinds_arrange_of_ok isSecond, kinds,
        rests _ _ _ _ nexts]
  | error kinds =>
      rw [tokenKinds_arrange_of_error isFirst, tokenKinds_arrange_of_error isSecond, kinds]

/-- Alike lexemes that stand for no right token stop, whatever comes after them. -/
theorem tokenKinds_arrange_fault {cause : LexErrorKind} (states : first.Alike second)
    (lexemes : lexeme.Alike other) (wrong : lexeme.token? = .error cause) (offset place : Nat) :
    tokenKinds (arrange first offset (lexeme :: rest)) =
      tokenKinds (arrange second place (other :: others)) := by
  have alike := step_alike states lexemes offset place
  generalize isFirst : step first offset lexeme = firstStep at alike
  generalize isSecond : step second place other = secondStep at alike
  cases alike with
  | ok =>
      exfalso
      have trivial (isTrivia : lexeme.kind.isTrivia = true) : False := by
        simp [Lexeme.token?_of_isTrivia isTrivia] at wrong
      cases steps_of_step isFirst with
      | comment isKind => exact trivial (by rw [isKind]; rfl)
      | margin isKind =>
          exact trivial (by rcases isKind with isKind | isKind <;> rw [isKind] <;> rfl)
      | lineEnd isKind => exact trivial (by rw [isKind]; rfl)
      | blankLine isKind => exact trivial (by rw [isKind]; rfl)
      | bracketed isKind => exact trivial (by rw [isKind]; rfl)
      | token stands => simp [wrong] at stands
  | error kinds =>
      rw [tokenKinds_arrange_of_error isFirst, tokenKinds_arrange_of_error isSecond, kinds]

/-- The kinds of the tokens do not depend on where the lexemes stand. -/
theorem tokenKinds_arrange (states : first.Alike second) (lexemes : List Lexeme)
    (offset place : Nat) :
    tokenKinds (arrange first offset lexemes) = tokenKinds (arrange second place lexemes) := by
  induction lexemes generalizing first second offset place with
  | nil =>
      have hasToken : first.margin.isNone = second.margin.isNone := by
        have width := congrArg Option.isNone states.width
        simpa using width
      have dedents (state : State) (offset : Nat) :
          (state.blocks.map fun _ => (⟨.dedent, .point offset⟩ : Token)).map (·.kind) =
            state.blocks.map fun _ => TokenKind.dedent := by
        simp
      simp only [arrange, tokenKinds, finish, List.map_append, dedents, hasToken, states.blocks]
      cases second.margin.isNone <;> rfl
  | cons lexeme rest inductionHypothesis =>
      apply tokenKinds_arrange_cons states (.refl lexeme)
      exact fun _ _ offset place alike => inductionHypothesis alike offset place

end

/-- A lexeme that adds no token. -/
theorem tokenKinds_arrange_silent {state next : State} {lexeme : Lexeme} {offset : Nat}
    (steps : Steps state offset lexeme [] next) (rest : List Lexeme) (place : Nat) :
    tokenKinds (arrange state offset (lexeme :: rest)) = tokenKinds (arrange next place rest) := by
  rw [tokenKinds_arrange_of_ok (step_of_steps steps),
    tokenKinds_arrange (.refl next) rest _ place]
  cases tokenKinds (arrange next place rest) <;> rfl

/-! ### Blanks and comments at the front -/

/-- The state after text that adds to the margin of the line. -/
def State.widen (state : State) (text : List Char) : State :=
  { state with margin := state.margin.map (·.extend text) }

@[simp] theorem State.widen_nil (state : State) : state.widen [] = state := by
  obtain ⟨depth, margin, blocks⟩ := state
  cases margin <;> simp [widen]

theorem State.widen_widen (state : State) (front back : List Char) :
    (state.widen front).widen back = state.widen (front ++ back) := by
  obtain ⟨depth, margin, blocks⟩ := state
  cases margin <;> simp [widen, Margin.extend_extend]

end Layout

namespace Lexeme

theorem split_takeWhile_blank {text : List Char} (blank : text.takeWhile isInlineBlank ≠ []) :
    split text =
      ⟨.blank, text.takeWhile isInlineBlank⟩ :: split (text.dropWhile isInlineBlank) := by
  cases text with
  | nil => simp at blank
  | cons first rest =>
      have isBlank : isInlineBlank first = true := by
        by_contra notBlank
        simp [notBlank] at blank
      have scanned : scan first (rest.takeWhile isInlineBlank ++ rest.dropWhile isInlineBlank) =
          ⟨.blank, first :: rest.takeWhile isInlineBlank⟩ := by
        rw [List.takeWhile_append_dropWhile]
        simp [scan, isBlank]
      have cut := split_append scanned
      rw [List.takeWhile_append_dropWhile] at cut
      rw [cut, List.takeWhile_cons_of_pos isBlank, List.dropWhile_cons_of_pos isBlank]

private theorem split_comment {body rest : List Char} (inLine : '\n' ∉ body)
    (toEnd : ∀ next ∈ rest.head?, next = '\n') :
    split ('#' :: (body ++ rest)) = ⟨.comment, '#' :: body⟩ :: split rest := by
  have goesOn : ∀ character ∈ '#' :: body, (character != '\n') = true := by
    intro character member
    rcases List.mem_cons.mp member with rfl | inBody
    · rfl
    · simpa using ne_of_mem_of_not_mem inBody inLine
  have stops : rest.takeWhile (· != '\n') = [] := by
    cases rest with
    | nil => rfl
    | cons next others => simp [toEnd next rfl]
  apply split_append
  have whole : '#' :: (body ++ rest) = ('#' :: body) ++ rest := rfl
  have taken : (('#' :: body) ++ rest).takeWhile (· != '\n') = '#' :: body := by
    rw [List.takeWhile_append_of_pos goesOn, stops, List.append_nil]
  simp only [scan, whole, taken]
  rfl

end Lexeme

namespace Layout

open Lexeme

private theorem tokenKinds_takeWhile_blank (state : State) (text : List Char) (offset place : Nat) :
    tokenKinds (arrange state offset (split text)) =
      tokenKinds (arrange (state.widen (text.takeWhile isInlineBlank)) place
        (split (text.dropWhile isInlineBlank))) := by
  by_cases blank : text.takeWhile isInlineBlank = []
  · have none : text.dropWhile isInlineBlank = text := by
      have whole := @List.takeWhile_append_dropWhile _ isInlineBlank text
      rwa [blank, List.nil_append] at whole
    rw [blank, none, State.widen_nil]
    exact tokenKinds_arrange (.refl state) _ offset place
  · rw [split_takeWhile_blank blank]
    exact tokenKinds_arrange_silent (.margin (.inl rfl)) _ place

/-- Blanks at the front add to the margin, whatever follows them. -/
theorem tokenKinds_blanks {blanks : List Char}
    (all : ∀ character ∈ blanks, isInlineBlank character = true) (state : State)
    (rest : List Char) (offset place : Nat) :
    tokenKinds (arrange state offset (split (blanks ++ rest))) =
      tokenKinds (arrange (state.widen blanks) place (split rest)) := by
  rw [tokenKinds_takeWhile_blank state (blanks ++ rest) offset 0,
    tokenKinds_takeWhile_blank (state.widen blanks) rest place 0, State.widen_widen,
    List.takeWhile_append_of_pos all, List.dropWhile_append_of_pos all]

theorem tokenKinds_comment {body rest : List Char} (inLine : '\n' ∉ body)
    (toEnd : ∀ next ∈ rest.head?, next = '\n') (state : State) (offset place : Nat) :
    tokenKinds (arrange state offset (split ('#' :: (body ++ rest)))) =
      tokenKinds (arrange state place (split rest)) := by
  rw [split_comment inLine toEnd]
  exact tokenKinds_arrange_silent (.comment rfl) _ place

end Layout
end Transpiler
