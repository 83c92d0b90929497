import Mathlib.Data.List.Pairwise
import Transpiler.Proofs.Token.Arrangement

/-!
Contract: tokens and the text between them cover the source.

Owns: where the tokens of a source stand, in which order, and what the text is that no
token stands for.

Does not own: which tokens a text has.
-/

namespace Transpiler

/-! ### Open brackets -/

namespace TokenKind

def opensBracket : TokenKind → Bool
  | .leftParen | .leftBracket | .leftBrace => true
  | _ => false

def closesBracket : TokenKind → Bool
  | .rightParen | .rightBracket | .rightBrace => true
  | _ => false

theorem closesBracket_of_opensBracket {kind : TokenKind} (opens : kind.opensBracket = true) :
    kind.closesBracket = false := by
  unfold opensBracket at opens
  split at opens
  · rfl
  · rfl
  · rfl
  · contradiction

end TokenKind

namespace Layout

/-- A bracket is open after tokens of the given kinds: a stretch at their end opens more
brackets than it closes. -/
def InBrackets (kinds : List TokenKind) : Prop :=
  ∃ stretch, stretch <:+ kinds ∧
    stretch.countP (·.closesBracket) < stretch.countP (·.opensBracket)

/-- The number of brackets that are open after tokens of the given kinds. -/
def depthOf (kinds : List TokenKind) : Nat :=
  kinds.foldl depthAfter 0

@[simp] theorem depthOf_nil : depthOf [] = 0 := rfl

theorem depthOf_append (first second : List TokenKind) :
    depthOf (first ++ second) = second.foldl depthAfter (depthOf first) := by
  rw [depthOf, List.foldl_append, ← depthOf]

private theorem depthAfter_eq (depth : Nat) (kind : TokenKind) :
    depthAfter depth kind =
      if kind.opensBracket then depth + 1 else if kind.closesBracket then depth - 1 else depth := by
  cases kind <;> rfl

/-- The last token of a stretch counts on its own. -/
private theorem exists_suffix_concat (kinds : List TokenKind) (kind : TokenKind) (level : Nat) :
    (∃ stretch, stretch <:+ kinds ++ [kind] ∧
      stretch.countP (·.closesBracket) + level < stretch.countP (·.opensBracket)) ↔
    ∃ front, front <:+ kinds ∧
      front.countP (·.closesBracket) + (if kind.closesBracket then 1 else 0) + level <
        front.countP (·.opensBracket) + if kind.opensBracket then 1 else 0 := by
  constructor
  · rintro ⟨stretch, isSuffix, more⟩
    rcases List.suffix_concat_iff.mp isSuffix with rfl | ⟨front, rfl, frontIsSuffix⟩
    · simp at more
    · refine ⟨front, frontIsSuffix, ?_⟩
      rwa [List.countP_append, List.countP_append, List.countP_singleton,
        List.countP_singleton] at more
  · rintro ⟨front, isSuffix, more⟩
    refine ⟨front ++ [kind], List.suffix_append_self_iff.mpr isSuffix, ?_⟩
    rwa [List.countP_append, List.countP_append, List.countP_singleton, List.countP_singleton]

/-- More than `level` brackets are open exactly if a stretch at the end of the tokens opens
that many more than it closes. -/
private theorem lt_depthOf_iff (kinds : List TokenKind) (level : Nat) :
    level < depthOf kinds ↔ ∃ stretch, stretch <:+ kinds ∧
      stretch.countP (·.closesBracket) + level < stretch.countP (·.opensBracket) := by
  induction kinds using List.reverseRecOn generalizing level with
  | nil => simp
  | append_singleton kinds kind inductionHypothesis =>
      have last : depthOf (kinds ++ [kind]) = depthAfter (depthOf kinds) kind := by
        rw [depthOf_append]
        rfl
      rw [exists_suffix_concat, last, depthAfter_eq]
      by_cases opens : kind.opensBracket = true
      · have closes := TokenKind.closesBracket_of_opensBracket opens
        simp only [opens, closes, if_true, Bool.false_eq_true, if_false, Nat.add_zero]
        cases level with
        | zero =>
            refine ⟨fun _ => ⟨[], List.nil_suffix, by simp⟩, fun _ => by omega⟩
        | succ level =>
            rw [Nat.add_lt_add_iff_right, inductionHypothesis]
            simp only [← Nat.add_assoc, Nat.add_lt_add_iff_right]
      · simp only [if_neg opens, Nat.add_zero]
        by_cases closes : kind.closesBracket = true
        · have oneLess : level < depthOf kinds - 1 ↔ level + 1 < depthOf kinds := by omega
          simp only [if_pos closes, oneLess, inductionHypothesis, Nat.add_assoc, Nat.add_comm 1]
        · simp only [if_neg closes, Nat.add_zero]
          exact inductionHypothesis level

private theorem inBrackets_of_depthOf {kinds : List TokenKind} (inside : 0 < depthOf kinds) :
    InBrackets kinds :=
  (lt_depthOf_iff kinds 0).mp inside

/-! ### Lines without tokens -/

/-- What stands after the last line feed of a text. -/
def lastLine (text : List Char) : List Char :=
  (text.reverse.takeWhile (· != '\n')).reverse

theorem lastLine_append {text more : List Char} (inLine : '\n' ∉ more) :
    lastLine (text ++ more) = lastLine text ++ more := by
  have all : ∀ character ∈ more.reverse, (character != '\n') = true := by
    intro character member
    rw [bne_iff_ne]
    rintro rfl
    exact inLine (List.mem_reverse.mp member)
  rw [lastLine, List.reverse_append, List.takeWhile_append_of_pos all, List.reverse_append,
    List.reverse_reverse, lastLine]

theorem lastLine_of_lineFeed (text : List Char) : lastLine (text ++ ['\n']) = [] := by
  simp [lastLine]

/-- A line holds nothing but blanks and perhaps a comment after them. -/
def isBlankLine (line : List Char) : Bool :=
  (line.dropWhile Lexeme.isInlineBlank).head?.all (· == '#')

private theorem isBlankLine_of_blank {line : List Char}
    (all : ∀ character ∈ line, Lexeme.isInlineBlank character = true) :
    isBlankLine line = true := by
  rw [isBlankLine, List.dropWhile_eq_nil_iff.mpr all]
  rfl

private theorem isBlankLine_append {line more : List Char} (first : isBlankLine line = true)
    (second : isBlankLine more = true) : isBlankLine (line ++ more) = true := by
  rw [isBlankLine, List.dropWhile_append]
  split
  · exact second
  next nonempty =>
    cases shape : line.dropWhile Lexeme.isInlineBlank with
    | nil => simp [shape] at nonempty
    | cons next others =>
        rw [isBlankLine, shape] at first
        exact first

/-- A lexeme that stands for no token leaves its line without tokens. -/
private theorem isBlankLine_lastLine {kind : LexemeKind} {before gap after : List Char}
    (trivia : Lexeme.Trivia kind gap after) (blank : isBlankLine (lastLine before) = true) :
    isBlankLine (lastLine (before ++ gap)) = true := by
  cases trivia with
  | blank all =>
      have inLine : '\n' ∉ gap := by
        intro member
        exact absurd (all '\n' member) (by decide)
      rw [lastLine_append inLine]
      exact isBlankLine_append blank (isBlankLine_of_blank all)
  | @comment body _ inLine _ =>
      rw [lastLine_append (by simpa using inLine)]
      exact isBlankLine_append blank rfl
  | @continuation margin ending _ _ ends =>
      obtain ⟨front, shape⟩ : ∃ front, before ++ '\\' :: (margin ++ ending) = front ++ ['\n'] := by
        rcases ends with rfl | rfl
        · exact ⟨before ++ '\\' :: margin, by simp⟩
        · exact ⟨before ++ '\\' :: (margin ++ ['\r']), by simp⟩
      rw [shape, lastLine_of_lineFeed]
      rfl
  | lineBreak =>
      rw [lastLine_of_lineFeed]
      rfl

/-! ### Where tokens stand -/

/-- An offset between two lexemes, or at either end of all of them. -/
def IsCut (lexemes : List Lexeme) (offset : Nat) : Prop :=
  ∃ front, front <+: lexemes ∧ offset = extent front

namespace IsCut

variable {lexemes before after : List Lexeme} {lexeme : Lexeme} {offset : Nat}

theorem whole (lexemes : List Lexeme) : IsCut lexemes (extent lexemes) :=
  ⟨lexemes, List.prefix_refl lexemes, rfl⟩

theorem append (cut : IsCut before offset) (after : List Lexeme) :
    IsCut (before ++ after) offset := by
  obtain ⟨front, isPrefix, rfl⟩ := cut
  exact ⟨front, isPrefix.trans (List.prefix_append before after), rfl⟩

theorem le_extent (cut : IsCut lexemes offset) : offset ≤ extent lexemes := by
  obtain ⟨front, ⟨rest, rfl⟩, rfl⟩ := cut
  rw [extent_append]
  omega

/-- No cut falls inside a lexeme. -/
theorem le_or_le (cut : IsCut (before ++ lexeme :: after) offset) :
    offset ≤ extent before ∨ extent before + Text.byteLength lexeme.text ≤ offset := by
  obtain ⟨front, isPrefix, rfl⟩ := cut
  have withLexeme : before ++ [lexeme] <+: before ++ lexeme :: after := ⟨after, by simp⟩
  rcases List.prefix_or_prefix_of_prefix isPrefix withLexeme with shorter | ⟨rest, rfl⟩
  · rcases List.prefix_concat_iff.mp shorter with rfl | ⟨rest, rfl⟩
    · right
      simp
    · left
      rw [extent_append]
      omega
  · right
    rw [extent_append, extent_append, extent_cons, extent_nil]
    omega

end IsCut

/-- Tokens stand between lexemes, one after the other. -/
structure Ordered (lexemes : List Lexeme) (tokens : List Token) : Prop where
  cuts : ∀ token ∈ tokens, IsCut lexemes token.span.start ∧ IsCut lexemes token.span.stop
  forward : ∀ token ∈ tokens, token.span.start ≤ token.span.stop
  inOrder : tokens.Pairwise fun first second => first.span.stop ≤ second.span.start

namespace Ordered

variable {lexemes : List Lexeme} {tokens added : List Token}

theorem nil (lexemes : List Lexeme) : Ordered lexemes [] :=
  ⟨by simp, by simp, .nil⟩

theorem single {token : Token} (start : IsCut lexemes token.span.start)
    (stop : IsCut lexemes token.span.stop) (forward : token.span.start ≤ token.span.stop) :
    Ordered lexemes [token] :=
  ⟨by simp [start, stop], by simpa using forward, List.pairwise_singleton _ token⟩

/-- Marks of blocks that stand at one offset. -/
theorem points {offset : Nat} (cut : IsCut lexemes offset) {tokens : List Token}
    (atOffset : ∀ token ∈ tokens, token.span = .point offset) : Ordered lexemes tokens where
  cuts token member := by
    rw [atOffset token member]
    exact ⟨cut, cut⟩
  forward token member := by
    rw [atOffset token member]
    exact Nat.le_refl offset
  inOrder := by
    apply List.pairwise_of_forall_mem_list
    intro first firstMember second secondMember
    rw [atOffset first firstMember, atOffset second secondMember]
    exact Nat.le_refl offset

theorem append (first : Ordered lexemes tokens) (second : Ordered lexemes added)
    (between : ∀ token ∈ tokens, ∀ later ∈ added, token.span.stop ≤ later.span.start) :
    Ordered lexemes (tokens ++ added) where
  cuts token member := (List.mem_append.mp member).elim (first.cuts token) (second.cuts token)
  forward token member :=
    (List.mem_append.mp member).elim (first.forward token) (second.forward token)
  inOrder := List.pairwise_append.mpr ⟨first.inOrder, second.inOrder, between⟩

theorem longer (ordered : Ordered lexemes tokens) (after : List Lexeme) :
    Ordered (lexemes ++ after) tokens where
  cuts token member :=
    ⟨(ordered.cuts token member).1.append after, (ordered.cuts token member).2.append after⟩
  forward := ordered.forward
  inOrder := ordered.inOrder

end Ordered

/-- The place that tokens stand before: the start of the line while it has no token, and
after that the end of the text so far. -/
def State.front (state : State) (offset : Nat) : Nat :=
  (state.margin.map (·.start)).getD offset

/-- Where the tokens of lexemes stand, and what the state after the lexemes says of them. -/
structure Placed (lexemes : List Lexeme) (tokens : List Token) (state : State) : Prop where
  ordered : Ordered lexemes tokens
  bounded : ∀ token ∈ tokens, token.span.stop ≤ state.front (extent lexemes)
  margin : ∀ margin ∈ state.margin, IsCut lexemes margin.start
  depth : state.depth = depthOf (tokens.map (·.kind))
  line : state.margin.isSome = true →
    isBlankLine (lastLine (lexemes.flatMap Lexeme.text)) = true

theorem Placed.initial : Placed [] [] .initial where
  ordered := .nil []
  bounded := by simp
  margin := by
    rintro margin ⟨⟩
    exact .whole []
  depth := rfl
  line _ := rfl

namespace Placed

variable {before : List Lexeme} {tokens : List Token} {state : State}

theorem front_le (placed : Placed before tokens state) :
    state.front (extent before) ≤ extent before := by
  unfold State.front
  cases hasMargin : state.margin with
  | none => exact Nat.le_refl _
  | some margin => exact (placed.margin margin hasMargin).le_extent

theorem bounded_extent (placed : Placed before tokens state) :
    ∀ token ∈ tokens, token.span.stop ≤ extent before :=
  fun token member => Nat.le_trans (placed.bounded token member) placed.front_le

/-- One lexeme more, with the tokens that it adds. -/
theorem extend (placed : Placed before tokens state) {lexeme : Lexeme} {added : List Token}
    {next : State} (ordered : Ordered (before ++ [lexeme]) added)
    (behind : ∀ token ∈ added, state.front (extent before) ≤ token.span.start)
    (bounded : ∀ token ∈ added, token.span.stop ≤ next.front (extent (before ++ [lexeme])))
    (front : state.front (extent before) ≤ next.front (extent (before ++ [lexeme])))
    (margin : ∀ margin ∈ next.margin, IsCut (before ++ [lexeme]) margin.start)
    (depth : next.depth = (added.map (·.kind)).foldl depthAfter state.depth)
    (line : next.margin.isSome = true →
      isBlankLine (lastLine ((before ++ [lexeme]).flatMap Lexeme.text)) = true) :
    Placed (before ++ [lexeme]) (tokens ++ added) next where
  ordered := (placed.ordered.longer [lexeme]).append ordered fun token member later isLater =>
    Nat.le_trans (placed.bounded token member) (behind later isLater)
  bounded token member := by
    rcases List.mem_append.mp member with isOld | isNew
    · exact Nat.le_trans (placed.bounded token isOld) front
    · exact bounded token isNew
  margin := margin
  depth := by rw [depth, placed.depth, List.map_append, depthOf_append]
  line := line

/-- A lexeme that adds no token and leaves the margin where it began. -/
theorem skip (placed : Placed before tokens state) {lexeme : Lexeme} {next : State}
    (starts : next.margin.map (·.start) = state.margin.map (·.start))
    (depth : next.depth = state.depth)
    (line : next.margin.isSome = true →
      isBlankLine (lastLine ((before ++ [lexeme]).flatMap Lexeme.text)) = true) :
    Placed (before ++ [lexeme]) (tokens ++ []) next := by
  refine placed.extend (.nil _) (by simp) (by simp) ?_ ?_ depth line
  · rw [State.front, State.front, starts]
    cases state.margin with
    | none => simp
    | some margin => exact Nat.le_refl _
  · intro margin isMargin
    have isStart : margin.start ∈ state.margin.map (·.start) := by
      rw [← starts]
      exact Option.mem_map_of_mem _ isMargin
    obtain ⟨old, isOld, same⟩ := Option.map_eq_some_iff.mp isStart
    rw [← same]
    exact (placed.margin old isOld).append [lexeme]

end Placed

/-- The marks before a token stand where the line's margin does, and open no bracket. -/
theorem Enters.placed {state : State} {before : List Lexeme} {marks : List Token}
    {blocks : List Nat} (enters : Enters state (extent before) marks blocks)
    (margin : ∀ margin ∈ state.margin, IsCut before margin.start) :
    Ordered before marks ∧
      (∀ mark ∈ marks, state.front (extent before) ≤ mark.span.start ∧
        mark.span.stop = extent before) ∧
      ∀ depth, (marks.map (·.kind)).foldl depthAfter depth = depth := by
  cases enters with
  | inside => exact ⟨.nil before, by simp, by simp⟩
  | @deeper start _ noToken =>
      have cut := margin start noToken
      refine ⟨.single cut (.whole before) cut.le_extent, ?_, fun _ => rfl⟩
      simp [State.front, noToken]
  | @closing start width noToken =>
      have cut := margin start noToken
      have atOffset : ∀ mark ∈ (state.blocks.takeWhile (width < ·)).map
          fun _ => (⟨.dedent, .point (extent before)⟩ : Token),
          mark.span = .point (extent before) := by
        intro mark member
        obtain ⟨_, _, rfl⟩ := List.mem_map.mp member
        rfl
      refine ⟨.points (.whole before) atOffset, ?_, ?_⟩
      · intro mark member
        rw [atOffset mark member, State.front, noToken]
        exact ⟨cut.le_extent, rfl⟩
      · intro depth
        generalize state.blocks.takeWhile _ = closed
        induction closed generalizing depth with
        | nil => rfl
        | cons _ rest inductionHypothesis => exact inductionHypothesis depth

/-- Every step keeps tokens in their places. -/
private theorem placed_step {before : List Lexeme} {lexeme : Lexeme} {after : List Char}
    {tokens added : List Token} {state next : State} (placed : Placed before tokens state)
    (looks : lexeme.kind.isTrivia = true → Lexeme.Trivia lexeme.kind lexeme.text after)
    (steps : Steps state (extent before) lexeme added next) :
    Placed (before ++ [lexeme]) (tokens ++ added) next := by
  have text : (before ++ [lexeme]).flatMap Lexeme.text =
      before.flatMap Lexeme.text ++ lexeme.text := by simp
  have length : extent (before ++ [lexeme]) = extent before + Text.byteLength lexeme.text := by
    simp
  have here : IsCut (before ++ [lexeme]) (extent before) := (IsCut.whole before).append [lexeme]
  have there : IsCut (before ++ [lexeme]) (extent before + Text.byteLength lexeme.text) :=
    length ▸ .whole _
  have front := placed.front_le
  -- After a lexeme without a token the line is as blank as before, after a line break it is.
  have stillBlank (trivia : lexeme.kind.isTrivia = true) (noToken : state.margin.isSome = true) :
      isBlankLine (lastLine ((before ++ [lexeme]).flatMap Lexeme.text)) = true := by
    rw [text]
    exact isBlankLine_lastLine (looks trivia) (placed.line noToken)
  have blankAfter (isKind : lexeme.kind = .lineBreak) :
      isBlankLine (lastLine ((before ++ [lexeme]).flatMap Lexeme.text)) = true := by
    have trivia := looks (by rw [isKind]; rfl)
    rw [isKind] at trivia
    rw [text, trivia.text_of_lineBreak, lastLine_of_lineFeed]
    rfl
  cases steps with
  | comment isKind => exact placed.skip rfl rfl (stillBlank (by rw [isKind]; rfl))
  | margin isKind =>
      have trivia : lexeme.kind.isTrivia = true := by
        rcases isKind with isKind | isKind <;> rw [isKind] <;> rfl
      refine placed.skip ?_ rfl fun noToken => stillBlank trivia (by simpa using noToken)
      simp [Function.comp_def]
  | lineEnd isKind outside hasToken =>
      have atEnd : state.front (extent before) = extent before := by
        rw [State.front, hasToken]
        rfl
      refine placed.extend (.single here there (Nat.le_add_right _ _)) ?_ ?_ ?_ ?_ rfl
        fun _ => blankAfter isKind
      · simpa using front
      · simp [State.front]
      · rw [atEnd]
        exact Nat.le_add_right _ _
      · rintro margin ⟨⟩
        exact there
  | blankLine isKind outside noToken =>
      refine placed.extend (.nil _) (by simp) (by simp) ?_ ?_ rfl fun _ => blankAfter isKind
      · exact Nat.le_trans front (Nat.le_add_right _ _)
      · rintro margin ⟨⟩
        exact there
  | bracketed isKind inside => exact placed.skip rfl rfl fun _ => blankAfter isKind
  | @token kind marks blocks stands enters =>
      obtain ⟨marksOrdered, marksPlaced, marksDepth⟩ := enters.placed placed.margin
      refine placed.extend ?_ ?_ ?_ ?_ (by simp) ?_ (by simp)
      · refine (marksOrdered.longer [lexeme]).append
          (.single here there (Nat.le_add_right _ _)) ?_
        intro mark member token isToken
        obtain rfl := List.mem_singleton.mp isToken
        exact Nat.le_of_eq (marksPlaced mark member).2
      · intro token member
        rcases List.mem_append.mp member with isMark | isToken
        · exact (marksPlaced token isMark).1
        · obtain rfl := List.mem_singleton.mp isToken
          exact front
      · intro token member
        rw [State.front, length]
        rcases List.mem_append.mp member with isMark | isToken
        · rw [(marksPlaced token isMark).2]
          exact Nat.le_add_right _ _
        · obtain rfl := List.mem_singleton.mp isToken
          exact Nat.le_refl _
      · rw [State.front, length]
        exact Nat.le_trans front (Nat.le_add_right _ _)
      · rw [List.map_append, List.foldl_append, marksDepth]
        rfl

/-! ### The text between tokens -/

/-- Text that no token stands for, between the text before and after it: blanks, a comment, a
continuation, or a line break that is inside brackets or ends a line without tokens. -/
def IsGap (tokens : List Token) (before gap after : List Char) : Prop :=
  ∃ kind, Lexeme.Trivia kind gap after ∧
    (kind = .lineBreak →
      InBrackets ((tokens.filter (·.span.stop ≤ Text.byteLength before)).map (·.kind)) ∨
        isBlankLine (lastLine before) = true)

theorem exists_lexeme_at {lexemes : List Lexeme} {offset : Nat} (inside : offset < extent lexemes) :
    ∃ before lexeme after, lexemes = before ++ lexeme :: after ∧ extent before ≤ offset ∧
      offset < extent before + Text.byteLength lexeme.text := by
  induction lexemes generalizing offset with
  | nil => simp at inside
  | cons first rest inductionHypothesis =>
      rw [extent_cons] at inside
      by_cases here : offset < Text.byteLength first.text
      · exact ⟨[], first, rest, rfl, by simp, by simpa using here⟩
      · obtain ⟨before, lexeme, after, rfl, starts, stops⟩ :=
          @inductionHypothesis (offset - Text.byteLength first.text) (by omega)
        refine ⟨first :: before, lexeme, after, rfl, ?_, ?_⟩
        · rw [extent_cons]
          omega
        · rw [extent_cons]
          omega

/-- Tokens end no earlier than the lexemes that add them begin. -/
theorem Runs.le_stop {state last : State} {offset : Nat} {lexemes : List Lexeme}
    {tokens : List Token} (runs : Runs state offset lexemes tokens last) :
    ∀ token ∈ tokens, offset ≤ token.span.stop := by
  induction runs with
  | none => simp
  | @more state next last offset lexeme rest added others stepped _ inductionHypothesis =>
      intro token member
      rcases List.mem_append.mp member with isAdded | isOther
      · cases steps_of_step stepped with
        | comment => simp at isAdded
        | margin => simp at isAdded
        | blankLine => simp at isAdded
        | bracketed => simp at isAdded
        | lineEnd =>
            obtain rfl := List.mem_singleton.mp isAdded
            exact Nat.le_add_right _ _
        | token stands enters =>
            rcases List.mem_append.mp isAdded with isMark | isToken
            · cases enters with
              | inside => simp at isMark
              | deeper =>
                  obtain rfl := List.mem_singleton.mp isMark
                  exact Nat.le_refl _
              | closing =>
                  obtain ⟨_, _, rfl⟩ := List.mem_map.mp isMark
                  exact Nat.le_refl _
            · obtain rfl := List.mem_singleton.mp isToken
              exact Nat.le_add_right _ _
      · have later := inductionHypothesis token isOther
        omega

private theorem span_of_mem_finish {state : State} {offset : Nat} {token : Token}
    (member : token ∈ finish state offset) : token.span = .point offset := by
  unfold finish at member
  grind

section

variable {text : List Char} {lexemes rest : List Lexeme} {tokens : List Token} {last : State}

/-- The tokens of a run from the start of a source are in their places. -/
theorem placed_of_runs (cuts : Lexeme.Cuts text (lexemes ++ rest))
    (runs : Runs .initial 0 lexemes tokens last) : Placed lexemes tokens last := by
  refine runs.keeps .initial ?_
  intro before after lexeme taken added here next shape placed stepped
  have whole : lexemes ++ rest = before ++ lexeme :: (after ++ rest) := by simp [shape]
  rw [whole] at cuts
  rw [Nat.zero_add] at stepped
  exact placed_step placed cuts.trivia (steps_of_step stepped)

/-- All tokens of a source are in order. -/
theorem ordered_of_runs (cuts : Lexeme.Cuts text lexemes)
    (runs : Runs .initial 0 lexemes tokens last) :
    Ordered lexemes (tokens ++ finish last (extent lexemes)) := by
  rw [← List.append_nil lexemes] at cuts
  have placed := placed_of_runs cuts runs
  refine placed.ordered.append
    (.points (.whole lexemes) fun token member => span_of_mem_finish member) ?_
  intro token member final isFinal
  rw [span_of_mem_finish isFinal]
  exact placed.bounded_extent token member

/-- The tokens that end before a lexeme are those that the lexemes before it added. -/
private theorem filter_stop_le {firstTokens secondTokens : List Token} {offset : Nat}
    (first : ∀ token ∈ firstTokens, token.span.stop ≤ offset)
    (second : ∀ token ∈ secondTokens, offset < token.span.stop) :
    (firstTokens ++ secondTokens).filter (·.span.stop ≤ offset) = firstTokens := by
  have all : firstTokens.filter (·.span.stop ≤ offset) = firstTokens := by
    rw [List.filter_eq_self]
    simpa using first
  have none : secondTokens.filter (·.span.stop ≤ offset) = [] := by
    rw [List.filter_eq_nil_iff]
    simpa using second
  rw [List.filter_append, all, none, List.append_nil]

/-- A lexeme has a token of its own, or it is a gap. -/
theorem covered_or_gap {before after : List Lexeme} {lexeme : Lexeme}
    (cuts : Lexeme.Cuts text (before ++ lexeme :: after))
    (nonempty : 0 < Text.byteLength lexeme.text)
    (runs : Runs .initial 0 (before ++ lexeme :: after) tokens last) :
    let all := tokens ++ finish last (extent (before ++ lexeme :: after))
    (∃ token ∈ all,
      token.span = ⟨extent before, extent before + Text.byteLength lexeme.text⟩) ∨
      IsGap all (before.flatMap Lexeme.text) lexeme.text (after.flatMap Lexeme.text) := by
  intro all
  obtain ⟨firstTokens, middle, secondTokens, front, back, rfl⟩ := runs.exists_of_append
  have placed := placed_of_runs cuts front
  rw [Nat.zero_add] at back
  cases back with
  | @more _ next _ _ _ _ added others stepped further =>
      have ownToken (token : Token) (isAdded : token ∈ added) : token ∈ all := by
        simp [all, isAdded]
      have gap (isTrivia : lexeme.kind.isTrivia = true) (noToken : added = [])
          (reason : lexeme.kind = .lineBreak → 0 < middle.depth ∨ middle.margin.isSome = true) :
          IsGap all (before.flatMap Lexeme.text) lexeme.text (after.flatMap Lexeme.text) := by
        refine ⟨lexeme.kind, cuts.trivia isTrivia,
          fun isBreak => (reason isBreak).imp ?_ placed.line⟩
        intro inside
        have earlier : all.filter (·.span.stop ≤ extent before) = firstTokens := by
          simp only [all, noToken, List.nil_append, List.append_assoc]
          refine filter_stop_le placed.bounded_extent ?_
          intro token member
          rcases List.mem_append.mp member with isOther | isFinal
          · have later := further.le_stop token isOther
            omega
          · rw [span_of_mem_finish isFinal, extent_append, extent_cons]
            exact Nat.lt_add_of_pos_right (Nat.add_pos_left nonempty _)
        change InBrackets ((all.filter (·.span.stop ≤ extent before)).map (·.kind))
        rw [earlier]
        exact inBrackets_of_depthOf (placed.depth ▸ inside)
      cases steps_of_step stepped with
      | comment isKind => exact .inr (gap (by rw [isKind]; rfl) rfl (by simp [isKind]))
      | margin isKind =>
          rcases isKind with isKind | isKind
          · exact .inr (gap (by rw [isKind]; rfl) rfl (by simp [isKind]))
          · exact .inr (gap (by rw [isKind]; rfl) rfl (by simp [isKind]))
      | lineEnd => exact .inl ⟨_, ownToken _ (List.mem_singleton_self _), rfl⟩
      | blankLine isKind _ noToken =>
          exact .inr (gap (by rw [isKind]; rfl) rfl fun _ => .inr noToken)
      | bracketed isKind inside =>
          exact .inr (gap (by rw [isKind]; rfl) rfl fun _ => .inl inside)
      | token =>
          exact .inl ⟨_, ownToken _ (List.mem_append_right _ (List.mem_singleton_self _)),
            rfl⟩

end

end Layout

/-! ### The source as a whole -/

/-- Tokens and gaps account for a source. -/
structure TokensCover (source : String) (tokens : List Token) : Prop where
  /-- Every token stands in the source, between two characters at either end. -/
  inside : ∀ token ∈ tokens,
    token.span.start ≤ token.span.stop ∧ token.span.stop ≤ source.utf8ByteSize ∧
      String.Pos.Raw.IsValid source ⟨token.span.start⟩ ∧
      String.Pos.Raw.IsValid source ⟨token.span.stop⟩
  /-- Every token ends before the later ones start. -/
  inOrder : tokens.Pairwise fun first second => first.span.stop ≤ second.span.start
  /-- Every byte that no token covers lies in a gap, which tokens leave free. -/
  noLoss : ∀ offset < source.utf8ByteSize,
    (∃ token ∈ tokens, token.span.contains offset = true) ∨
      ∃ before gap after, source.toList = before ++ (gap ++ after) ∧
        Text.byteLength before ≤ offset ∧
        offset < Text.byteLength before + Text.byteLength gap ∧
        (∀ token ∈ tokens, token.span.stop ≤ Text.byteLength before ∨
          Text.byteLength before + Text.byteLength gap ≤ token.span.start) ∧
        Layout.IsGap tokens before gap after

namespace Layout

/-- A cut between the lexemes of a source is a position between two of its characters. -/
theorem IsCut.isValid {source : String} {offset : Nat}
    (cut : IsCut (Lexeme.split source.toList) offset) :
    String.Pos.Raw.IsValid source ⟨offset⟩ := by
  obtain ⟨front, ⟨rest, shape⟩, rfl⟩ := cut
  rw [String.Pos.Raw.isValid_iff_exists_append]
  refine ⟨String.ofList (front.flatMap Lexeme.text), String.ofList (rest.flatMap Lexeme.text),
    ?_, ?_⟩
  · rw [← String.ofList_append, ← List.flatMap_append, shape,
      (Lexeme.cuts_split source.toList).flatMap_text, String.ofList_toList]
  · rw [String.rawEndPos, Text.utf8ByteSize_ofList, extent]

end Layout

/-- The tokens of a source lose nothing: they stand in the source in order, and every byte
that none of them covers belongs to blanks, a comment, a continuation, or a line break that
is inside brackets or ends a line without tokens. -/
theorem tokenize_covers (source : String) (tokens : List Token)
    (tokenized : tokenize source = .ok tokens) : TokensCover source tokens := by
  have cuts := Lexeme.cuts_split source.toList
  obtain ⟨added, last, runs, rfl⟩ := Layout.runs_of_tokenize tokenized
  have length : Layout.extent (Lexeme.split source.toList) = source.utf8ByteSize := by
    rw [Layout.extent, cuts.flatMap_text, Text.byteLength_toList]
  have ordered := Layout.ordered_of_runs cuts runs
  rw [length] at ordered
  refine ⟨?_, ordered.inOrder, ?_⟩
  · intro token member
    obtain ⟨start, stop⟩ := ordered.cuts token member
    exact ⟨ordered.forward token member, length ▸ stop.le_extent, start.isValid, stop.isValid⟩
  · intro offset inside
    rw [← length] at inside
    obtain ⟨before, lexeme, after, shape, starts, stops⟩ := Layout.exists_lexeme_at inside
    rw [shape] at cuts runs ordered
    have classified := Layout.covered_or_gap cuts (by omega) runs
    rw [← shape, length] at classified
    rcases classified with ⟨token, member, span⟩ | gap
    · left
      refine ⟨token, member, ?_⟩
      simp [Span.contains, span, starts, stops]
    · by_cases covered : ∃ token ∈ added ++ Layout.finish last source.utf8ByteSize,
          token.span.contains offset = true
      · exact .inl covered
      · right
        refine ⟨_, _, _, ?_, starts, stops, ?_, gap⟩
        · rw [← cuts.flatMap_text]
          simp
        · intro token member
          have free : ¬ (token.span.start ≤ offset ∧ offset < token.span.stop) := by
            intro contains
            exact covered ⟨token, member, by simp [Span.contains, contains]⟩
          obtain ⟨start, stop⟩ := ordered.cuts token member
          have start := start.le_or_le
          have stop := stop.le_or_le
          unfold Layout.extent at *
          omega

/-- A call over two lines with a comment between them, a blank line and a continuation, and
a block of one line. -/
theorem tokenize_covers_call :
    let source := "f( # é\n\t1)\n \n\\\n  pass"
    let tokens : List Token :=
      [⟨.ident "f", ⟨0, 1⟩⟩, ⟨.leftParen, ⟨1, 2⟩⟩, ⟨.int 1, ⟨9, 10⟩⟩, ⟨.rightParen, ⟨10, 11⟩⟩,
        ⟨.newline, ⟨11, 12⟩⟩, ⟨.indent, ⟨14, 18⟩⟩, ⟨.passWord, ⟨18, 22⟩⟩, ⟨.newline, ⟨22, 22⟩⟩,
        ⟨.dedent, ⟨22, 22⟩⟩, ⟨.endOfFile, ⟨22, 22⟩⟩]
    tokenize source = .ok tokens ∧ TokensCover source tokens := by
  intro source tokens
  have tokenized : tokenize source = .ok tokens := by decide +kernel
  exact ⟨tokenized, tokenize_covers source tokens tokenized⟩

end Transpiler
