import Transpiler.Proofs.Token.Alike
import Transpiler.Proofs.Token.Blocks

/-!
Contract: lines without tokens do not matter.

Owns: the places between two lines, where a line break is not part of a continuation
(`Lexeme.StartsLine`), and that a line of blanks and perhaps a comment, put in at such a place,
leaves the kinds of all tokens as they are. The place may be in brackets, between blocks or at
the start of the source.
-/

namespace Transpiler
namespace Layout

open Lexeme

/-! ### Starts of lines -/

/-- A state in which the line has no text yet: outside brackets the margin is empty, and within
brackets there is none. -/
inductive State.StartsLine (state : State) : Prop where
  | outside {margin : Margin} (outside : state.depth = 0) (noToken : state.margin = some margin)
      (empty : margin.width = .ok 0)
  | inside (inside : 0 < state.depth) (hasToken : state.margin = none)

theorem State.startsLine_initial : State.initial.StartsLine :=
  .outside rfl rfl rfl

/-- A line break leads to the start of a line, if a margin is kept outside brackets only. -/
theorem State.startsLine_of_lineBreak {state next : State} {offset : Nat} {tokens : List Token}
    (stepped : step state offset ⟨.lineBreak, ['\n']⟩ = .ok (tokens, next))
    (marginOutside : state.margin.isSome = true → state.depth = 0) : next.StartsLine := by
  cases steps_of_step stepped with
  | comment isKind => cases isKind
  | margin isKind => rcases isKind with isKind | isKind <;> cases isKind
  | lineEnd _ outside hasToken => exact .outside outside rfl rfl
  | blankLine _ outside noToken => exact .outside outside rfl rfl
  | bracketed _ inside =>
      refine .inside inside ?_
      by_contra noToken
      have outside := marginOutside (Option.isSome_iff_ne_none.mpr noToken)
      omega
  | token stands => cases stands

/-- At the start of a line, blanks and a line break lead to the start of a line again. -/
private theorem tokenKinds_widen_lineBreak {state : State} (starts : state.StartsLine)
    (blanks rest : List Char) (offset place : Nat) :
    tokenKinds (arrange (state.widen blanks) offset (split ('\n' :: rest))) =
      tokenKinds (arrange state place (split rest)) := by
  rw [split_cons_lineBreak]
  cases starts with
  | @outside margin outside noToken empty =>
      have widened : (state.widen blanks).margin.isSome = true := by
        simp [State.widen, noToken]
      have outside : (state.widen blanks).depth = 0 := outside
      rw [tokenKinds_arrange_silent (.blankLine rfl outside widened) _ place]
      apply tokenKinds_arrange
      refine ⟨rfl, ?_, rfl⟩
      rw [noToken, Option.map_some, Option.map_some, empty]
      rfl
  | inside inside hasToken =>
      have same : state.widen blanks = state := by
        obtain ⟨depth, margin, blocks⟩ := state
        simp_all [State.widen]
      rw [same]
      exact tokenKinds_arrange_silent (.bracketed rfl inside) _ place

/-- A line without tokens at the start of a line. -/
private theorem tokenKinds_blankLine {state : State} (starts : state.StartsLine) {line : List Char}
    (blank : isBlankLine line = true) (oneLine : '\n' ∉ line) (rest : List Char)
    (offset place : Nat) :
    tokenKinds (arrange state offset (split (line ++ '\n' :: rest))) =
      tokenKinds (arrange state place (split rest)) := by
  have allBlank : ∀ character ∈ line.takeWhile isInlineBlank, isInlineBlank character = true :=
    List.all_eq_true.mp List.all_takeWhile
  have shape : line ++ '\n' :: rest = line.takeWhile isInlineBlank ++
      (line.dropWhile isInlineBlank ++ '\n' :: rest) := by
    rw [← List.append_assoc, List.takeWhile_append_dropWhile]
  rw [shape, tokenKinds_blanks allBlank state _ offset place]
  cases comment : line.dropWhile isInlineBlank with
  | nil => exact tokenKinds_widen_lineBreak starts _ rest place place
  | cons mark body =>
      obtain rfl : mark = '#' := by simpa [isBlankLine, comment] using blank
      have inLine : '\n' ∉ body := by
        intro member
        apply oneLine
        rw [← @List.takeWhile_append_dropWhile _ isInlineBlank line, comment]
        simp [member]
      rw [List.cons_append, tokenKinds_comment inLine (by simp) _ place place]
      exact tokenKinds_widen_lineBreak starts _ rest place place

/-! ### Lexemes in front -/

private theorem tokenKinds_map (outcome : Except (Halt LexError) (List Token))
    (added : List Token) :
    tokenKinds (outcome.map (added ++ ·)) =
      (tokenKinds outcome).map (added.map (·.kind) ++ ·) := by
  cases outcome <;> simp [tokenKinds, Except.map]

/-- Lexemes come to the same behind others, if they do in every state that those lead to. -/
private theorem tokenKinds_arrange_append {state : State} {offset : Nat}
    {before first second : List Lexeme} (same : ∀ added here, Runs state offset before added here →
      tokenKinds (arrange here (offset + extent before) first) =
        tokenKinds (arrange here (offset + extent before) second)) :
    tokenKinds (arrange state offset (before ++ first)) =
      tokenKinds (arrange state offset (before ++ second)) := by
  cases arranged : arrange state offset before with
  | ok tokens =>
      obtain ⟨added, here, runs, _⟩ := arrange_eq_ok_iff.mp arranged
      rw [arrange_append runs, arrange_append runs, tokenKinds_map, tokenKinds_map,
        same added here runs]
  | error error =>
      obtain ⟨front, lexeme, after, added, here, rfl, runs, fails⟩ :=
        arrange_eq_error_iff.mp arranged
      have stops (more : List Lexeme) :
          arrange state offset (front ++ lexeme :: after ++ more) = .error error := by
        apply arrange_eq_error_iff.mpr
        exact ⟨front, lexeme, after ++ more, added, here, by simp, runs, fails⟩
      rw [stops first, stops second]

end Layout

/-! ### Lines put into a source -/

/-- A place in a text where a line starts: the beginning of the text, or behind a line break
that is a lexeme of its own. -/
def Lexeme.StartsLine (front back : List Char) : Prop :=
  front = [] ∨ ∃ before after, split (front ++ back) = before ++ ⟨.lineBreak, ['\n']⟩ :: after ∧
    front = before.flatMap Lexeme.text ++ ['\n']

open Layout in
/-- A line without tokens leaves the kinds of the tokens as they are. -/
theorem tokenKinds_insert_blankLine {front line back : List Char}
    (starts : Lexeme.StartsLine front back) (blank : isBlankLine line = true)
    (oneLine : '\n' ∉ line) :
    tokenKinds (arrange .initial 0 (Lexeme.split (front ++ (line ++ '\n' :: back)))) =
      tokenKinds (arrange .initial 0 (Lexeme.split (front ++ back))) := by
  rcases starts with rfl | ⟨before, after, cut, rfl⟩
  · exact tokenKinds_blankLine State.startsLine_initial blank oneLine back 0 0
  have cuts := Lexeme.cuts_split (before.flatMap Lexeme.text ++ ['\n'] ++ back)
  rw [cut] at cuts
  have lexemes (more : List Char) : Lexeme.split (before.flatMap Lexeme.text ++ ['\n'] ++ more) =
      before ++ [⟨.lineBreak, ['\n']⟩] ++ Lexeme.split more := by
    rw [List.append_assoc, List.singleton_append, cuts.split_lineBreak more, List.append_assoc]
    rfl
  rw [lexemes, lexemes]
  apply tokenKinds_arrange_append
  intro added here runs
  obtain ⟨_, last, _, front, lineBreak, _⟩ := runs.exists_of_append
  have scanned := scanned_of_runs ⟨_, cut.symm⟩ front
  cases lineBreak with
  | more stepped further =>
      cases further
      have starts := State.startsLine_of_lineBreak stepped fun hasMargin =>
        (scanned.noToken hasMargin).2
      exact tokenKinds_blankLine starts blank oneLine back _ _

end Transpiler
