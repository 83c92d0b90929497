import Transpiler.Proofs.Grammar.StatementExtent
import Transpiler.Proofs.Token.Blocks

/-!
Contract: from which tokens of a source its tree is read.

Owns: the tokens of a source stand in order and take up space; so the statements of its tree
stand one after the other among them, and an error of the grammar points at them.
-/

namespace Transpiler

open Extent

namespace Layout

theorem isLayout_of_mem_finish {state : State} {offset : Nat} {token : Token}
    (member : token ∈ finish state offset) : token.kind.isLayout = true := by
  unfold finish at member
  grind [TokenKind.isLayout]

/-- Tokens that stand for a text take up its space. -/
theorem visible_of_runs {text : List Char} {lexemes : List Lexeme} {tokens : List Token}
    {last : State} (cuts : Lexeme.Cuts text lexemes)
    (runs : Runs .initial 0 lexemes tokens last) :
    ∀ token ∈ tokens, token.kind.isLayout = false → token.span.start < token.span.stop := by
  refine runs.keeps
    (motive := fun _ tokens _ =>
      ∀ token ∈ tokens, token.kind.isLayout = false → token.span.start < token.span.stop)
    (by simp) ?_
  intro before after lexeme taken added here next shape visible stepped token member
  rcases List.mem_append.mp member with isTaken | isAdded
  · exact visible token isTaken
  · intro noLayout
    cases steps_of_step stepped with
    | comment | margin | blankLine | bracketed => simp at isAdded
    | lineEnd =>
        rw [List.mem_singleton.mp isAdded] at noLayout
        contradiction
    | token stands enters =>
        rcases List.mem_append.mp isAdded with isMark | isToken
        · cases enters with
          | inside => simp at isMark
          | deeper =>
              rw [List.mem_singleton.mp isMark] at noLayout
              contradiction
          | closing =>
              obtain ⟨_, _, rfl⟩ := List.mem_map.mp isMark
              contradiction
        · rw [shape] at cuts
          obtain ⟨first, rest, isText, _⟩ := cuts.scan_of_append
          rw [List.mem_singleton.mp isToken, isText, Text.byteLength_cons]
          exact Nat.lt_add_of_pos_right (Nat.add_pos_left (Char.utf8Size_pos first) _)

end Layout

/-- The tokens of a source stand in order between its lexemes. -/
theorem Layout.ordered_of_tokenize {source : String} {tokens : List Token}
    (tokenized : tokenize source = .ok tokens) :
    Ordered (Lexeme.split source.toList) tokens := by
  have cuts := Lexeme.cuts_split source.toList
  obtain ⟨added, last, runs, rfl⟩ := runs_of_tokenize tokenized
  have ordered := ordered_of_runs cuts runs
  rwa [extent, cuts.flatMap_text, Text.byteLength_toList] at ordered

theorem stream_of_tokenize {source : String} {tokens : List Token}
    (tokenized : tokenize source = .ok tokens) : Stream tokens where
  orderly := by
    have ordered := Layout.ordered_of_tokenize tokenized
    obtain ⟨added, last, runs, rfl⟩ := Layout.runs_of_tokenize tokenized
    refine ⟨ordered.forward, ?_, ordered.inOrder⟩
    intro token member noLayout
    rcases List.mem_append.mp member with isAdded | isFinal
    · exact Layout.visible_of_runs (Lexeme.cuts_split source.toList) runs token isAdded noLayout
    · rw [Layout.isLayout_of_mem_finish isFinal] at noLayout
      contradiction
  ends := by
    obtain ⟨body, last, rfl, isEnd, _⟩ := tokenize_endOfFile tokenized
    exact ⟨last, by simp, isEnd⟩

namespace Module

/-- The statements of a tree stand one after the other among the tokens of its source. -/
theorem sequence_of_ofSource {source : String} {tree : Module}
    (parsed : ofSource source = .ok tree) :
    ∃ tokens, tokenize source = .ok tokens ∧ Sequence tokens tree.body := by
  obtain ⟨tokens, tokenized, parsed⟩ := ofSource_eq_ok_iff.mp parsed
  exact ⟨tokens, tokenized, sequence_of_ofTokens (stream_of_tokenize tokenized).orderly parsed⟩

/-- A source that forms no tree is stopped by a text or a margin, or the error points at its
tokens. -/
theorem error_of_ofSource {source : String} {error : ParseError}
    (failed : ofSource source = .error (.fault error)) :
    (∃ cause, tokenize source = .error (.fault cause) ∧
      error = ⟨.lexical cause, cause.span⟩) ∨
      ∃ tokens, tokenize source = .ok tokens ∧ error.PointsInto tokens := by
  rcases ofSource_eq_fault_iff.mp failed with stopped | ⟨tokens, tokenized, refused⟩
  · exact .inl stopped
  · exact .inr ⟨tokens, tokenized, pointsInto_of_ofTokens (stream_of_tokenize tokenized) refused⟩

end Module
end Transpiler
