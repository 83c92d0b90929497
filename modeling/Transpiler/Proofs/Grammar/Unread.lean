import Transpiler.Proofs.Grammar.Framing
import Transpiler.Proofs.Grammar.Outcomes

/-!
Contract: the brackets of tokens that are passed over unread.

Owns: that the contents of brackets open and close their own brackets on one line, whatever else
stands in them; and that what stops the parameters of a lambda is a token.
-/

namespace Transpiler
namespace Extent

/-! ### Contents of brackets -/

/-- With `depth` brackets open, tokens stay on their line, and if what follows them ends them
as it should, all brackets are closed. -/
structure Unread (ends : TokenKind → Bool) (depth : Nat) (taken rest : List Token) : Prop where
  inLine : ∀ token ∈ taken, Parser.endsLine token.kind = false
  passed : ∀ stack : List TokenKind, stack.length = depth →
    ∃ left, Brackets.after false stack (taken.map (·.kind)) = some left ∧
      (ends (Cursor.headKind rest) = true → left = [])

namespace Unread

variable {ends : TokenKind → Bool} {depth next : Nat} {taken rest : List Token} {token : Token}

theorem none (stops : ends (Cursor.headKind rest) = true → depth = 0) :
    Unread ends depth [] rest where
  inLine := by simp
  passed := by
    intro stack length
    refine ⟨stack, rfl, ?_⟩
    intro closes
    exact List.length_eq_zero_iff.mp (length.trans (stops closes))

/-- One more token in front. -/
theorem cons (goesOn : Parser.endsLine token.kind = false)
    (steps : ∀ stack : List TokenKind, stack.length = depth →
      ∃ left, Brackets.step false stack token.kind = some left ∧ left.length = next)
    (others : Unread ends next taken rest) : Unread ends depth (token :: taken) rest where
  inLine := by
    intro other member
    rcases List.mem_cons.mp member with rfl | inTaken
    · exact goesOn
    · exact others.inLine other inTaken
  passed := by
    intro stack length
    obtain ⟨middle, stepped, shorter⟩ := steps stack length
    obtain ⟨left, further, closes⟩ := others.passed middle shorter
    refine ⟨left, ?_, closes⟩
    rw [List.map_cons, Brackets.after_cons, stepped]
    exact further

theorem opening (opens : token.kind.opensBracket = true)
    (others : Unread ends (depth + 1) taken rest) : Unread ends depth (token :: taken) rest := by
  refine others.cons (endsLine_of_isLayout (isLayout_of_opensBracket opens)) ?_
  intro stack length
  exact ⟨token.kind :: stack, Brackets.step_eq_some_iff.mpr (.inl ⟨opens, rfl⟩), by simp [length]⟩

theorem closing (closes : token.kind.closesBracket = true) (others : Unread ends depth taken rest) :
    Unread ends (depth + 1) (token :: taken) rest := by
  refine others.cons (endsLine_of_isLayout (isLayout_of_closesBracket closes)) ?_
  intro stack length
  cases stack with
  | nil => simp at length
  | cons top below =>
      have noOpening : token.kind.opensBracket = false := by
        by_contra opens
        have noClosing := TokenKind.closesBracket_of_opensBracket (by simpa using opens)
        rw [closes] at noClosing
        contradiction
      refine ⟨below, ?_, by simpa using length⟩
      exact Brackets.step_eq_some_iff.mpr (.inr (.inl ⟨noOpening, closes, top, rfl, rfl⟩))

theorem other (noOpening : token.kind.opensBracket = false)
    (noClosing : token.kind.closesBracket = false)
    (goesOn : Parser.endsLine token.kind = false) (others : Unread ends depth taken rest) :
    Unread ends depth (token :: taken) rest := by
  refine others.cons goesOn ?_
  intro stack length
  exact ⟨stack, Brackets.step_eq_some_iff.mpr (.inr (.inr ⟨noOpening, noClosing, rfl⟩)), length⟩

/-- Where nothing was open before, nothing is at the end. -/
theorem closed (unread : Unread ends 0 taken rest)
    (closes : ends (Cursor.headKind rest) = true) : Closed false taken where
  balanced := by
    obtain ⟨left, passed, none⟩ := unread.passed [] rfl
    rw [none closes] at passed
    exact passed
  inLine := unread.inLine

end Unread

/-- One more token in front of a stretch that is counted. -/
private theorem unread_cons {ends : TokenKind → Bool} {token : Token} {tokens : List Token}
    {before total depth next : Nat}
    (more : ∀ {taken rest}, Unread ends next taken rest → Unread ends depth (token :: taken) rest)
    (others : ∃ taken rest, tokens = taken ++ rest ∧ total = before + 1 + taken.length ∧
      Unread ends next taken rest) :
    ∃ taken rest, token :: tokens = taken ++ rest ∧ total = before + taken.length ∧
      Unread ends depth taken rest := by
  obtain ⟨taken, rest, rfl, rfl, unread⟩ := others
  exact ⟨token :: taken, rest, rfl, by simp; omega, more unread⟩

/-- What is measured in brackets ends at the bracket that closes them, or with the line. -/
theorem unread_measureFrom (depth lambdas : Nat) (contents : BracketContents)
    (tokens : List Token) :
    ∃ taken rest, tokens = taken ++ rest ∧
      (BracketContents.measureFrom depth lambdas contents tokens).count =
        contents.count + taken.length ∧
      Unread (·.closesBracket) depth taken rest := by
  fun_induction BracketContents.measureFrom depth lambdas contents tokens
  case case1 => exact ⟨[], [], rfl, rfl, .none (by simp [TokenKind.closesBracket])⟩
  case case2 | case3 =>
    rename_i isKind
    exact ⟨[], _, rfl, rfl, .none (by simp [isKind, TokenKind.closesBracket])⟩
  case case7 | case9 | case11 => exact ⟨[], _, rfl, rfl, .none fun _ => rfl⟩
  case case4 | case5 | case6 =>
    rename_i isKind inductionHypothesis
    exact unread_cons (.opening (by rw [isKind]; rfl)) inductionHypothesis
  case case8 | case10 | case12 =>
    rename_i isKind _ inductionHypothesis
    exact unread_cons (.closing (by rw [isKind]; rfl)) inductionHypothesis
  all_goals
    rename_i inductionHypothesis
    refine unread_cons (.other ?_ ?_ ?_) inductionHypothesis <;>
      grind [TokenKind.opensBracket, TokenKind.closesBracket, Parser.endsLine]

/-- How the parameters of a lambda are counted from a token on: the token is not one of them, or
it is the colon after them, or it is one more before those that follow. -/
private theorem lambdaParameters_cons (depth : Nat) (token : Token) (rest : List Token) :
    lambdaParameters depth (token :: rest) = .error token ∨
      lambdaParameters depth (token :: rest) = .ok 0 ∨
      ∃ next, lambdaParameters depth (token :: rest) = (lambdaParameters next rest).map (· + 1) ∧
        token.kind ≠ .endOfFile := by
  rw [lambdaParameters.eq_def]
  dsimp only
  cases isKind : token.kind
  case newline | endOfFile => exact .inl rfl
  case rightParen | rightBracket | rightBrace =>
    cases depth with
    | zero => exact .inl rfl
    | succ outer => exact .inr (.inr ⟨outer, rfl, by simp⟩)
  case colon =>
    by_cases outermost : depth = 0
    · exact .inr (.inl (if_pos outermost))
    · exact .inr (.inr ⟨depth, if_neg outermost, by simp⟩)
  all_goals exact .inr (.inr ⟨_, rfl, by simp⟩)

/-- What stands where the colon should be is one of the tokens, if they hold an end of
file. -/
theorem mem_of_lambdaParameters {depth : Nat} {tokens : List Token} {found : Token}
    (stopped : lambdaParameters depth tokens = .error found)
    (ends : ∃ token ∈ tokens, token.kind = .endOfFile) : found ∈ tokens := by
  induction tokens generalizing depth with
  | nil => simp at ends
  | cons token rest inductionHypothesis =>
      rcases lambdaParameters_cons depth token rest with here | ended | ⟨next, counted, notEnd⟩
      · obtain rfl : token = found := Except.error.inj (here.symm.trans stopped)
        exact List.mem_cons_self
      · rw [ended] at stopped
        contradiction
      · have inRest : ∃ token ∈ rest, token.kind = .endOfFile := by
          obtain ⟨last, member, isEnd⟩ := ends
          rcases List.mem_cons.mp member with rfl | inRest
          · exact absurd isEnd notEnd
          · exact ⟨last, inRest, isEnd⟩
        rw [counted] at stopped
        cases inner : lambdaParameters next rest with
        | ok => simp [inner, Except.map] at stopped
        | error other =>
            obtain rfl : other = found := by simpa [inner, Except.map] using stopped
            exact List.mem_cons_of_mem token (inductionHypothesis inner inRest)

end Extent
end Transpiler
