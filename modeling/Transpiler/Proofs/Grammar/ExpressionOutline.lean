import Transpiler.Proofs.Grammar.Unread
import Transpiler.Proofs.Token.LambdaColons

/-!
Contract: what an expression is made of outside brackets.

Owns: where the parameters of a lambda end (`Extent.lambdaParameters_eq_ok_iff`), and the outline of
an expression, with brackets and the parameters of lambdas left unread (`Extent.Woven`), in which no
colon is without a lambda.

Does not own: that the expression rules read tokens with such an outline.
-/

namespace Transpiler

/-! ### Parameters of a lambda -/

namespace Extent

/-- How the parameters of a lambda are counted from a token on. -/
private theorem lambdaParameters_cons_eq_ok {stack : List TokenKind} {token : Token}
    {rest : List Token} {count : Nat} :
    lambdaParameters stack.length (token :: rest) = .ok count ↔
      token.kind = .colon ∧ stack = [] ∧ count = 0 ∨
      ¬ (token.kind = .colon ∧ stack = []) ∧ Parser.endsLine token.kind = false ∧
        ∃ next inner, Brackets.step false stack token.kind = some next ∧
          lambdaParameters next.length rest = .ok inner ∧ count = inner + 1 := by
  have counted : ∀ {outcome : Except Token Nat},
      outcome.map (· + 1) = .ok count ↔ ∃ inner, outcome = .ok inner ∧ count = inner + 1 := by
    intro outcome
    cases outcome <;> simp [Except.map, eq_comm]
  rw [lambdaParameters.eq_def]
  dsimp only
  cases isKind : token.kind
  case newline | endOfFile => simp [Parser.endsLine]
  case leftParen | leftBracket | leftBrace =>
    simp [counted, Parser.endsLine, Brackets.step, TokenKind.opensBracket]
  case rightParen | rightBracket | rightBrace =>
    cases stack with
    | nil => simp [Brackets.step, TokenKind.opensBracket, TokenKind.closesBracket]
    | cons opening outer =>
        simp [counted, Parser.endsLine, Brackets.step, Brackets.pairs, TokenKind.opensBracket,
          TokenKind.closesBracket]
  case colon =>
    cases stack with
    | nil => simp [@eq_comm _ 0 count]
    | cons opening outer =>
        simp [counted, Parser.endsLine, Brackets.step, TokenKind.opensBracket,
          TokenKind.closesBracket]
  all_goals
    simp [counted, Parser.endsLine, Brackets.step, TokenKind.opensBracket, TokenKind.closesBracket]

/-- Tokens that may stand for parameters, with the brackets in `stack` open before them: they stay
on their line, close all brackets, and have no colon outside brackets. -/
structure Parameters (stack : List TokenKind) (tokens : List Token) : Prop where
  closes : Brackets.after false stack (tokens.map (·.kind)) = some []
  inLine : ∀ token ∈ tokens, Parser.endsLine token.kind = false
  noColon : .colon ∉ Brackets.outside stack.length (tokens.map (·.kind))

namespace Parameters

variable {stack : List TokenKind} {token : Token} {tokens : List Token}

theorem nil_iff : Parameters stack [] ↔ stack = [] := by
  constructor
  · intro parameters
    exact Option.some.inj parameters.closes
  · rintro rfl
    exact ⟨rfl, by simp, by simp⟩

theorem cons_iff :
    Parameters stack (token :: tokens) ↔
      ¬ (token.kind = .colon ∧ stack = []) ∧ Parser.endsLine token.kind = false ∧
        ∃ next, Brackets.step false stack token.kind = some next ∧ Parameters next tokens := by
  have here : .colon ∈ Brackets.outside stack.length [token.kind] ↔
      token.kind = .colon ∧ stack = [] := by
    cases isKind : token.kind <;> by_cases outermost : stack = [] <;>
      simp [Brackets.outside, TokenKind.opensBracket, TokenKind.closesBracket, outermost]
  constructor
  · rintro ⟨closes, inLine, noColon⟩
    obtain ⟨next, stepped, further⟩ := Option.bind_eq_some_iff.mp closes
    rw [List.map_cons, Brackets.outside_cons stepped, List.mem_append, not_or, here] at noColon
    refine ⟨noColon.1, inLine token List.mem_cons_self, next, stepped, further, ?_, noColon.2⟩
    intro other member
    exact inLine other (List.mem_cons_of_mem token member)
  · rintro ⟨notHere, goesOn, next, stepped, closes, inLine, noColon⟩
    refine ⟨?_, ?_, ?_⟩
    · rw [List.map_cons, Brackets.after_cons, stepped]
      exact closes
    · simpa [goesOn] using inLine
    · rw [List.map_cons, Brackets.outside_cons stepped, List.mem_append, not_or, here]
      exact ⟨notHere, noColon⟩

theorem closed (parameters : Parameters [] tokens) : Closed false tokens :=
  ⟨parameters.closes, parameters.inLine⟩

/-- The parameters of a lambda are passed over together with the colon after them. -/
theorem passes {cursor : Cursor} {colon : Token} {rest : List Token}
    (parameters : Parameters [] tokens) (shape : cursor.remaining = tokens ++ colon :: rest)
    (isColon : colon.kind = .colon) :
    cursor.Passes (tokens ++ [colon]) (cursor.skip (tokens.length + 1)) := by
  have length : tokens.length + 1 = (tokens ++ [colon]).length := by simp
  rw [length]
  refine .skip_of_isPrefix ⟨rest, by simpa using shape.symm⟩ ?_
  intro token member isEnd
  rcases List.mem_append.mp member with inTokens | isLast
  · have goesOn := parameters.inLine token inTokens
    rw [isEnd] at goesOn
    contradiction
  · rw [List.mem_singleton.mp isLast, isColon] at isEnd
    contradiction

end Parameters

/-- The parameters of a lambda reach up to the first colon outside brackets. -/
theorem lambdaParameters_eq_ok_iff {stack : List TokenKind} {tokens : List Token} {count : Nat} :
    lambdaParameters stack.length tokens = .ok count ↔
      ∃ taken colon rest, tokens = taken ++ colon :: rest ∧ count = taken.length ∧
        colon.kind = .colon ∧ Parameters stack taken := by
  induction tokens generalizing stack count with
  | nil => simp [lambdaParameters]
  | cons token tokens inductionHypothesis =>
      rw [lambdaParameters_cons_eq_ok]
      constructor
      · rintro (⟨isColon, outermost, rfl⟩ | ⟨notHere, goesOn, next, inner, stepped, found, rfl⟩)
        · exact ⟨[], token, tokens, rfl, rfl, isColon, Parameters.nil_iff.mpr outermost⟩
        · obtain ⟨taken, colon, rest, rfl, rfl, isColon, parameters⟩ := inductionHypothesis.mp found
          exact ⟨token :: taken, colon, rest, rfl, rfl, isColon,
            Parameters.cons_iff.mpr ⟨notHere, goesOn, next, stepped, parameters⟩⟩
      · rintro ⟨taken, colon, rest, split, rfl, isColon, parameters⟩
        cases taken with
        | nil =>
            obtain ⟨rfl, rfl⟩ := List.cons.inj split
            exact .inl ⟨isColon, Parameters.nil_iff.mp parameters, rfl⟩
        | cons first others =>
            obtain ⟨rfl, rfl⟩ := List.cons.inj split
            obtain ⟨notHere, goesOn, next, stepped, further⟩ := Parameters.cons_iff.mp parameters
            exact .inr ⟨notHere, goesOn, next, others.length, stepped,
              inductionHypothesis.mpr ⟨others, colon, rest, rfl, rfl, isColon, further⟩, rfl⟩

/-! ### What an expression is made of -/

/-- What the tokens of an expression are outside brackets: plain tokens other than colons, brackets
with their contents, and lambdas, each with its parameters and its own colon. -/
inductive Woven : List Token → Prop where
  | none : Woven []
  | plain {token : Token} {rest : List Token} (isPlain : token.kind.isPlain = true)
      (notColon : token.kind ≠ .colon) (others : Woven rest) : Woven (token :: rest)
  | bracketed {opened closed : Token} {inner rest : List Token}
      (opens : opened.kind.opensBracket = true) (contents : Closed false inner)
      (closes : closed.kind.closesBracket = true) (others : Woven rest) :
      Woven (opened :: (inner ++ closed :: rest))
  | lambda {word colon : Token} {taken body : List Token} (isWord : word.kind = .keyword "lambda")
      (parameters : Parameters [] taken) (isColon : colon.kind = .colon) (others : Woven body) :
      Woven (word :: (taken ++ colon :: body))

namespace Woven

variable {tokens others : List Token}

theorem append (first : Woven tokens) (second : Woven others) : Woven (tokens ++ others) := by
  induction first with
  | none => exact second
  | plain isPlain notColon _ inductionHypothesis =>
      exact .plain isPlain notColon inductionHypothesis
  | bracketed opens contents closes _ inductionHypothesis =>
      rw [List.cons_append, List.append_assoc, List.cons_append]
      exact .bracketed opens contents closes inductionHypothesis
  | lambda isWord parameters isColon _ inductionHypothesis =>
      rw [List.cons_append, List.append_assoc, List.cons_append]
      exact .lambda isWord parameters isColon inductionHypothesis

theorem closed (woven : Woven tokens) : Closed false tokens := by
  induction woven with
  | none => exact .nil
  | plain isPlain _ _ inductionHypothesis => exact .cons isPlain inductionHypothesis
  | bracketed opens contents closes _ inductionHypothesis =>
      simpa using (contents.wrap opens closes rfl).append inductionHypothesis
  | lambda isWord parameters isColon _ inductionHypothesis =>
      exact .cons (by rw [isWord]; rfl)
        (parameters.closed.append (.cons (by rw [isColon]; rfl) inductionHypothesis))

theorem allPlain (all : ∀ token ∈ tokens, token.kind.isPlain = true ∧ token.kind ≠ .colon) :
    Woven tokens := by
  induction tokens with
  | nil => exact .none
  | cons first rest inductionHypothesis =>
      obtain ⟨isPlain, notColon⟩ := all first List.mem_cons_self
      refine .plain isPlain notColon (inductionHypothesis ?_)
      intro token member
      exact all token (List.mem_cons_of_mem first member)

private theorem outside_plain {token : Token} (isPlain : token.kind.isPlain = true)
    (rest : List TokenKind) :
    Brackets.outside 0 (token.kind :: rest) = token.kind :: Brackets.outside 0 rest := by
  simp only [TokenKind.isPlain, Bool.and_eq_true, Bool.not_eq_true'] at isPlain
  exact Brackets.outside_single isPlain.1.1 isPlain.1.2 rest

/-- Outside brackets, no colon of an expression comes before a lambda that it can belong to. -/
theorem exists_waiting (woven : Woven tokens) :
    ∃ waiting, Colons.after 0 (Brackets.outside 0 (tokens.map (·.kind))) = some waiting := by
  induction woven with
  | none => exact ⟨0, rfl⟩
  | @plain token rest isPlain notColon _ inductionHypothesis =>
      obtain ⟨waiting, passed⟩ := inductionHypothesis
      obtain ⟨more, stepped⟩ := @Colons.exists_after 0 [token.kind] (by simpa using notColon.symm)
      rw [List.map_cons, outside_plain isPlain, ← List.singleton_append, Colons.after_append,
        stepped]
      exact ⟨_, by simpa using Colons.after_add more passed⟩
  | bracketed opens contents closes _ inductionHypothesis =>
      rw [List.map_cons, List.map_append, List.map_cons, contents.balanced.outside_wrap opens
        (TokenKind.opensBracket_of_closesBracket closes) closes]
      exact inductionHypothesis
  | @lambda word colon taken body isWord parameters isColon _ inductionHypothesis =>
      have noColon : .colon ∉ Brackets.outside 0 (taken.map (·.kind)) := parameters.noColon
      obtain ⟨waiting, passed⟩ := inductionHypothesis
      obtain ⟨more, counted⟩ := @Colons.exists_after 0 _ noColon
      refine ⟨waiting + more, ?_⟩
      rw [List.map_cons, List.map_append, List.map_cons, isWord, isColon,
        Brackets.outside_single rfl rfl, parameters.closed.balanced.outside_append,
        Brackets.outside_single rfl rfl, Colons.after_cons, Colons.step_lambda, Option.bind_some,
        Colons.after_append, Colons.after_add 1 counted, Option.bind_some, Colons.after_cons,
        Colons.step_colon, Option.bind_some]
      simpa using Colons.after_add more passed

end Woven
end Extent
end Transpiler
