import Transpiler.Proofs.Token.Brackets

/-!
Contract: colons that belong to lambdas.

Owns: the token kinds that stand outside brackets (`Brackets.outside`), and the number of lambdas
among token kinds that still wait for a colon (`Colons.after`).

Does not own: what else a colon may belong to.
-/

namespace Transpiler

/-! ### Tokens outside brackets -/

theorem TokenKind.opensBracket_of_closesBracket {kind : TokenKind}
    (closes : kind.closesBracket = true) : kind.opensBracket = false := by
  cases kind <;> first | rfl | contradiction

namespace Brackets

/-- The token kinds that stand outside brackets, with `depth` brackets open before the first one.
The brackets themselves are left out. -/
def outside : Nat → List TokenKind → List TokenKind
  | _, [] => []
  | depth, kind :: rest =>
      if kind.opensBracket then outside (depth + 1) rest
      else if kind.closesBracket then outside (depth - 1) rest
      else if depth = 0 then kind :: outside depth rest
      else outside depth rest

section

variable {matching : Bool} {kind opening closing : TokenKind} {stack next kinds : List TokenKind}

@[simp] theorem outside_nil (depth : Nat) : outside depth [] = [] := rfl

theorem outside_cons (stepped : step matching stack kind = some next) (rest : List TokenKind) :
    outside stack.length (kind :: rest) =
      outside stack.length [kind] ++ outside next.length rest := by
  rcases step_eq_some_iff.mp stepped with
    ⟨opens, rfl⟩ | ⟨noOpening, closes, opening, rfl, _⟩ | ⟨noOpening, noClosing, rfl⟩
  · simp [outside, opens]
  · simp [outside, noOpening, closes]
  · by_cases outermost : next = [] <;> simp [outside, noOpening, noClosing, outermost]

theorem outside_append (passed : after matching stack kinds = some next)
    (others : List TokenKind) :
    outside stack.length (kinds ++ others) =
      outside stack.length kinds ++ outside next.length others := by
  induction kinds generalizing stack with
  | nil =>
      obtain rfl := Option.some.inj passed
      rfl
  | cons kind rest inductionHypothesis =>
      obtain ⟨middle, stepped, further⟩ := Option.bind_eq_some_iff.mp passed
      rw [List.cons_append, outside_cons stepped (rest ++ others), outside_cons stepped rest,
        inductionHypothesis further, List.append_assoc]

/-- Nothing stands outside brackets while a bracket around it is open. -/
private theorem outside_enclosed (passed : after matching stack kinds = some next) :
    outside (stack.length + 1) kinds = [] := by
  induction kinds generalizing stack with
  | nil => rfl
  | cons kind rest inductionHypothesis =>
      obtain ⟨middle, stepped, further⟩ := Option.bind_eq_some_iff.mp passed
      have inner := inductionHypothesis further
      rcases step_eq_some_iff.mp stepped with
        ⟨opens, rfl⟩ | ⟨noOpening, closes, opening, rfl, _⟩ | ⟨noOpening, noClosing, rfl⟩
      · simpa [outside, opens] using inner
      · simpa [outside, noOpening, closes] using inner
      · simpa [outside, noOpening, noClosing] using inner

theorem outside_single (noOpening : kind.opensBracket = false)
    (noClosing : kind.closesBracket = false) (rest : List TokenKind) :
    outside 0 (kind :: rest) = kind :: outside 0 rest := by
  simp [outside, noOpening, noClosing]

namespace Balanced

theorem outside_append (balanced : Balanced matching kinds) (others : List TokenKind) :
    outside 0 (kinds ++ others) = outside 0 kinds ++ outside 0 others :=
  Brackets.outside_append balanced others

/-- Brackets with balanced contents leave nothing outside. -/
theorem outside_wrap (balanced : Balanced matching kinds) (opens : opening.opensBracket = true)
    (noOpening : closing.opensBracket = false) (closes : closing.closesBracket = true)
    (others : List TokenKind) :
    outside 0 (opening :: (kinds ++ closing :: others)) = outside 0 others := by
  have inner : outside 1 kinds = [] := outside_enclosed balanced
  have whole : outside 1 (kinds ++ closing :: others) =
      outside 1 kinds ++ outside 1 (closing :: others) :=
    Brackets.outside_append (balanced.keeps [opening]) (closing :: others)
  rw [outside, if_pos opens, Nat.zero_add, whole, inner, List.nil_append]
  simp [outside, noOpening, closes]

/-- Brackets that match by kind also match by number. -/
theorem counted (balanced : Balanced matching kinds) : Balanced false kinds := by
  have weaker : ∀ {stack next : List TokenKind} {kinds : List TokenKind},
      after matching stack kinds = some next → after false stack kinds = some next := by
    intro stack next kinds passed
    induction kinds generalizing stack with
    | nil => exact passed
    | cons kind rest inductionHypothesis =>
        obtain ⟨middle, stepped, further⟩ := Option.bind_eq_some_iff.mp passed
        have counts : step false stack kind = some middle := by
          rw [step_eq_some_iff] at stepped ⊢
          rcases stepped with opens | ⟨noOpening, closes, opening, shape, _⟩ | neither
          · exact .inl opens
          · exact .inr (.inl ⟨noOpening, closes, opening, shape, rfl⟩)
          · exact .inr (.inr neither)
        rw [after_cons, counts]
        exact inductionHypothesis further
  exact weaker balanced

end Balanced
end
end Brackets

/-! ### Lambdas that wait for their colon -/

namespace Colons

/-- The number of lambdas without a colon after one more token. A colon belongs to the last such
lambda, and has no place if there is none. -/
def step (waiting : Nat) (kind : TokenKind) : Option Nat :=
  if kind = .keyword "lambda" then some (waiting + 1)
  else if kind = .colon then if waiting = 0 then none else some (waiting - 1)
  else some waiting

/-- The number of lambdas without a colon after tokens of the given kinds. -/
def after (waiting : Nat) (kinds : List TokenKind) : Option Nat :=
  kinds.foldlM step waiting

/-- Every lambda outside brackets has a later colon as its own, and there is no other colon
outside brackets. -/
def Owned (kinds : List TokenKind) : Prop :=
  after 0 (Brackets.outside 0 kinds) = some 0

instance (kinds : List TokenKind) : Decidable (Owned kinds) :=
  inferInstanceAs (Decidable (_ = _))

variable {waiting next : Nat} {kind : TokenKind} {kinds : List TokenKind}

@[simp] theorem after_nil : after waiting [] = some waiting := rfl

theorem after_cons : after waiting (kind :: kinds) = (step waiting kind).bind (after · kinds) := rfl

theorem after_append (others : List TokenKind) :
    after waiting (kinds ++ others) = (after waiting kinds).bind (after · others) := by
  unfold after
  rw [List.foldlM_append]
  rfl

@[simp] theorem step_lambda : step waiting (.keyword "lambda") = some (waiting + 1) := rfl

@[simp] theorem step_colon : step (waiting + 1) .colon = some waiting := rfl

/-- Only a colon may have no place. -/
theorem exists_after (noColon : .colon ∉ kinds) : ∃ next, after waiting kinds = some next := by
  induction kinds generalizing waiting with
  | nil => exact ⟨waiting, rfl⟩
  | cons kind rest inductionHypothesis =>
      simp only [List.mem_cons, not_or] at noColon
      rw [after_cons, step, if_neg (Ne.symm noColon.1)]
      split <;> exact inductionHypothesis noColon.2

/-- Lambdas begin to wait, and colons end it. -/
private theorem count_of_after (passed : after waiting kinds = some next) :
    kinds.count (.keyword "lambda") + waiting = kinds.count .colon + next := by
  induction kinds generalizing waiting with
  | nil =>
      obtain rfl := Option.some.inj passed
      rfl
  | cons kind rest inductionHypothesis =>
      obtain ⟨middle, stepped, further⟩ := Option.bind_eq_some_iff.mp passed
      have others := inductionHypothesis further
      rw [List.count_cons, List.count_cons]
      unfold step at stepped
      grind

/-- Lambdas that were waiting before make no difference to tokens that need none of them. -/
theorem after_add (more : Nat) (passed : after waiting kinds = some next) :
    after (waiting + more) kinds = some (next + more) := by
  induction kinds generalizing waiting with
  | nil =>
      obtain rfl := Option.some.inj passed
      rfl
  | cons kind rest inductionHypothesis =>
      obtain ⟨middle, stepped, further⟩ := Option.bind_eq_some_iff.mp passed
      have shifted : step (waiting + more) kind = some (middle + more) := by
        unfold step at *
        grind
      rw [after_cons, shifted]
      exact inductionHypothesis further

/-- Without lambdas there are no colons. -/
theorem Owned.noColon_iff (owned : Owned kinds) :
    .colon ∉ Brackets.outside 0 kinds ↔ .keyword "lambda" ∉ Brackets.outside 0 kinds := by
  have counts := count_of_after owned
  rw [← List.count_eq_zero, ← List.count_eq_zero]
  omega

end Colons

end Transpiler
