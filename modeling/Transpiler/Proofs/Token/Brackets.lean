import Transpiler.Proofs.Token.Coverage

/-!
Contract: brackets that close.

Owns: the brackets that are open after some tokens, as a stack, and the token kinds that
leave every stack as they found it. Brackets can be matched by kind, or only counted.

Does not own: which tokens stand between brackets.
-/

namespace Transpiler

/-! ### The stack of open brackets -/

/-- The bracket that closes an opening one. -/
def TokenKind.closer? : TokenKind → Option TokenKind
  | .leftParen => some .rightParen
  | .leftBracket => some .rightBracket
  | .leftBrace => some .rightBrace
  | _ => none

namespace Brackets

/-- Whether an opening and a closing bracket form a pair. Unless brackets are matched by
kind, any two do. -/
def pairs (matching : Bool) (opening closing : TokenKind) : Bool :=
  !matching || opening.closer? == some closing

/-- The open brackets after one more token, innermost first. A closing bracket that closes
none of them has no place. -/
def step (matching : Bool) (stack : List TokenKind) (kind : TokenKind) :
    Option (List TokenKind) :=
  if kind.opensBracket then some (kind :: stack)
  else if kind.closesBracket then
    match stack with
    | [] => none
    | opening :: rest => if pairs matching opening kind then some rest else none
  else some stack

/-- The open brackets after tokens of the given kinds. -/
def after (matching : Bool) (stack kinds : List TokenKind) : Option (List TokenKind) :=
  kinds.foldlM (step matching) stack

/-- Token kinds that open and close their own brackets and no others. -/
def Balanced (matching : Bool) (kinds : List TokenKind) : Prop :=
  after matching [] kinds = some []

instance (matching : Bool) (kinds : List TokenKind) : Decidable (Balanced matching kinds) :=
  inferInstanceAs (Decidable (_ = _))

section

variable {matching : Bool} {kind : TokenKind} {stack next : List TokenKind}

@[simp] theorem after_nil : after matching stack [] = some stack := rfl

@[simp] theorem after_cons (kinds : List TokenKind) :
    after matching stack (kind :: kinds) =
      (step matching stack kind).bind (after matching · kinds) := rfl

theorem after_append (first second : List TokenKind) :
    after matching stack (first ++ second) =
      (after matching stack first).bind (after matching · second) := by
  unfold after
  rw [List.foldlM_append]
  rfl

/-- What a token may do: open a bracket, close the innermost one, or neither. -/
theorem step_eq_some_iff :
    step matching stack kind = some next ↔
      kind.opensBracket = true ∧ next = kind :: stack ∨
      kind.opensBracket = false ∧ kind.closesBracket = true ∧
        (∃ opening, stack = opening :: next ∧ pairs matching opening kind = true) ∨
      kind.opensBracket = false ∧ kind.closesBracket = false ∧ next = stack := by
  unfold step
  cases kind.opensBracket with
  | true => simp [@eq_comm _ _ next]
  | false =>
      cases kind.closesBracket with
      | false => simp [@eq_comm _ _ next]
      | true =>
          cases stack with
          | nil => simp
          | cons opening rest => by_cases fits : pairs matching opening kind = true <;> simp [fits]

/-- Brackets further out make no difference to a step that goes well without them. -/
private theorem step_append (outer : List TokenKind)
    (stepped : step matching stack kind = some next) :
    step matching (stack ++ outer) kind = some (next ++ outer) := by
  rw [step_eq_some_iff] at stepped ⊢
  rcases stepped with ⟨opens, rfl⟩ | ⟨noOpening, closes, opening, rfl, fits⟩ | ⟨no, none, rfl⟩
  · exact .inl ⟨opens, rfl⟩
  · exact .inr (.inl ⟨noOpening, closes, opening, rfl, fits⟩)
  · exact .inr (.inr ⟨no, none, rfl⟩)

private theorem after_append_stack (outer : List TokenKind) {kinds : List TokenKind}
    (passed : after matching stack kinds = some next) :
    after matching (stack ++ outer) kinds = some (next ++ outer) := by
  induction kinds generalizing stack with
  | nil =>
      obtain rfl := Option.some.inj passed
      rfl
  | cons kind rest inductionHypothesis =>
      rw [after_cons] at passed ⊢
      obtain ⟨middle, stepped, further⟩ := Option.bind_eq_some_iff.mp passed
      rw [step_append outer stepped]
      exact inductionHypothesis further

/-- A token opens or closes one bracket at most. -/
private theorem length_of_step (stepped : step matching stack kind = some next) :
    (if kind.opensBracket then 1 else 0) + stack.length =
      (if kind.closesBracket then 1 else 0) + next.length := by
  rw [step_eq_some_iff] at stepped
  rcases stepped with ⟨opens, rfl⟩ | ⟨noOpening, closes, opening, rfl, _⟩ | ⟨no, none, rfl⟩
  · simp [opens, TokenKind.closesBracket_of_opensBracket opens, Nat.add_comm]
  · simp [noOpening, closes, Nat.add_comm]
  · simp [no, none]

/-- Opening brackets go onto the stack and closing ones come from it. -/
private theorem length_of_after {kinds : List TokenKind}
    (passed : after matching stack kinds = some next) :
    kinds.countP (·.opensBracket) + stack.length =
      kinds.countP (·.closesBracket) + next.length := by
  induction kinds generalizing stack with
  | nil =>
      obtain rfl := Option.some.inj passed
      rfl
  | cons kind rest inductionHypothesis =>
      obtain ⟨middle, stepped, further⟩ := Option.bind_eq_some_iff.mp passed
      have here := length_of_step stepped
      have others := inductionHypothesis further
      rw [List.countP_cons, List.countP_cons]
      omega

end

/-! ### Balanced tokens -/

namespace Balanced

variable {matching : Bool} {kinds others : List TokenKind} {kind opening closing : TokenKind}

theorem nil : Balanced matching [] := rfl

theorem append (first : Balanced matching kinds) (second : Balanced matching others) :
    Balanced matching (kinds ++ others) := by
  unfold Balanced at *
  rw [after_append, first]
  exact second

theorem single (noOpening : kind.opensBracket = false) (noClosing : kind.closesBracket = false) :
    Balanced matching [kind] := by
  simp [Balanced, step, noOpening, noClosing]

/-- Balanced tokens leave the brackets around them open. -/
theorem keeps (balanced : Balanced matching kinds) (stack : List TokenKind) :
    after matching stack kinds = some stack :=
  after_append_stack stack balanced

theorem wrap (opens : opening.opensBracket = true) (noOpening : closing.opensBracket = false)
    (closes : closing.closesBracket = true) (fits : pairs matching opening closing = true)
    (inner : Balanced matching kinds) : Balanced matching (opening :: (kinds ++ [closing])) := by
  have opened : step matching [] opening = some [opening] :=
    step_eq_some_iff.mpr (.inl ⟨opens, rfl⟩)
  have closed : step matching [opening] closing = some [] :=
    step_eq_some_iff.mpr (.inr (.inl ⟨noOpening, closes, opening, rfl, fits⟩))
  rw [Balanced, after_cons, opened, Option.bind_some, after_append, inner.keeps [opening],
    Option.bind_some, after_cons, closed]
  rfl

/-- As many brackets are closed as are opened. -/
theorem countP_eq (balanced : Balanced matching kinds) :
    kinds.countP (·.opensBracket) = kinds.countP (·.closesBracket) := by
  simpa using length_of_after balanced

/-- No beginning closes more brackets than it opens. -/
theorem countP_le (balanced : Balanced matching kinds) {front : List TokenKind}
    (isFront : front <+: kinds) :
    front.countP (·.closesBracket) ≤ front.countP (·.opensBracket) := by
  obtain ⟨rest, rfl⟩ := isFront
  rw [Balanced, after_append] at balanced
  obtain ⟨middle, passed, _⟩ := Option.bind_eq_some_iff.mp balanced
  have counted := length_of_after passed
  simp only [List.length_nil, Nat.add_zero] at counted
  omega

end Balanced
end Brackets
end Transpiler
