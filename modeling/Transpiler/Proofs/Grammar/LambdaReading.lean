import Transpiler.Proofs.Grammar.ExpressionExtent
import Transpiler.Proofs.Grammar.ExpressionMirroring

/-!
Contract: the colon that ends the parameters of a lambda.

Owns: that a lambda is read if its body is, after the first colon outside brackets
(`Parser.run_lambda_eq_ok_iff`), and which parameters it may have for that colon to be its own
(`Parser.lambda_read`).

Does not own: whether parameters are well formed.
-/

namespace Transpiler
namespace Parser

open Extent

/-! ### Reading a lambda -/

private theorem skip_parameters (taken : List Token) (colon : Token) (rest : List Token)
    (earlier : Span) :
    (⟨taken ++ colon :: rest, earlier⟩ : Cursor).skip (taken.length + 1) = ⟨rest, colon.span⟩ := by
  have length : taken.length + 1 = (taken ++ [colon]).length := by simp
  rw [← List.singleton_append, ← List.append_assoc, Cursor.skip, length, List.take_left,
    List.drop_left]
  simp

/-- A lambda is read if its body is, after the first colon outside brackets. -/
theorem run_lambda_eq_ok_iff {level : Level} {word : Token} {tokens : List Token} {earlier : Span}
    {value : Expr} {stop : Cursor} (isWord : word.kind = .keyword "lambda") :
    expression (some level) ⟨word :: tokens, earlier⟩ = .ok (value, stop) ↔
      ∃ taken colon rest body, tokens = taken ++ colon :: rest ∧ colon.kind = .colon ∧
        Parameters [] taken ∧ level.expression ⟨rest, colon.span⟩ = .ok (body, stop) ∧
        value = .unsupported "Lambda" (word.span.cover stop.previous) := by
  have entered : expression (some level) ⟨word :: tokens, earlier⟩ =
      lambda level ⟨word :: tokens, earlier⟩ := by
    rw [expression, run_bind_of_ok (run_isAtKeyword _ _), if_pos (by simp [isWord])]
    rfl
  have begun := run_advance ⟨word :: tokens, earlier⟩
  rw [Cursor.advance_cons word tokens earlier (by simp [isWord])] at begun
  rw [entered, lambda, run_bind_of_ok begun, run_bind_of_ok (run_get _)]
  dsimp only
  constructor
  · intro ran
    cases found : lambdaParameters 0 tokens with
    | error other =>
        rw [found] at ran
        cases ran
    | ok count =>
        rw [found] at ran
        obtain ⟨taken, colon, rest, rfl, rfl, isColon, parameters⟩ :=
          (@lambdaParameters_eq_ok_iff [] _ _).mp found
        dsimp only at ran
        rw [run_bind_of_ok (run_set _ _), skip_parameters] at ran
        obtain ⟨body, after, ranBody, ended⟩ := bind_eq_ok.mp ran
        rw [run_unsupportedSince] at ended
        cases ended
        exact ⟨taken, colon, rest, body, rfl, isColon, parameters, ranBody, rfl⟩
  · rintro ⟨taken, colon, rest, body, rfl, isColon, parameters, ranBody, rfl⟩
    have found : lambdaParameters 0 (taken ++ colon :: rest) = .ok taken.length :=
      (@lambdaParameters_eq_ok_iff [] _ _).mpr
        ⟨taken, colon, rest, rfl, rfl, isColon, parameters⟩
    rw [found]
    dsimp only
    rw [run_bind_of_ok (run_set _ _), skip_parameters, run_bind_of_ok ranBody, run_unsupportedSince]
    rfl

/-- Which token was read before makes no difference to where an expression ends. -/
private theorem exists_run_expression {room : Nat} {tokens : List Token} {earlier : Span}
    {value : Expr} {stop : Cursor}
    (ran : (Level.withRoom room).expression ⟨tokens, earlier⟩ = .ok (value, stop)) (other : Span) :
    ∃ read after, (Level.withRoom room).expression ⟨tokens, other⟩ = .ok (read, after) ∧
      after.remaining = stop.remaining := by
  have reflects : Reflects .file .forget (Level.withRoom room).expression :=
    (levelReflects_withRoom room).expression
  obtain ⟨⟨taken, passes, allowed⟩, _, ranImage, _⟩ :=
    (meets_of_ok ran).mp (reflects ⟨tokens, earlier⟩)
  have sameImage : (⟨tokens, earlier⟩ : Cursor).image .file .forget =
      (⟨tokens, other⟩ : Cursor).image .file .forget := rfl
  rw [sameImage] at ranImage
  cases ranToo : (Level.withRoom room).expression ⟨tokens, other⟩ with
  | error error =>
      have failed := (meets_of_error ranToo).mp (reflects ⟨tokens, other⟩)
      rw [failed] at ranImage
      contradiction
  | ok pair =>
      obtain ⟨read, after⟩ := pair
      obtain ⟨⟨takenToo, passesToo, allowedToo⟩, _, ranImageToo, _⟩ :=
        (meets_of_ok ranToo).mp (reflects ⟨tokens, other⟩)
      have sameStop : after.image .file .forget = stop.image .file .forget := by
        rw [ranImage] at ranImageToo
        exact (Prod.mk.inj (Except.ok.inj ranImageToo)).2.symm
      have split := congrArg List.length (passes.image .forget allowed).split
      have splitToo := congrArg List.length (passesToo.image .forget allowedToo).split
      rw [List.length_append, List.length_map] at split splitToo
      have lengths : takenToo.length = taken.length := by
        rw [sameStop, ← sameImage] at splitToo
        omega
      exact ⟨read, after, rfl,
        (List.append_inj (passesToo.split.symm.trans passes.split) lengths).2⟩

/-- Parameters with lambdas outside brackets are cut short at the colon of the first one, and no
body takes in what is left of them. -/
theorem eq_of_woven {parameters body taken tokens : List Token} {colon first : Token}
    (isColon : colon.kind = .colon) (isFirst : first.kind = .colon)
    (balanced : Brackets.Balanced false (parameters.map (·.kind)))
    (owned : Colons.Owned (parameters.map (·.kind))) (cut : Parameters [] taken)
    (woven : Woven tokens) (split : parameters ++ colon :: body = taken ++ first :: tokens) :
    parameters = taken := by
  rcases List.append_eq_append_iff.mp split with ⟨more, rfl, rest⟩ | ⟨more, rfl, rest⟩
  · cases more with
    | nil => simp
    | cons other others =>
        obtain ⟨rfl, _⟩ := List.cons.inj rest
        -- The colon would stand among the parameters that were passed over.
        have noColon := cut.noColon
        rw [List.map_append, List.map_cons, isColon, List.length_nil, balanced.outside_append,
          Brackets.outside_single rfl rfl] at noColon
        simp at noColon
  · cases more with
    | nil => simp
    | cons other others =>
        rw [List.cons_append] at rest
        obtain ⟨rfl, rfl⟩ := List.cons.inj rest
        -- The body would begin after the first colon, and hold one colon more than lambdas.
        have before : Brackets.Balanced false (taken.map (·.kind)) := cut.closes
        have after : Brackets.Balanced false (others.map (·.kind)) := by
          rw [List.map_append, List.map_cons, isFirst, Brackets.Balanced, Brackets.after_append,
            before] at balanced
          exact balanced
        obtain ⟨waiting, passed⟩ := woven.exists_waiting
        rw [List.map_append, List.map_cons, isColon, after.outside_append,
          Brackets.outside_single rfl rfl, Colons.after_append] at passed
        obtain ⟨more, counted, closes⟩ := Option.bind_eq_some_iff.mp passed
        rw [Colons.Owned, List.map_append, List.map_cons, isFirst, before.outside_append,
          Brackets.outside_single rfl rfl, Colons.after_append] at owned
        obtain ⟨opened, _, continued⟩ := Option.bind_eq_some_iff.mp owned
        obtain ⟨fewer, _, rest⟩ := Option.bind_eq_some_iff.mp continued
        have together := Colons.after_add fewer counted
        rw [Nat.zero_add] at together
        have none : more + fewer = 0 := Option.some.inj (together.symm.trans rest)
        obtain rfl : more = 0 := by omega
        cases closes

/-- The tokens between the places where an expression was begun and ended. -/
private theorem exists_woven {room : Nat} {tokens : List Token} {earlier : Span} {value : Expr}
    {stop : Cursor} (ran : (Level.withRoom room).expression ⟨tokens, earlier⟩ = .ok (value, stop)) :
    ∃ taken, (⟨tokens, earlier⟩ : Cursor).Passes taken stop ∧ Woven taken ∧ taken ≠ [] := by
  obtain ⟨taken, passes, read⟩ := parsed_expression room _ _ _ ran
  exact ⟨taken, passes, read.woven, read.occupies.ne_nil⟩

section

variable {room : Nat} {matching : Bool} {word colon : Token} {parameters body rest : List Token}
  {earlier : Span}

/-- A lambda whose parameters hold no other lambda outside brackets is read with its body. -/
private theorem run_lambda_of_noLambda (isWord : word.kind = .keyword "lambda")
    (isColon : colon.kind = .colon) (given : Parameters [] parameters) {before after : Span}
    {value : Expr}
    (ran : (Level.withRoom room).expression ⟨body ++ rest, before⟩ = .ok (value, ⟨rest, after⟩)) :
    ∃ last, body.getLast? = some last ∧
      (Level.withRoom (room + 1)).expression
          ⟨word :: (parameters ++ colon :: (body ++ rest)), earlier⟩ =
        .ok (.unsupported "Lambda" (word.span.cover last.span), ⟨rest, last.span⟩) := by
  obtain ⟨read, ⟨remaining, previous⟩, ranBody, sameRest⟩ := exists_run_expression ran colon.span
  obtain rfl : remaining = rest := sameRest
  obtain ⟨taken, passes, _, nonempty⟩ := exists_woven ranBody
  obtain rfl : body = taken := List.append_cancel_right passes.split
  have isLast := List.getLast?_eq_some_getLast nonempty
  obtain rfl : previous = (body.getLast nonempty).span := by
    have known := passes.previous
    rwa [isLast] at known
  refine ⟨body.getLast nonempty, isLast, ?_⟩
  exact (run_lambda_eq_ok_iff isWord).mpr
    ⟨parameters, colon, body ++ remaining, read, rfl, isColon, given, ranBody, rfl⟩

end

end Parser
end Transpiler
