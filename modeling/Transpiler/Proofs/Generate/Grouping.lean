import Transpiler.Generate.Cpp
import Transpiler.Proofs.Grammar.Completeness
import Transpiler.Proofs.Grammar.Soundness
import Transpiler.Proofs.Syntax.Arithmetic

/-!
Contract: which generated expressions still group as their trees do.

Owns: the tokens of the text of an arithmetic expression, and that this text is read
back as the tree it was generated from, with powers as calls, exactly when no operator
of a sum or product has a looser chain on its left or an equal or looser one on its
right.

Both directions go through the grammar. A tree that keeps its grouping has a derivation
without parentheses. Conversely, the text has no tokens to spare: a derivation of the
tree needs at least as many tokens as the text has, and more as soon as something is
put in parentheses, so a derivation of the text itself has none.
-/

namespace Transpiler
namespace Expr

/-! ### The tokens of a flat tree -/

mutual

/-- The token kinds of the tree, without any parentheses but those of calls. -/
def flatKinds : Expr → List TokenKind
  | .binary left operator right _ => left.flatKinds ++ operator.sign :: right.flatKinds
  | .call callee arguments _ =>
      callee.flatKinds ++ .leftParen ::
        ([TokenKind.comma].intercalate (allFlatKinds arguments) ++ [.rightParen])
  | .constant value _ => value.token?.toList
  | .name identifier _ => [.ident identifier]
  | .unary .. | .member .. | .list .. | .tuple .. | .unsupported .. => []

def allFlatKinds : List Expr → List (List TokenKind)
  | [] => []
  | first :: rest => first.flatKinds :: allFlatKinds rest

end

@[simp] theorem allFlatKinds_eq_map (expressions : List Expr) :
    allFlatKinds expressions = expressions.map flatKinds := by
  induction expressions with
  | nil => rfl
  | cons first rest inductionHypothesis =>
      rw [allFlatKinds, inductionHypothesis, List.map_cons]

private theorem not_mem_intercalate {kind separator : TokenKind} {parts : List (List TokenKind)}
    (differs : kind ≠ separator) (outside : ∀ part ∈ parts, kind ∉ part) :
    kind ∉ [separator].intercalate parts := by
  induction parts with
  | nil => simp
  | cons first rest inductionHypothesis =>
      have later := inductionHypothesis fun part member => outside part (by simp [member])
      cases rest with
      | nil => simpa using outside first (by simp)
      | cons second more =>
          simp [List.intercalate_cons_cons, outside first (by simp), differs, later]

/-- No token of a flat tree ends the source. -/
theorem Flat.endOfFile_not_mem {expr : Expr} (flat : expr.Flat) :
    TokenKind.endOfFile ∉ expr.flatKinds := by
  induction flat with
  | name => simp [flatKinds]
  | int => simp [flatKinds, Constant.token?]
  | @binary left right operator span _ _ _ leftEnds rightEnds =>
      have signDiffers : operator.sign ≠ .endOfFile := by cases operator <;> simp [BinaryOp.sign]
      simp [flatKinds, leftEnds, rightEnds, signDiffers.symm]
  | @call callee arguments nameSpan span _ _ allEnd =>
      have items : TokenKind.endOfFile ∉
          [TokenKind.comma].intercalate (arguments.map flatKinds) := by
        apply not_mem_intercalate (by simp)
        intro part member
        obtain ⟨argument, inArguments, rfl⟩ := List.mem_map.mp member
        exact allEnd argument inArguments
      simp [flatKinds, items]

end Expr

/-! ### From trees to tokens -/

namespace Cpp

/-- An operator of sums or products is written as its sign between blanks. -/
private theorem operation?_of_sign {operator : BinaryOp}
    (listed : operator ∈ [BinaryOp.add, .sub, .mult, .div]) (left right : String) :
    ∃ mark text, (mark, operator.sign) ∈ Lexeme.signs ∧
      operation? operator left right = some text ∧
      text.toList = left.toList ++ ' ' :: mark :: ' ' :: right.toList := by
  simp only [List.mem_cons, List.not_mem_nil, or_false] at listed
  rcases listed with rfl | rfl | rfl | rfl
  · exact ⟨'+', _, by decide, rfl, by simp [BinaryOp.symbol]⟩
  · exact ⟨'-', _, by decide, rfl, by simp [BinaryOp.symbol]⟩
  · exact ⟨'*', _, by decide, rfl, by simp [BinaryOp.symbol]⟩
  · exact ⟨'/', _, by decide, rfl, by simp [BinaryOp.symbol]⟩

private theorem expressions_spell {context : Context} {arguments : List Expr}
    (all : ∀ argument ∈ arguments, ∃ text, expression context argument = .ok text ∧
      Lexeme.Spells text.toList argument.flatKinds) :
    ∃ texts, expressions context arguments = .ok texts ∧
      List.Forall₂ Lexeme.Spells (texts.map String.toList) (arguments.map Expr.flatKinds) := by
  induction arguments with
  | nil => exact ⟨[], rfl, .nil⟩
  | cons first rest inductionHypothesis =>
      obtain ⟨text, generated, spells⟩ := all first (by simp)
      obtain ⟨texts, othersGenerated, othersSpell⟩ :=
        inductionHypothesis fun argument member => all argument (by simp [member])
      refine ⟨text :: texts, ?_, .cons spells othersSpell⟩
      rw [expressions, generated, othersGenerated]
      rfl

/-- The text of a flat tree spells its tokens. -/
private theorem expression_spells {expr : Expr} (flat : expr.Flat) (context : Context) :
    ∃ text, expression context expr = .ok text ∧ Lexeme.Spells text.toList expr.flatKinds := by
  induction flat with
  | @name identifier span reads =>
      obtain ⟨isWord, isIdent⟩ := reads.isWord
      have spells := Lexeme.Spells.word isWord
      rw [String.ofList_toList, isIdent] at spells
      exact ⟨identifier, rfl, spells⟩
  | @int value span nonnegative fits =>
      obtain ⟨number, rfl⟩ := Int.eq_ofNat_of_zero_le nonnegative
      have spells : Lexeme.Spells (Nat.toDigits 10 number) [.int number] :=
        .integer (by omega)
      refine ⟨toString number, rfl, ?_⟩
      rw [Nat.toString_eq_ofList_toDigits, String.toList_ofList]
      exact spells
  | @binary left right operator span listed _ _ leftHypothesis rightHypothesis =>
      obtain ⟨leftText, leftGenerated, leftSpells⟩ := leftHypothesis
      obtain ⟨rightText, rightGenerated, rightSpells⟩ := rightHypothesis
      obtain ⟨mark, text, isSign, generated, shape⟩ :=
        operation?_of_sign listed leftText rightText
      refine ⟨text, ?_, ?_⟩
      · rw [expression, leftGenerated, rightGenerated]
        simp only [bind, Except.bind, generated]
        rfl
      · rw [shape]
        exact leftSpells.operation rightSpells isSign
  | @call callee arguments nameSpan span reads _ allHypothesis =>
      obtain ⟨isWord, isIdent⟩ := reads.isWord
      obtain ⟨texts, generated, spells⟩ := expressions_spell allHypothesis
      refine ⟨callee ++ "(" ++ String.intercalate ", " texts ++ ")", ?_, ?_⟩
      · rw [expression]
        simp only [Expr.name?, generated]
        rfl
      · have combined := Lexeme.Spells.call isWord spells
        rw [String.ofList_toList, isIdent] at combined
        rw [Expr.flatKinds, Expr.allFlatKinds_eq_map]
        simpa [String.toList_intercalate, Expr.flatKinds] using combined

private theorem expressions_map {context : Context} {arguments : List Expr} {change : Expr → Expr}
    (same : ∀ argument ∈ arguments, expression context (change argument) =
      expression context argument) :
    expressions context (arguments.map change) = expressions context arguments := by
  induction arguments with
  | nil => rfl
  | cons first rest inductionHypothesis =>
      rw [List.map_cons, expressions, expressions, same first (by simp),
        inductionHypothesis fun argument member => same argument (by simp [member])]

/-- Powers are written as calls of `pow`. -/
private theorem expression_withPowerCalls {expr : Expr} (arithmetic : expr.Arithmetic)
    (context : Context) :
    expression context expr.withPowerCalls = expression context expr := by
  induction arithmetic with
  | name => rfl
  | int => rfl
  | @binary left right operator span _ _ _ leftSame rightSame =>
      by_cases isPower : operator = .pow
      · subst isPower
        rw [Expr.withPowerCalls, expression, expression, expressions, expressions, expressions,
          leftSame, rightSame]
        cases expression context left with
        | error cause => rfl
        | ok leftText =>
            cases expression context right with
            | error cause => rfl
            | ok rightText =>
                have text : "pow" ++ "(" ++ String.intercalate ", " [leftText, rightText] ++ ")" =
                    "pow(" ++ leftText ++ ", " ++ rightText ++ ")" := by
                  rw [← String.toList_inj]
                  simp
                exact congrArg Except.ok text
      · rw [Expr.withPowerCalls_binary isPower, expression, expression, leftSame, rightSame]
  | @call callee arguments nameSpan span _ _ allSame =>
      have same : expressions context (arguments.map Expr.withPowerCalls) =
          expressions context arguments := expressions_map allSame
      rw [Expr.withPowerCalls, Expr.allWithPowerCalls_eq_map, expression, expression, same]
      rfl

end Cpp

/-! ### Derivations without parentheses -/

namespace Grammar

/-- Items that each have a derivation are separated by single commas. -/
private theorem items_of_expressions {room : Nat} {arguments : List Expr}
    (all : ∀ argument ∈ arguments, Expression room 0 argument argument.flatKinds) :
    Items room arguments ([TokenKind.comma].intercalate (arguments.map Expr.flatKinds)) := by
  induction arguments with
  | nil => exact .none
  | cons first rest inductionHypothesis =>
      have others := inductionHypothesis fun argument member => all argument (by simp [member])
      cases rest with
      | nil => simpa using Items.last (all first (by simp))
      | cons second more =>
          have both := Items.more (all first (by simp)) others
          simpa [List.intercalate_cons_cons] using both

/-- A flat tree that keeps its grouping is written without parentheses wherever its
operator is not too loose. -/
theorem expression_of_keepsGrouping {expr : Expr} (flat : expr.Flat) {room rank : Nat}
    (nested : expr.callDepth ≤ room) (keeps : expr.keepsGrouping = true) (low : rank ≤ 9)
    (tightEnough : expr.chainRank?.all (rank ≤ ·) = true) :
    Expression room rank expr expr.flatKinds := by
  induction flat generalizing room rank with
  | name => exact Expression.of_le (by omega : rank ≤ 10) .name
  | int => exact Expression.of_le (by omega : rank ≤ 10) (.constant rfl)
  | @binary left right operator span listed _ _ leftHypothesis rightHypothesis =>
      have notPower := Expr.ne_pow_of_mem listed
      have ranks := Expr.precedence_le_of_mem listed
      rw [Expr.chainRank?_binary notPower] at tightEnough
      obtain ⟨⟨stands, leftKeeps⟩, rightKeeps⟩ :
          (Expr.standsBetween operator left right = true ∧ left.keepsGrouping = true) ∧
            right.keepsGrouping = true := by
        simpa [Expr.keepsGrouping, notPower] using keeps
      obtain ⟨leftTight, rightTight⟩ := Bool.and_eq_true_iff.mp stands
      have depths : left.callDepth ≤ room ∧ right.callDepth ≤ room := by
        simpa [Expr.callDepth, notPower, Nat.max_le] using nested
      have atRank : Expression room operator.precedence (.binary left operator right span)
          (left.flatKinds ++ operator.sign :: right.flatKinds) :=
        .binary rfl notPower (leftHypothesis depths.1 leftKeeps (by omega) leftTight)
          (rightHypothesis depths.2 rightKeeps (by omega) rightTight)
      exact atRank.of_le (by simpa using tightEnough)
  | @call callee arguments nameSpan span _ _ allHypothesis =>
      have depth : Expr.deepestCall arguments + 1 ≤ room := by
        simpa [Expr.callDepth] using nested
      obtain ⟨inner, rfl⟩ : ∃ inner, room = inner + 1 := ⟨room - 1, by omega⟩
      have allKeep : ∀ argument ∈ arguments, argument.keepsGrouping = true := by
        simpa [Expr.keepsGrouping] using keeps
      have items : Items inner arguments
          ([TokenKind.comma].intercalate (arguments.map Expr.flatKinds)) := by
        apply items_of_expressions
        intro argument member
        have argumentDepth := Expr.callDepth_le_deepestCall member
        refine allHypothesis argument member (by omega) (allKeep argument member) (by omega) ?_
        cases argument.chainRank? <;> simp
      rw [Expr.flatKinds, Expr.allFlatKinds_eq_map]
      exact (Expression.call (.tighter .name) items).of_le low

/-! ### Derivations have no tokens to spare -/

/-- What the tokens of a derivation tell: there are at least as many as those of the tree
without parentheses, and with no more than those the tree keeps its grouping. -/
structure Covers (rank : Nat) (expr : Expr) (kinds : List TokenKind) : Prop where
  enough : expr.flatKinds.length ≤ kinds.length
  noLineEnd : TokenKind.newline ∉ kinds
  tight : kinds.length = expr.flatKinds.length →
    expr.keepsGrouping = true ∧ expr.chainRank?.all (rank ≤ ·) = true

/-- The same for expressions with commas between them. -/
structure CoversAll (arguments : List Expr) (kinds : List TokenKind) : Prop where
  enough : ([TokenKind.comma].intercalate (arguments.map Expr.flatKinds)).length ≤ kinds.length
  noLineEnd : TokenKind.newline ∉ kinds
  tight : kinds.length = ([TokenKind.comma].intercalate (arguments.map Expr.flatKinds)).length →
    ∀ argument ∈ arguments, argument.keepsGrouping = true

/-- A derivation at a tighter rank tells as much at a looser one. -/
theorem Covers.tighter {rank : Nat} {expr : Expr} {kinds : List TokenKind}
    (inner : Covers (rank + 1) expr kinds) : Covers rank expr kinds := by
  refine ⟨inner.enough, inner.noLineEnd, fun same => ⟨(inner.tight same).1, ?_⟩⟩
  have tightEnough := (inner.tight same).2
  cases chain : expr.chainRank? with
  | none => rfl
  | some found =>
      rw [chain] at tightEnough
      simp only [Option.all_some, decide_eq_true_eq] at tightEnough ⊢
      omega

/-- An operation with a chain on each side. -/
theorem Covers.binary {rank : Nat} {operator : BinaryOp} {left right : Expr}
    {leftKinds rightKinds : List TokenKind} {span : Span} (ofRank : operator.precedence = rank)
    (notPower : operator ≠ .pow) (first : Covers rank left leftKinds)
    (second : Covers (rank + 1) right rightKinds) :
    Covers rank (.binary left operator right span)
      (leftKinds ++ operator.sign :: rightKinds) := by
  subst ofRank
  have enoughLeft := first.enough
  have enoughRight := second.enough
  refine ⟨?_, ?_, ?_⟩
  · simp only [Expr.flatKinds, List.length_append, List.length_cons]
    omega
  · have signDiffers : operator.sign ≠ .newline := by cases operator <;> simp [BinaryOp.sign]
    simp [first.noLineEnd, second.noLineEnd, signDiffers.symm]
  · intro same
    simp only [Expr.flatKinds, List.length_append, List.length_cons] at same
    obtain ⟨leftKeeps, leftTight⟩ := first.tight (by omega)
    obtain ⟨rightKeeps, rightTight⟩ := second.tight (by omega)
    have stands : Expr.standsBetween operator left right = true :=
      Bool.and_eq_true_iff.mpr ⟨leftTight, rightTight⟩
    rw [Expr.chainRank?_binary notPower]
    simp [Expr.keepsGrouping, stands, leftKeeps, rightKeeps]

/-- Parentheses of a group are tokens that the tree does without. -/
theorem Covers.group {rank outer : Nat} {expr : Expr} {kinds : List TokenKind}
    (inner : Covers rank expr kinds) :
    Covers outer expr (.leftParen :: (kinds ++ [.rightParen])) := by
  have enough := inner.enough
  refine ⟨?_, ?_, ?_⟩
  · simp only [List.length_cons, List.length_append, List.length_nil]
    omega
  · simp [inner.noLineEnd]
  · intro same
    simp only [List.length_cons, List.length_append, List.length_nil] at same
    omega

/-- The parentheses of a call belong to the tree. -/
theorem Covers.call {rank : Nat} {callee : Expr} {arguments : List Expr}
    {calleeKinds argumentKinds : List TokenKind} {span : Span}
    (first : Covers rank callee calleeKinds) (items : CoversAll arguments argumentKinds) :
    Covers rank (.call callee arguments span)
      (calleeKinds ++ .leftParen :: (argumentKinds ++ [.rightParen])) := by
  have enoughCallee := first.enough
  have enoughItems := items.enough
  have lengths : (Expr.call callee arguments span).flatKinds.length = callee.flatKinds.length +
      (([TokenKind.comma].intercalate (arguments.map Expr.flatKinds)).length + 2) := by
    rw [Expr.flatKinds, Expr.allFlatKinds_eq_map]
    simp
  refine ⟨?_, ?_, ?_⟩
  · simp only [lengths, List.length_append, List.length_cons, List.length_nil]
    omega
  · simp [first.noLineEnd, items.noLineEnd]
  · intro same
    simp only [lengths, List.length_append, List.length_cons, List.length_nil] at same
    have calleeKeeps := (first.tight (by omega)).1
    have allKeep := items.tight (by omega)
    refine ⟨?_, rfl⟩
    simpa [Expr.keepsGrouping, calleeKeeps] using allKeep

/-- One more expression before others, with a comma between them; after the last one the
comma is a token to spare. -/
theorem CoversAll.more {rank : Nat} {first : Expr} {rest : List Expr}
    {kinds restKinds : List TokenKind} (head : Covers rank first kinds)
    (others : CoversAll rest restKinds) :
    CoversAll (first :: rest) (kinds ++ .comma :: restKinds) := by
  have enoughHead := head.enough
  have enoughOthers := others.enough
  have noLineEnd : TokenKind.newline ∉ kinds ++ .comma :: restKinds := by
    simp [head.noLineEnd, others.noLineEnd]
  cases rest with
  | nil =>
      refine ⟨?_, noLineEnd, ?_⟩
      · simp only [List.map_cons, List.map_nil, List.intercalate_singleton, List.length_append]
        omega
      · intro same
        simp only [List.map_cons, List.map_nil, List.intercalate_singleton, List.length_append,
          List.length_cons] at same
        omega
  | cons second more =>
      refine ⟨?_, noLineEnd, ?_⟩
      · simp only [List.map_cons, List.intercalate_cons_cons, List.length_append,
          List.length_cons, List.length_nil] at enoughOthers ⊢
        omega
      · intro same
        simp only [List.map_cons, List.intercalate_cons_cons, List.length_append,
          List.length_cons, List.length_nil] at enoughOthers same
        have othersKeep := others.tight (by simp only [List.map_cons]; omega)
        exact List.forall_mem_cons.mpr ⟨(head.tight (by omega)).1, othersKeep⟩

mutual

/-- Every derivation of a flat tree covers its tokens. -/
theorem Expression.covers {room rank : Nat} {expr : Expr} {kinds : List TokenKind} :
    Expression room rank expr kinds → expr.Flat → Covers rank expr kinds
  | .tighter inner, flat => (inner.covers flat).tighter
  | .negation _, flat => nomatch flat
  | .binary ofRank notPower first second, flat =>
      .binary ofRank notPower (first.covers flat.of_binary.2.1) (second.covers flat.of_binary.2.2)
  | .sign _ _, flat => nomatch flat
  | .power _ _, flat => absurd flat.of_binary.1 (by decide)
  | .call first items, flat =>
      .call (first.covers flat.of_call.1) (items.covers flat.of_call.2)
  | .member _, flat => nomatch flat
  | .name, _ => ⟨by simp [Expr.flatKinds], by simp, fun _ => ⟨rfl, rfl⟩⟩
  | .constant single, flat => by
      cases flat with
      | int =>
          obtain rfl := Option.some.inj single
          exact ⟨by simp [Expr.flatKinds, Constant.token?], by simp, fun _ => ⟨rfl, rfl⟩⟩
  | .text _, flat => nomatch flat
  | .bytes _, flat => nomatch flat
  | .group inner, flat => (inner.covers flat).group
  | .unit, flat => nomatch flat
  | .list _, flat => nomatch flat

theorem Items.covers {room : Nat} {arguments : List Expr} {kinds : List TokenKind} :
    Items room arguments kinds → (∀ argument ∈ arguments, argument.Flat) →
      CoversAll arguments kinds
  | .none, _ => ⟨by simp, by simp, by simp⟩
  | .last first, all => by
      have head := first.covers (all _ (by simp))
      exact ⟨by simpa using head.enough, head.noLineEnd,
        fun same => by simpa using (head.tight (by simpa using same)).1⟩
  | .more first others, all =>
      .more (first.covers (all _ (by simp)))
        (others.covers fun argument member => all argument (by simp [member]))

theorem ExpressionList.covers {room : Nat} {expr : Expr} {kinds : List TokenKind} :
    ExpressionList room expr kinds → expr.Flat → Covers 0 expr kinds
  | .single only, flat => only.covers flat
  | .tuple _ _, flat => nomatch flat

end

/-! ### Sources with a single expression -/

theorem Line.ne_nil {room : Nat} {statements : List Stmt} {kinds : List TokenKind}
    (line : Line room statements kinds) : statements ≠ [] := by
  cases line <;> simp

/-- A statement that is alone on its line is found among the tokens of the line. -/
theorem Line.exists_statement {room : Nat} {statement : Stmt} {kinds : List TokenKind}
    (line : Line room [statement] kinds) :
    ∃ inner after, kinds = inner ++ after ∧ Statement room statement inner := by
  cases line with
  | last only => exact ⟨kinds, [], by simp, only⟩
  | closed only => exact ⟨_, _, rfl, only⟩
  | more _ others => exact absurd rfl others.ne_nil

/-- A statement that is alone in its source is found among the tokens of the source. -/
theorem Lines.exists_statement {room : Nat} {statements : List Stmt} {kinds : List TokenKind}
    (lines : Lines room statements kinds) {statement : Stmt} (single : statements = [statement]) :
    ∃ before inner after, kinds = before ++ (inner ++ after) ∧
      Statement room statement inner := by
  induction lines with
  | none => simp at single
  | blank _ inductionHypothesis =>
      obtain ⟨before, inner, after, shape, written⟩ := inductionHypothesis single
      exact ⟨.newline :: before, inner, after, by rw [shape, List.cons_append], written⟩
  | last only =>
      subst single
      obtain ⟨inner, after, shape, written⟩ := only.exists_statement
      exact ⟨[], inner, after, shape, written⟩
  | @more lineStatements rest lineKinds restKinds first _ _ =>
      -- The line holds a statement, so it holds the only one.
      obtain ⟨head, tail, rfl⟩ := List.exists_cons_of_ne_nil first.ne_nil
      obtain ⟨rfl, noMore⟩ := List.cons.inj single
      obtain ⟨rfl, rfl⟩ := List.append_eq_nil_iff.mp noMore
      obtain ⟨inner, after, rfl, written⟩ := first.exists_statement
      exact ⟨[], inner, after ++ .newline :: restKinds, by simp, written⟩

/-- Tokens that hold no more than a flat tree and a line end form the tree only if it
keeps its grouping. -/
theorem keepsGrouping_of_lines {room : Nat} {expr value : Expr} {span : Span} (flat : expr.Flat)
    (same : value.unlocated = expr.unlocated)
    (lines : Lines room [.expression value span] (expr.flatKinds ++ [.newline])) :
    expr.keepsGrouping = true := by
  obtain ⟨before, inner, after, shape, written⟩ := lines.exists_statement rfl
  have derived : ExpressionList room expr inner := by
    cases written with
    | expression written => exact written.of_unlocated_eq expr same.symm
  have covers := derived.covers flat
  have enough := covers.enough
  -- The line end stands outside the expression, so the expression has one token less.
  have outside : 0 < before.length + after.length := by
    have inAll : TokenKind.newline ∈ before ++ (inner ++ after) := by simp [← shape]
    rcases List.mem_append.mp inAll with inBefore | later
    · exact Nat.add_pos_left (List.length_pos_of_mem inBefore) _
    · rcases List.mem_append.mp later with inInner | inAfter
      · exact absurd inInner covers.noLineEnd
      · exact Nat.add_pos_right _ (List.length_pos_of_mem inAfter)
  have lengths := congrArg List.length shape
  simp only [List.length_append, List.length_cons, List.length_nil] at lengths
  exact (covers.tight (by omega)).1

end Grammar

/-! ### Reading generated text -/

/-- A module that is an expression up to locations is that one statement. -/
theorem Module.eq_expression_of_unlocated {parsed : Module} {expr : Expr}
    (same : parsed.unlocated = (⟨[.expression expr .dummy]⟩ : Module).unlocated) :
    ∃ value span, parsed = ⟨[.expression value span]⟩ ∧ value.unlocated = expr.unlocated := by
  obtain ⟨body⟩ := parsed
  have bodies : body.map Stmt.unlocated = [(Stmt.expression expr .dummy).unlocated] :=
    congrArg Module.body same
  obtain ⟨statement, rest, rfl, sameStatement, noRest⟩ := List.map_eq_cons_iff.mp bodies
  obtain rfl := List.map_eq_nil_iff.mp noRest
  cases statement <;> simp [Stmt.unlocated] at sameStatement
  exact ⟨_, _, rfl, sameStatement⟩

/-- The tokens of a flat tree form that tree exactly when it keeps its grouping. -/
theorem Module.ofTokens_flatKinds_iff {expr : Expr} (flat : expr.Flat)
    (nested : expr.callDepth ≤ Level.nestingLimit) {tokens : List Token}
    (kinds : tokens.map (·.kind) = expr.flatKinds ++ [.newline, .endOfFile]) :
    (∃ parsed, Module.ofTokens tokens = .ok parsed ∧
      parsed.unlocated = (⟨[.expression expr .dummy]⟩ : Module).unlocated) ↔
      expr.keepsGrouping = true := by
  obtain ⟨line, ending, rfl, lineKinds, endingKinds⟩ : ∃ line ending, tokens = line ++ ending ∧
      line.map (·.kind) = expr.flatKinds ++ [.newline] ∧ ending.map (·.kind) = [.endOfFile] := by
    apply List.map_eq_append_iff.mp
    rw [kinds, List.append_assoc]
    rfl
  obtain ⟨last, rfl, isEnd⟩ := List.map_eq_singleton_iff.mp endingKinds
  constructor
  · rintro ⟨parsed, read, same⟩
    obtain ⟨value, span, rfl, sameValue⟩ := Module.eq_expression_of_unlocated same
    have opaqueFree : (⟨[.expression value span]⟩ : Module).isOpaqueFree = true := by
      have valueFree : value.isOpaqueFree = true := by
        rw [← Expr.isOpaqueFree_unlocated, sameValue, Expr.isOpaqueFree_unlocated]
        exact flat.isOpaqueFree
      simp [Module.isOpaqueFree, Stmt.isOpaqueFree, valueFree]
    have beforeEnd : (line ++ [last]).takeWhile (·.kind != .endOfFile) = line := by
      have inLine : ∀ token ∈ line, (token.kind != .endOfFile) = true := by
        intro token member
        have inKinds : token.kind ∈ expr.flatKinds ++ [.newline] :=
          lineKinds ▸ List.mem_map_of_mem member
        rw [bne_iff_ne]
        intro endsHere
        rw [endsHere] at inKinds
        simp [flat.endOfFile_not_mem] at inKinds
      rw [List.takeWhile_append_of_pos inLine]
      simp [isEnd]
    have lines := Module.lines_of_ofTokens read opaqueFree
    rw [beforeEnd, lineKinds] at lines
    exact Grammar.keepsGrouping_of_lines flat sameValue lines
  · intro keeps
    have derived : Grammar.Expression Level.nestingLimit 0 expr expr.flatKinds := by
      apply Grammar.expression_of_keepsGrouping flat nested keeps (by omega)
      cases expr.chainRank? <;> simp
    have lines : Grammar.Lines Level.nestingLimit [.expression expr .dummy]
        (expr.flatKinds ++ [.newline]) :=
      .more (.last (.expression (.single derived))) .none
    exact Module.ofTokens_of_lines lines lineKinds isEnd

namespace Cpp

/-- The text of an arithmetic expression is read back as one expression statement with the
tree that it was generated from, up to locations and with powers as calls, exactly when
the tree keeps its grouping. -/
theorem ofSource_expression_iff (context : Context) {expr : Expr} (arithmetic : expr.Arithmetic)
    (nested : expr.callDepth ≤ 100) :
    ∃ text, expression context expr = .ok text ∧
      (Text.byteLength text.toList ≤ 0xffffffff →
        ((∃ parsed, Module.ofSource text = .ok parsed ∧
            parsed.unlocated = (⟨[.expression expr.withPowerCalls .dummy]⟩ : Module).unlocated) ↔
          expr.keepsGrouping = true)) := by
  obtain ⟨text, generated, spells⟩ := expression_spells arithmetic.flat context
  refine ⟨text, by rw [← expression_withPowerCalls arithmetic, generated], fun fits => ?_⟩
  rw [Text.byteLength_toList] at fits
  obtain ⟨tokens, tokenized, kinds⟩ := tokenize_of_spells spells fits
  have source (parsed : Module) :
      Module.ofSource text = .ok parsed ↔ Module.ofTokens tokens = .ok parsed := by
    simp [Module.ofSource_eq_ok_iff, tokenized]
  simp only [source]
  rw [← arithmetic.keepsGrouping_withPowerCalls]
  apply Module.ofTokens_flatKinds_iff arithmetic.flat _ kinds
  rw [arithmetic.callDepth_withPowerCalls]
  exact nested

/-- `x - f(y, 2 ** n) * 3` keeps its grouping and is read back; `x - (y - 1)` is written as
`x - y - 1`, which is another tree. -/
theorem ofSource_expression_differences :
    let name (identifier : String) : Expr := .name identifier .dummy
    let int (value : Int) : Expr := .constant (.int value) .dummy
    let product : Expr :=
      .binary (.call (name "f") [name "y", .binary (int 2) .pow (name "n") .dummy] .dummy)
        .mult (int 3) .dummy
    let kept : Expr := .binary (name "x") .sub product .dummy
    let lost : Expr := .binary (name "x") .sub (.binary (name "y") .sub (int 1) .dummy) .dummy
    (kept.Arithmetic ∧ kept.callDepth ≤ 100 ∧ kept.keepsGrouping = true ∧
      ∃ parsed, Module.ofSource "x - f(y, pow(2, n)) * 3" = .ok parsed ∧
        parsed.unlocated = (⟨[.expression kept.withPowerCalls .dummy]⟩ : Module).unlocated) ∧
    (lost.Arithmetic ∧ lost.callDepth ≤ 100 ∧ lost.keepsGrouping = false ∧
      ¬ ∃ parsed, Module.ofSource "x - y - 1" = .ok parsed ∧
        parsed.unlocated = (⟨[.expression lost.withPowerCalls .dummy]⟩ : Module).unlocated) := by
  intro name int product kept lost
  have isName {identifier : String} (reads : IsIdentifier identifier) :
      (name identifier).Arithmetic := .name reads
  have isInt {value : Int} (nonnegative : 0 ≤ value) (fits : value ≤ smallIntegerLimit) :
      (int value).Arithmetic := .int nonnegative fits
  have power : Expr.Arithmetic (.binary (int 2) .pow (name "n") .dummy) :=
    .binary (by decide) (isInt (by decide) (by decide)) (isName (by decide +kernel))
  have keptArithmetic : kept.Arithmetic := by
    refine .binary (by decide) (isName (by decide +kernel)) (.binary (by decide) ?_
      (isInt (by decide) (by decide)))
    refine .call (by decide +kernel) ?_
    simp only [List.mem_cons, List.not_mem_nil, or_false]
    rintro argument (rfl | rfl)
    · exact isName (by decide +kernel)
    · exact power
  have lostArithmetic : lost.Arithmetic :=
    .binary (by decide) (isName (by decide +kernel))
      (.binary (by decide) (isName (by decide +kernel)) (isInt (by decide) (by decide)))
  obtain ⟨keptText, keptGenerated, keptIff⟩ :=
    ofSource_expression_iff ⟨"generator", true⟩ keptArithmetic (by decide)
  obtain ⟨lostText, lostGenerated, lostIff⟩ :=
    ofSource_expression_iff ⟨"generator", true⟩ lostArithmetic (by decide)
  obtain rfl : "x - f(y, pow(2, n)) * 3" = keptText := by
    have generated : expression ⟨"generator", true⟩ kept = .ok "x - f(y, pow(2, n)) * 3" := by
      decide +kernel
    exact Except.ok.inj (generated.symm.trans keptGenerated)
  obtain rfl : "x - y - 1" = lostText := by
    have generated : expression ⟨"generator", true⟩ lost = .ok "x - y - 1" := by decide +kernel
    exact Except.ok.inj (generated.symm.trans lostGenerated)
  refine ⟨⟨keptArithmetic, by decide, by decide, (keptIff (by decide +kernel)).mpr (by decide)⟩,
    lostArithmetic, by decide, by decide, fun read => ?_⟩
  exact absurd ((lostIff (by decide +kernel)).mp read) (by decide)

end Cpp
end Transpiler
