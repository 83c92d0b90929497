import Transpiler.Proofs.Grammar.StatementComposition
import Transpiler.Proofs.Token.Constants

/-!
Contract: the listing of a tree determines the tree.

Owns: the trees that the rules can build (`Expr.Known`), that their outlines can be read off
their texts, that outlines which show the same belong to trees which are the same up to
locations, and what follows for the listings of two sources.
-/

namespace Transpiler

/-! ### Trees that can be read -/

namespace Expr

/-- A node whose constant can be read from source text, or whose kind outside the subset is
known. -/
def Recognized : Expr → Prop
  | .constant value _ => value.Readable
  | .unsupported kindName _ => kindName ∈ outsideExpressions
  | _ => True

/-- All nodes of the expression are recognized. -/
def Known (expr : Expr) : Prop :=
  ∀ node ∈ expr.nodes, node.Recognized

theorem known_iff {expr : Expr} :
    expr.Known ↔ expr.Recognized ∧ ∀ child ∈ expr.children, child.Known :=
  eachNode_iff

theorem nodeProperty_recognized : NodeProperty TokenKind.Readable Recognized where
  simple := by
    intro token expr readable isSimple
    unfold simpleAtom? at isSimple
    extract_lets constant at isSimple
    cases isKind : token.kind <;> rw [isKind] at isSimple readable <;> cases isSimple <;>
      exact readable
  text _ _ := trivial
  bytes _ _ := trivial
  outside isOutside _ := isOutside
  compound := by
    intro expr isCompound
    cases expr with
    | constant | unsupported => contradiction
    | _ => trivial

end Expr

/-! ### Their outlines can be read -/

namespace Outline

/-- A name that can be told from what follows it. -/
def isPlainName (name : String) : Bool :=
  name.toList.all isPlainCharacter

/-- Fields with plain labels and values that can be read. -/
structure ListableFields (fields : List (String × Outline)) : Prop where
  labels : PlainLabels fields
  values : ∀ field ∈ fields, Listable field.2

namespace ListableFields

theorem nil : ListableFields [] :=
  ⟨List.forall_mem_nil _, List.forall_mem_nil _⟩

theorem cons {label : String} {value : Outline} {fields : List (String × Outline)}
    (plain : isPlainName label = true) (listable : Listable value)
    (rest : ListableFields fields) : ListableFields ((label, value) :: fields) where
  labels := List.forall_mem_cons.mpr ⟨List.all_eq_true.mp plain, rest.labels⟩
  values := List.forall_mem_cons.mpr ⟨listable, rest.values⟩

theorem node {kindName : String} {fields : List (String × Outline)}
    (listable : ListableFields fields) (plain : isPlainName kindName = true) :
    Listable (.node kindName fields) :=
  .node (List.all_eq_true.mp plain) listable.labels listable.values

end ListableFields

private theorem listable_usage (usage : Usage) : Listable usage.outline := by
  cases usage <;> exact ListableFields.nil.node (by decide)

private theorem listable_binaryOp (operator : BinaryOp) : Listable operator.outline := by
  cases operator <;> exact ListableFields.nil.node (by decide)

private theorem listable_unaryOp (operator : UnaryOp) : Listable operator.outline := by
  cases operator <;> exact ListableFields.nil.node (by decide)

private theorem listable_word (text : String) : Listable (.atom (Literal.ofString text)) :=
  .atom (.quoted (Constant.quoted_ofString text))

end Outline

open Outline

namespace Expr

mutual

theorem listable_outline (usage : Usage) :
    ∀ expr : Expr, expr.Known → (expr.outline usage).Listable
  | .binary left operator right _, known => by
      have parts := (known_iff.mp known).2
      have first := left.listable_outline .load (parts left (by simp [children]))
      have second := right.listable_outline .load (parts right (by simp [children]))
      apply ListableFields.node _ (by decide)
      exact .cons (by decide) first (.cons (by decide) (listable_binaryOp operator)
        (.cons (by decide) second .nil))
  | .unary operator operand _, known => by
      have parts := (known_iff.mp known).2
      have only := operand.listable_outline .load (parts operand (by simp [children]))
      apply ListableFields.node _ (by decide)
      exact .cons (by decide) (listable_unaryOp operator) (.cons (by decide) only .nil)
  | .call callee arguments _, known => by
      have parts := List.forall_mem_cons.mp (known_iff.mp known).2
      have head := callee.listable_outline .load parts.1
      have others := listable_outlineAll .load arguments parts.2
      apply ListableFields.node _ (by decide)
      exact .cons (by decide) head (.cons (by decide) (.sequence others) .nil)
  | .constant value _, known => by
      apply ListableFields.node _ (by decide)
      exact .cons (by decide) (.atom (Constant.selfDelimiting_literal (known_iff.mp known).1)) .nil
  | .name identifier _, _ => by
      apply ListableFields.node _ (by decide)
      exact .cons (by decide) (listable_word identifier)
        (.cons (by decide) (listable_usage usage) .nil)
  | .member value memberName _, known => by
      have parts := (known_iff.mp known).2
      have head := value.listable_outline .load (parts value (by simp [children]))
      apply ListableFields.node _ (by decide)
      exact .cons (by decide) head (.cons (by decide) (listable_word memberName)
        (.cons (by decide) (listable_usage usage) .nil))
  | .list elements _, known => by
      have items := listable_outlineAll usage elements (known_iff.mp known).2
      apply ListableFields.node _ (by decide)
      exact .cons (by decide) (.sequence items) (.cons (by decide) (listable_usage usage) .nil)
  | .tuple elements _, known => by
      have items := listable_outlineAll usage elements (known_iff.mp known).2
      apply ListableFields.node _ (by decide)
      exact .cons (by decide) (.sequence items) (.cons (by decide) (listable_usage usage) .nil)
  | .unsupported kindName _, known => by
      have plain : outsideExpressions.all isPlainName = true := by decide +kernel
      exact ListableFields.nil.node (List.all_eq_true.mp plain kindName (known_iff.mp known).1)

theorem listable_outlineAll (usage : Usage) :
    ∀ exprs : List Expr, (∀ expr ∈ exprs, expr.Known) →
      ∀ item ∈ outlineAll usage exprs, item.Listable
  | [], _ => List.forall_mem_nil _
  | first :: rest, each => by
      have parts := List.forall_mem_cons.mp each
      exact List.forall_mem_cons.mpr
        ⟨first.listable_outline usage parts.1, listable_outlineAll usage rest parts.2⟩

end

end Expr

theorem Stmt.listable_outline {stmt : Stmt} (built : stmt.Built Expr.Known) :
    stmt.outline.Listable := by
  have parts := built.children
  cases stmt with
  | annotated target annotation value span =>
      simp only [children, List.forall_mem_cons] at parts
      have target := target.listable_outline .store parts.1
      have annotation := annotation.listable_outline .load parts.2.1
      have last (simple : Bool) :
          ListableFields [("simple", .atom (if simple then "1" else "0"))] := by
        cases simple <;>
          exact .cons (by decide) (.atom (.plain (List.all_eq_true.mp (by decide)))) .nil
      apply ListableFields.node _ (by decide)
      apply ListableFields.cons (by decide) target
      apply ListableFields.cons (by decide) annotation
      cases value with
      | none => exact last _
      | some value =>
          have value := value.listable_outline .load (parts.2.2 value (by simp))
          exact .cons (by decide) value (last _)
  | expression value span =>
      have value := value.listable_outline .load (parts value (by simp [children]))
      exact (ListableFields.cons (by decide) value .nil).node (by decide)
  | assign targets value span =>
      obtain ⟨each, only⟩ := List.forall_mem_append.mp parts
      have targets := Expr.listable_outlineAll .store targets each
      have value := value.listable_outline .load (only value (by simp))
      apply ListableFields.node _ (by decide)
      exact .cons (by decide) (.sequence targets) (.cons (by decide) value .nil)
  | augmented target operator value span =>
      simp only [children, List.forall_mem_cons] at parts
      have target := target.listable_outline .store parts.1
      have value := value.listable_outline .load parts.2.1
      apply ListableFields.node _ (by decide)
      exact .cons (by decide) target (.cons (by decide) (listable_binaryOp operator)
        (.cons (by decide) value .nil))
  | pass span => exact ListableFields.nil.node (by decide)
  | unsupported kindName span =>
      have plain : outsideStatements.all isPlainName = true := by decide +kernel
      exact ListableFields.nil.node (List.all_eq_true.mp plain kindName (built.outside rfl))

/-! ### What is shown determines the tree -/

theorem BinaryOp.eq_of_shown {first second : BinaryOp}
    (same : first.outline.shown = second.outline.shown) : first = second := by
  have names := (Outline.node.inj same).1
  revert names
  cases first <;> cases second <;> decide

theorem UnaryOp.eq_of_shown {first second : UnaryOp}
    (same : first.outline.shown = second.outline.shown) : first = second := by
  have names := (Outline.node.inj same).1
  revert names
  cases first <;> cases second <;> decide

namespace Expr

/-- The kinds of nodes inside the subset, in the order of their constructors. -/
def insideKinds : List String :=
  ["BinOp", "UnaryOp", "Call", "Constant", "Name", "Attribute", "List", "Tuple"]

/-- The name of a node's kind determines its constructor. -/
theorem ctorIdx_eq {expr : Expr} (known : expr.Known) :
    expr.ctorIdx = insideKinds.idxOf expr.kindName := by
  cases expr with
  | unsupported kindName span =>
      have outside : outsideExpressions.all (insideKinds.idxOf · == 8) = true := by decide
      have found := List.all_eq_true.mp outside kindName (known_iff.mp known).1
      exact (beq_iff_eq.mp found).symm
  | _ => rfl

/-- Expressions that show the same have the same constructor. -/
theorem ctorIdx_of_shown {usage : Usage} {first second : Expr} (known : first.Known)
    (knownToo : second.Known)
    (same : (first.outline usage).shown = (second.outline usage).shown) :
    first.ctorIdx = second.ctorIdx := by
  have named (expr : Expr) : ∃ fields, expr.outline usage = .node expr.kindName fields := by
    cases expr <;> exact ⟨_, rfl⟩
  obtain ⟨fields, shape⟩ := named first
  obtain ⟨fieldsToo, shapeToo⟩ := named second
  rw [shape, shapeToo] at same
  rw [ctorIdx_eq known, ctorIdx_eq knownToo, (Outline.node.inj same).1]

mutual

/-- Expressions that show the same are the same up to locations. The induction is on the first
of them, whose constructor leaves one form for the second. -/
theorem unlocated_eq_of_shown (usage : Usage) :
    ∀ first second : Expr, first.Known → second.Known →
      (first.outline usage).shown = (second.outline usage).shown →
        first.unlocated = second.unlocated
  | .binary left operator right _, second, known, knownToo, same => by
      have form := ctorIdx_of_shown known knownToo same
      have parts := (known_iff.mp known).2
      have partsToo := (known_iff.mp knownToo).2
      cases second with
      | binary leftToo operatorToo rightToo _ =>
          have fields := values_of_shown same (by simp) (by simp)
          simp only [children, List.forall_mem_cons] at parts partsToo
          simp only [List.map_cons, List.cons.injEq] at fields
          rw [unlocated, unlocated, BinaryOp.eq_of_shown fields.2.1,
            left.unlocated_eq_of_shown .load leftToo parts.1 partsToo.1 fields.1,
            right.unlocated_eq_of_shown .load rightToo parts.2.1 partsToo.2.1 fields.2.2.1]
      | _ => cases form
  | .unary operator operand _, second, known, knownToo, same => by
      have form := ctorIdx_of_shown known knownToo same
      have parts := (known_iff.mp known).2
      have partsToo := (known_iff.mp knownToo).2
      cases second with
      | unary operatorToo operandToo _ =>
          have fields := values_of_shown same (by simp) (by simp)
          simp only [children, List.forall_mem_cons] at parts partsToo
          simp only [List.map_cons, List.cons.injEq] at fields
          rw [unlocated, unlocated, UnaryOp.eq_of_shown fields.1,
            operand.unlocated_eq_of_shown .load operandToo parts.1 partsToo.1 fields.2.1]
      | _ => cases form
  | .call callee arguments _, second, known, knownToo, same => by
      have form := ctorIdx_of_shown known knownToo same
      have parts := (known_iff.mp known).2
      have partsToo := (known_iff.mp knownToo).2
      cases second with
      | call calleeToo argumentsToo _ =>
          have fields := values_of_shown same (by simp) (by simp)
          simp only [children, List.forall_mem_cons] at parts partsToo
          simp only [List.map_cons, List.cons.injEq] at fields
          rw [unlocated, unlocated,
            callee.unlocated_eq_of_shown .load calleeToo parts.1 partsToo.1 fields.1,
            allUnlocated_eq_of_shown .load arguments argumentsToo parts.2 partsToo.2
              (Outline.sequence.inj fields.2.1)]
      | _ => cases form
  | .constant value _, second, known, knownToo, same => by
      have form := ctorIdx_of_shown known knownToo same
      have readable := (known_iff.mp known).1
      have readableToo := (known_iff.mp knownToo).1
      cases second with
      | constant valueToo _ =>
          have fields := values_of_shown same (by simp) (by simp)
          simp only [List.map_cons, List.cons.injEq] at fields
          rw [unlocated, unlocated,
            Constant.literal_injective readable readableToo (Outline.atom.inj fields.1)]
      | _ => cases form
  | .name identifier _, second, known, knownToo, same => by
      have form := ctorIdx_of_shown known knownToo same
      cases second with
      | name identifierToo _ =>
          have fields := values_of_shown same (by simp) (by simp)
          simp only [List.map_cons, List.cons.injEq] at fields
          rw [unlocated, unlocated, Constant.ofString_injective (Outline.atom.inj fields.1)]
      | _ => cases form
  | .member value memberName _, second, known, knownToo, same => by
      have form := ctorIdx_of_shown known knownToo same
      have parts := (known_iff.mp known).2
      have partsToo := (known_iff.mp knownToo).2
      cases second with
      | member valueToo memberNameToo _ =>
          have fields := values_of_shown same (by simp) (by simp)
          simp only [children, List.forall_mem_cons] at parts partsToo
          simp only [List.map_cons, List.cons.injEq] at fields
          rw [unlocated, unlocated, Constant.ofString_injective (Outline.atom.inj fields.2.1),
            value.unlocated_eq_of_shown .load valueToo parts.1 partsToo.1 fields.1]
      | _ => cases form
  | .list elements _, second, known, knownToo, same => by
      have form := ctorIdx_of_shown known knownToo same
      have parts := (known_iff.mp known).2
      have partsToo := (known_iff.mp knownToo).2
      cases second with
      | list elementsToo _ =>
          have fields := values_of_shown same (by simp) (by simp)
          simp only [List.map_cons, List.cons.injEq] at fields
          rw [unlocated, unlocated, allUnlocated_eq_of_shown usage elements elementsToo
            parts partsToo (Outline.sequence.inj fields.1)]
      | _ => cases form
  | .tuple elements _, second, known, knownToo, same => by
      have form := ctorIdx_of_shown known knownToo same
      have parts := (known_iff.mp known).2
      have partsToo := (known_iff.mp knownToo).2
      cases second with
      | tuple elementsToo _ =>
          have fields := values_of_shown same (by simp) (by simp)
          simp only [List.map_cons, List.cons.injEq] at fields
          rw [unlocated, unlocated, allUnlocated_eq_of_shown usage elements elementsToo
            parts partsToo (Outline.sequence.inj fields.1)]
      | _ => cases form
  | .unsupported kindName _, second, known, knownToo, same => by
      have form := ctorIdx_of_shown known knownToo same
      cases second with
      | unsupported kindNameToo _ => rw [unlocated, unlocated, (Outline.node.inj same).1]
      | _ => cases form

theorem allUnlocated_eq_of_shown (usage : Usage) :
    ∀ firsts seconds : List Expr, (∀ expr ∈ firsts, expr.Known) → (∀ expr ∈ seconds, expr.Known) →
      shownItems (outlineAll usage firsts) = shownItems (outlineAll usage seconds) →
        allUnlocated firsts = allUnlocated seconds
  | [], [], _, _, _ => rfl
  | first :: firsts, second :: seconds, each, eachToo, same => by
      have parts := List.forall_mem_cons.mp each
      have partsToo := List.forall_mem_cons.mp eachToo
      obtain ⟨heads, tails⟩ := List.cons.inj same
      rw [allUnlocated, allUnlocated,
        first.unlocated_eq_of_shown usage second parts.1 partsToo.1 heads,
        allUnlocated_eq_of_shown usage firsts seconds parts.2 partsToo.2 tails]
  | [], _ :: _, _, _, same => by cases same
  | _ :: _, [], _, _, same => by cases same

end

end Expr

namespace Stmt

/-- The kinds of statements inside the subset, in the order of their constructors. -/
def insideKinds : List String :=
  ["AnnAssign", "Expr", "Assign", "AugAssign", "Pass"]

theorem ctorIdx_eq {stmt : Stmt} (built : stmt.Built Expr.Known) :
    stmt.ctorIdx = insideKinds.idxOf stmt.kindName := by
  cases stmt with
  | unsupported kindName span =>
      have outside : outsideStatements.all (insideKinds.idxOf · == 5) = true := by decide
      have found := List.all_eq_true.mp outside kindName (built.outside rfl)
      exact (beq_iff_eq.mp found).symm
  | _ => rfl

theorem ctorIdx_of_shown {first second : Stmt} (built : first.Built Expr.Known)
    (builtToo : second.Built Expr.Known) (same : first.outline.shown = second.outline.shown) :
    first.ctorIdx = second.ctorIdx := by
  have named (stmt : Stmt) : ∃ fields, stmt.outline = .node stmt.kindName fields := by
    cases stmt <;> exact ⟨_, rfl⟩
  obtain ⟨fields, shape⟩ := named first
  obtain ⟨fieldsToo, shapeToo⟩ := named second
  rw [shape, shapeToo] at same
  rw [ctorIdx_eq built, ctorIdx_eq builtToo, (Outline.node.inj same).1]

/-- An absent value is shown as an empty sequence is: not at all. -/
private theorem shown_annotated (target annotation : Expr) (value : Option Expr) (span : Span) :
    (Stmt.annotated target annotation value span).outline.shown =
      (Outline.node "AnnAssign" [("target", target.outline .store),
        ("annotation", annotation.outline .load),
        ("value", value.elim (.sequence []) (·.outline .load)),
        ("simple", .atom (if target.isName then "1" else "0"))]).shown := by
  cases value <;> rfl

private theorem value_unlocated_eq_of_shown {value valueToo : Option Expr}
    (known : ∀ expr ∈ value, expr.Known) (knownToo : ∀ expr ∈ valueToo, expr.Known)
    (same : (value.elim (.sequence []) (·.outline .load) : Outline).shown =
      (valueToo.elim (.sequence []) (·.outline .load) : Outline).shown) :
    value.map Expr.unlocated = valueToo.map Expr.unlocated := by
  cases value with
  | none =>
      cases valueToo with
      | none => rfl
      | some exprToo => cases exprToo <;> cases same
  | some expr =>
      cases valueToo with
      | none => cases expr <;> cases same
      | some exprToo =>
          rw [Option.map_some, Option.map_some, expr.unlocated_eq_of_shown .load exprToo
            (known expr rfl) (knownToo exprToo rfl) same]

/-- Statements that show the same are the same up to locations. -/
theorem unlocated_eq_of_shown {first second : Stmt} (built : first.Built Expr.Known)
    (builtToo : second.Built Expr.Known) (same : first.outline.shown = second.outline.shown) :
    first.unlocated = second.unlocated := by
  have form := ctorIdx_of_shown built builtToo same
  have parts := built.children
  have partsToo := builtToo.children
  cases first with
  | annotated target annotation value _ =>
      cases second with
      | annotated targetToo annotationToo valueToo _ =>
          -- With the value as a field in any case, both statements have the same labels.
          rw [shown_annotated, shown_annotated] at same
          have fields := values_of_shown same (by simp) (by simp)
          simp only [children, List.forall_mem_cons, Option.mem_toList] at parts partsToo
          simp only [List.map_cons, List.cons.injEq] at fields
          rw [unlocated, unlocated,
            target.unlocated_eq_of_shown .store targetToo parts.1 partsToo.1 fields.1,
            annotation.unlocated_eq_of_shown .load annotationToo parts.2.1 partsToo.2.1 fields.2.1,
            value_unlocated_eq_of_shown parts.2.2 partsToo.2.2 fields.2.2.1]
      | _ => cases form
  | expression value _ =>
      cases second with
      | expression valueToo _ =>
          have fields := values_of_shown same (by simp) (by simp)
          simp only [children, List.forall_mem_cons] at parts partsToo
          simp only [List.map_cons, List.cons.injEq] at fields
          rw [unlocated, unlocated,
            value.unlocated_eq_of_shown .load valueToo parts.1 partsToo.1 fields.1]
      | _ => cases form
  | assign targets value _ =>
      cases second with
      | assign targetsToo valueToo _ =>
          have fields := values_of_shown same (by simp) (by simp)
          simp only [children, List.forall_mem_append, List.forall_mem_singleton]
            at parts partsToo
          simp only [List.map_cons, List.cons.injEq] at fields
          have allTargets := Expr.allUnlocated_eq_of_shown .store targets targetsToo parts.1
            partsToo.1 (Outline.sequence.inj fields.1)
          rw [Expr.allUnlocated_eq_map, Expr.allUnlocated_eq_map] at allTargets
          rw [unlocated, unlocated, allTargets,
            value.unlocated_eq_of_shown .load valueToo parts.2 partsToo.2 fields.2.1]
      | _ => cases form
  | augmented target operator value _ =>
      cases second with
      | augmented targetToo operatorToo valueToo _ =>
          have fields := values_of_shown same (by simp) (by simp)
          simp only [children, List.forall_mem_cons] at parts partsToo
          simp only [List.map_cons, List.cons.injEq] at fields
          rw [unlocated, unlocated, BinaryOp.eq_of_shown fields.2.1,
            target.unlocated_eq_of_shown .store targetToo parts.1 partsToo.1 fields.1,
            value.unlocated_eq_of_shown .load valueToo parts.2.1 partsToo.2.1 fields.2.2.1]
      | _ => cases form
  | pass _ =>
      cases second with
      | pass _ => rfl
      | _ => cases form
  | unsupported kindName _ =>
      cases second with
      | unsupported kindNameToo _ => rw [unlocated, unlocated, (Outline.node.inj same).1]
      | _ => cases form

theorem map_unlocated_eq_of_shown {firsts seconds : List Stmt}
    (each : ∀ stmt ∈ firsts, stmt.Built Expr.Known)
    (eachToo : ∀ stmt ∈ seconds, stmt.Built Expr.Known)
    (same : shownItems (firsts.map outline) = shownItems (seconds.map outline)) :
    firsts.map unlocated = seconds.map unlocated := by
  induction firsts generalizing seconds with
  | nil =>
      cases seconds with
      | nil => rfl
      | cons => cases same
  | cons first firsts inductionHypothesis =>
      cases seconds with
      | nil => cases same
      | cons second seconds =>
          have parts := List.forall_mem_cons.mp each
          have partsToo := List.forall_mem_cons.mp eachToo
          obtain ⟨heads, tails⟩ := List.cons.inj same
          rw [List.map_cons, List.map_cons, unlocated_eq_of_shown parts.1 partsToo.1 heads,
            inductionHypothesis parts.2 partsToo.2 tails]

end Stmt

/-! ### The tree determines what is shown -/

namespace Expr

mutual

theorem outline_unlocated (usage : Usage) :
    ∀ expr : Expr, expr.unlocated.outline usage = expr.outline usage
  | .binary left operator right _ => by
      rw [unlocated, outline, outline, left.outline_unlocated, right.outline_unlocated]
  | .unary operator operand _ => by
      rw [unlocated, outline, outline, operand.outline_unlocated]
  | .call callee arguments _ => by
      rw [unlocated, outline, outline, callee.outline_unlocated, outlineAll_unlocated]
  | .constant .. => rfl
  | .name .. => rfl
  | .member value memberName _ => by
      rw [unlocated, outline, outline, value.outline_unlocated]
  | .list elements _ => by
      rw [unlocated, outline, outline, outlineAll_unlocated]
  | .tuple elements _ => by
      rw [unlocated, outline, outline, outlineAll_unlocated]
  | .unsupported .. => rfl

theorem outlineAll_unlocated (usage : Usage) :
    ∀ exprs : List Expr, outlineAll usage (allUnlocated exprs) = outlineAll usage exprs
  | [] => rfl
  | first :: rest => by
      rw [allUnlocated, outlineAll, outlineAll, first.outline_unlocated, outlineAll_unlocated]

end

end Expr

theorem Stmt.outline_unlocated (stmt : Stmt) : stmt.unlocated.outline = stmt.outline := by
  cases stmt with
  | annotated target annotation value _ =>
      have isName : target.unlocated.isName = target.isName := by
        cases target <;> rfl
      cases value <;> simp [unlocated, outline, Expr.outline_unlocated, isName]
  | expression value _ => rw [unlocated, outline, outline, Expr.outline_unlocated]
  | assign targets value _ =>
      rw [unlocated, ← Expr.allUnlocated_eq_map, outline, outline, Expr.outlineAll_unlocated,
        Expr.outline_unlocated]
  | augmented target operator value _ =>
      rw [unlocated, outline, outline, Expr.outline_unlocated, Expr.outline_unlocated]
  | pass _ => rfl
  | unsupported _ _ => rfl

/-! ### Listings -/

namespace Module

theorem listing_unlocated (tree : Module) : tree.unlocated.listing = tree.listing := by
  unfold listing unlocated
  rw [List.map_map, show Stmt.outline ∘ Stmt.unlocated = Stmt.outline from
    funext Stmt.outline_unlocated]

/-- The statements of a tree read from a source are recognized in all of their parts. -/
private theorem built_of_ofSource {source : String} {tree : Module}
    (parsed : ofSource source = .ok tree) : ∀ stmt ∈ tree.body, stmt.Built Expr.Known := by
  obtain ⟨tokens, tokenized, parsed⟩ := ofSource_eq_ok_iff.mp parsed
  exact built_of_ofTokens Expr.nodeProperty_recognized.composition
    (readable_of_tokenize tokenized) parsed

private theorem unlocated_eq_of_listing {first second : Module}
    (built : ∀ stmt ∈ first.body, stmt.Built Expr.Known)
    (builtToo : ∀ stmt ∈ second.body, stmt.Built Expr.Known)
    (listings : first.listing = second.listing) : first.unlocated = second.unlocated := by
  have listable {tree : Module} (built : ∀ stmt ∈ tree.body, stmt.Built Expr.Known) :
      Listable (.node "Module" [("body", .sequence (tree.body.map Stmt.outline))]) := by
    apply ListableFields.node _ (by decide)
    apply ListableFields.cons (by decide) _ .nil
    apply Listable.sequence
    intro item member
    obtain ⟨stmt, inBody, rfl⟩ := List.mem_map.mp member
    exact Stmt.listable_outline (built stmt inBody)
  have shapes := shown_eq_of_render (listable built) (listable builtToo) listings
  have bodies := (List.cons.inj (values_of_shown shapes rfl (by simp))).1
  have same := Stmt.map_unlocated_eq_of_shown built builtToo (Outline.sequence.inj bodies)
  rw [unlocated, unlocated, same]

/-- The listing determines the tree. Of two sources that form a module each, the modules have
the same listing exactly if they are the same up to the locations of their nodes. -/
theorem listing_eq_iff (first second : String) (firstTree secondTree : Module)
    (firstParsed : ofSource first = .ok firstTree)
    (secondParsed : ofSource second = .ok secondTree) :
    firstTree.listing = secondTree.listing ↔ firstTree.unlocated = secondTree.unlocated := by
  constructor
  · exact unlocated_eq_of_listing (built_of_ofSource firstParsed) (built_of_ofSource secondParsed)
  · intro same
    rw [← firstTree.listing_unlocated, same, secondTree.listing_unlocated]

/-- Two spellings of one statement, with different locations. -/
theorem listing_eq_iff_spellings :
    ∃ firstTree secondTree,
      ofSource "x = (0.10, 'a' \"b\")\n" = .ok firstTree ∧
      ofSource "x=1e-1,'ab'" = .ok secondTree ∧
      firstTree.body.map (·.span) = [⟨0, 19⟩] ∧ secondTree.body.map (·.span) = [⟨0, 11⟩] ∧
      firstTree.listing = secondTree.listing ∧
      firstTree.unlocated = secondTree.unlocated := by
  let text := "Module(\n    body=[\n        Assign(\n            targets=[\n" ++
    "                Name(id='x', ctx=Store())],\n            value=Tuple(\n" ++
    "                elts=[\n                    Constant(value=0.1),\n" ++
    "                    Constant(value='ab')],\n                ctx=Load()))])"
  have first : (ofSource "x = (0.10, 'a' \"b\")\n").toOption.map
      (fun tree => (tree.body.map (·.span), tree.listing)) = some ([⟨0, 19⟩], text) := by
    decide +kernel
  have second : (ofSource "x=1e-1,'ab'").toOption.map
      (fun tree => (tree.body.map (·.span), tree.listing)) = some ([⟨0, 11⟩], text) := by
    decide +kernel
  obtain ⟨firstTree, firstParsed, firstView⟩ := exists_eq_ok_of_toOption_map first
  obtain ⟨secondTree, secondParsed, secondView⟩ := exists_eq_ok_of_toOption_map second
  obtain ⟨firstSpans, firstListing⟩ := Prod.mk.inj firstView
  obtain ⟨secondSpans, secondListing⟩ := Prod.mk.inj secondView
  have listings := firstListing.trans secondListing.symm
  exact ⟨firstTree, secondTree, firstParsed, secondParsed, firstSpans, secondSpans, listings,
    (listing_eq_iff _ _ firstTree secondTree firstParsed secondParsed).mp listings⟩

end Module

end Transpiler
