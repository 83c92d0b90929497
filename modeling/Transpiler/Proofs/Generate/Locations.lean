import Transpiler.Proofs.Generate.Policies
import Transpiler.Proofs.Syntax.Relocation

/-!
Contract: which trees have code, and what their code depends on.

Owns: that only trees inside the subset have code, and that the code of a tree does not
depend on the locations of its nodes. Failures do: they name the place, and a change of
locations moves them along.
-/

namespace Transpiler

theorem Expr.isOpaqueFree_of_name? {expr : Expr} {name : String}
    (isName : expr.name? = some name) : expr.isOpaqueFree = true := by
  cases expr with
  | name => rfl
  | _ => simp [Expr.name?] at isName

namespace Cpp

/-! ### Results without their failures -/

theorem toOption_bind {α β : Type} (first : Except GenerationError α)
    (next : α → Except GenerationError β) :
    (first >>= next).toOption = first.toOption.bind fun value => (next value).toOption := by
  cases first <;> rfl

private theorem toOption_bareName (context : Context) (category : String) (expr : Expr) :
    (bareName context category expr).toOption = expr.name? := by
  unfold bareName
  cases expr.name? <;> rfl

section

variable (context : Context)

theorem toOption_binary (left right : Expr) (operator : BinaryOp) (span : Span) :
    (expression context (.binary left operator right span)).toOption =
      (expression context left).toOption.bind fun leftText =>
        (expression context right).toOption.bind (operation? operator leftText) := by
  rw [expression, toOption_bind]
  congr
  funext leftText
  rw [toOption_bind]
  congr
  funext rightText
  cases operation? operator leftText rightText <;> rfl

theorem toOption_call (callee : Expr) (arguments : List Expr) (span : Span) :
    (expression context (.call callee arguments span)).toOption =
      callee.name?.bind fun name => (expressions context arguments).toOption.map fun texts =>
        name ++ "(" ++ String.intercalate ", " texts ++ ")" := by
  rw [expression]
  cases callee.name? with
  | none => rfl
  | some name =>
      cases expressions context arguments <;> rfl

theorem toOption_constant (value : Constant) (span : Span) :
    (expression context (.constant value span)).toOption =
      constant? context.escapeStrings value := by
  rw [expression]
  cases constant? context.escapeStrings value <;> rfl

theorem toOption_expressions_cons (first : Expr) (rest : List Expr) :
    (expressions context (first :: rest)).toOption =
      (expression context first).toOption.bind fun text =>
        (expressions context rest).toOption.map (text :: ·) := by
  rw [expressions, toOption_bind]
  congr
  funext text
  cases expressions context rest <;> rfl

theorem toOption_annotated (target annotation : Expr) (value : Option Expr) (span : Span) :
    (statement context (.annotated target annotation value span)).toOption =
      target.name?.bind fun targetText =>
        (value.bind fun value => (expression context value).toOption).bind fun valueText =>
          annotation.name?.map fun annotationText =>
            annotationText ++ " " ++ targetText ++ " = " ++ valueText ++ ";" := by
  rw [statement, toOption_bind, toOption_bareName]
  congr
  funext targetText
  cases value with
  | none => rfl
  | some value =>
      rw [toOption_bind]
      congr
      funext valueText
      rw [toOption_bind, toOption_bareName]
      cases annotation.name? <;> rfl

theorem toOption_expressionStatement (value : Expr) (span : Span) :
    (statement context (.expression value span)).toOption =
      (expression context value).toOption.map (· ++ ";") := by
  rw [statement]
  cases expression context value <;> rfl

/-! ### Trees with code -/

mutual

private theorem isOpaqueFree_of_expression :
    ∀ {expr : Expr} {text : String}, (expression context expr).toOption = some text →
      expr.isOpaqueFree = true
  | .binary left operator right span, text, written => by
      rw [toOption_binary, Option.bind_eq_some_iff] at written
      obtain ⟨leftText, leftWritten, written⟩ := written
      obtain ⟨rightText, rightWritten, _⟩ := Option.bind_eq_some_iff.mp written
      rw [Expr.isOpaqueFree, isOpaqueFree_of_expression leftWritten,
        isOpaqueFree_of_expression rightWritten, Bool.true_and]
  | .call callee arguments span, text, written => by
      rw [toOption_call, Option.bind_eq_some_iff] at written
      obtain ⟨name, isName, written⟩ := written
      obtain ⟨texts, argumentsWritten, _⟩ := Option.map_eq_some_iff.mp written
      rw [Expr.isOpaqueFree, Expr.isOpaqueFree_of_name? isName,
        areOpaqueFree_of_expressions argumentsWritten, Bool.true_and]
  | .constant .., _, _ => rfl
  | .name .., _, _ => rfl

theorem areOpaqueFree_of_expressions :
    ∀ {arguments : List Expr} {texts : List String},
      (expressions context arguments).toOption = some texts →
        Expr.areOpaqueFree arguments = true
  | [], _, _ => rfl
  | first :: rest, texts, written => by
      rw [toOption_expressions_cons, Option.bind_eq_some_iff] at written
      obtain ⟨text, firstWritten, written⟩ := written
      obtain ⟨others, restWritten, _⟩ := Option.map_eq_some_iff.mp written
      rw [Expr.areOpaqueFree, isOpaqueFree_of_expression firstWritten,
        areOpaqueFree_of_expressions restWritten, Bool.true_and]

end

theorem isOpaqueFree_of_statement {stmt : Stmt} {line : String}
    (written : (statement context stmt).toOption = some line) : stmt.isOpaqueFree = true := by
  cases stmt with
  | annotated target annotation value span =>
      rw [toOption_annotated, Option.bind_eq_some_iff] at written
      obtain ⟨targetText, isTarget, written⟩ := written
      obtain ⟨valueText, valueWritten, written⟩ := Option.bind_eq_some_iff.mp written
      obtain ⟨annotationText, isAnnotation, _⟩ := Option.map_eq_some_iff.mp written
      obtain ⟨value, rfl, valueWritten⟩ := Option.bind_eq_some_iff.mp valueWritten
      rw [Stmt.isOpaqueFree, Expr.isOpaqueFree_of_name? isTarget,
        Expr.isOpaqueFree_of_name? isAnnotation, Option.all_some,
        isOpaqueFree_of_expression context valueWritten, Bool.true_and, Bool.true_and]
  | expression value span =>
      rw [toOption_expressionStatement, Option.map_eq_some_iff] at written
      obtain ⟨text, valueWritten, _⟩ := written
      exact isOpaqueFree_of_expression context valueWritten
  | pass => rfl
  | assign => contradiction
  | augmented => contradiction
  | unsupported => contradiction

theorem exists_line_of_statement {stmt : Stmt} {text : String}
    (written : (statement context stmt).toOption = some text) : ∃ line, text = line ++ ";" := by
  cases stmt with
  | annotated target annotation value span =>
      rw [toOption_annotated, Option.bind_eq_some_iff] at written
      obtain ⟨targetText, _, written⟩ := written
      obtain ⟨valueText, _, written⟩ := Option.bind_eq_some_iff.mp written
      obtain ⟨annotationText, _, rfl⟩ := Option.map_eq_some_iff.mp written
      exact ⟨_, rfl⟩
  | expression value span =>
      rw [toOption_expressionStatement, Option.map_eq_some_iff] at written
      obtain ⟨valueText, _, rfl⟩ := written
      exact ⟨valueText, rfl⟩
  | pass => contradiction
  | assign => contradiction
  | augmented => contradiction
  | unsupported => contradiction

end

/-! ### Trees elsewhere -/

section

theorem mapError_bind {α β : Type} (change : GenerationError → GenerationError)
    (first : Except GenerationError α) (next : α → Except GenerationError β) :
    (first >>= next).mapError change =
      first.mapError change >>= fun value => (next value).mapError change := by
  cases first <;> rfl

variable (move : Relocation) (context : Context)

private theorem bareName_relocate (category : String) (expr : Expr) :
    bareName context category (expr.relocate move) =
      (bareName context category expr).mapError (·.relocate move) := by
  rw [bareName, bareName, Expr.relocate_name?, Expr.relocate_kindName, Expr.relocate_span]
  cases expr.name? <;> rfl

mutual

private theorem expression_relocate : ∀ expr : Expr, expression context (expr.relocate move) =
    (expression context expr).mapError (·.relocate move)
  | .binary left operator right span => by
      rw [Expr.relocate, expression, expression, mapError_bind, expression_relocate left]
      congr
      funext leftText
      rw [mapError_bind, expression_relocate right]
      congr
      funext rightText
      cases operation? operator leftText rightText <;> rfl
  | .call callee arguments span => by
      rw [Expr.relocate, expression, expression, Expr.relocate_name?, Expr.relocate_kindName,
        Expr.relocate_span, expressions_relocate arguments]
      cases callee.name? with
      | none => rfl
      | some name => cases expressions context arguments <;> rfl
  | .constant value span => by
      rw [Expr.relocate, expression, expression]
      cases constant? context.escapeStrings value <;> rfl
  | .name .. => rfl
  | .unary .. => rfl
  | .member .. => rfl
  | .list .. => rfl
  | .tuple .. => rfl
  | .unsupported .. => rfl

theorem expressions_relocate : ∀ arguments : List Expr,
    expressions context (Expr.relocateAll move arguments) =
      (expressions context arguments).mapError (·.relocate move)
  | [] => rfl
  | first :: rest => by
      rw [Expr.relocateAll, expressions, expressions, mapError_bind,
        expression_relocate first, expressions_relocate rest]
      congr
      funext firstText
      cases expressions context rest <;> rfl

end

/-- A failure moves along with its statement, and a line does not depend on the place. -/
theorem statement_relocate (stmt : Stmt) :
    statement context (stmt.relocate move) =
      (statement context stmt).mapError (·.relocate move) := by
  cases stmt with
  | annotated target annotation value span =>
      rw [Stmt.relocate, statement, statement, mapError_bind, bareName_relocate]
      congr
      funext targetText
      cases value with
      | none => rfl
      | some value =>
          simp only [Option.map_some]
          rw [mapError_bind, expression_relocate, bareName_relocate]
          congr
          funext valueText
          cases bareName context "ann_assign/annotation" annotation <;> rfl
  | expression value span =>
      rw [Stmt.relocate, statement, statement, expression_relocate]
      cases expression context value <;> rfl
  | assign => rfl
  | augmented => rfl
  | pass => rfl
  | unsupported => rfl

end

end Cpp

def Generated.relocate (move : Relocation) (generated : Generated) : Generated :=
  ⟨generated.code, generated.errors.map (·.relocate move)⟩

namespace Generator

section

variable (move : Relocation) (generator : Generator)

private theorem line?_relocate (stmt : Stmt) :
    generator.line? (stmt.relocate move) = generator.line? stmt := by
  rw [line?, line?, statement, Cpp.statement_relocate, statement]
  cases Cpp.statement _ stmt <;> rfl

private theorem failure?_relocate (stmt : Stmt) :
    generator.failure? (stmt.relocate move) =
      (generator.failure? stmt).map (·.relocate move) := by
  rw [failure?, failure?, statement, Cpp.statement_relocate, statement]
  cases Cpp.statement _ stmt <;> rfl

/-- Under either policy, a module generates the same code wherever it was read, and its
failures move along. -/
theorem generate_relocate (tree : Module) :
    generator.generate (tree.relocate move) = (generator.generate tree).relocate move := by
  have lines : (tree.relocate move).body.filterMap generator.line? =
      tree.body.filterMap generator.line? := by
    rw [Module.relocate, List.filterMap_map]
    congr 1
    exact funext (line?_relocate move generator)
  have failures : (tree.relocate move).body.filterMap generator.failure? =
      (tree.body.filterMap generator.failure?).map (·.relocate move) := by
    rw [Module.relocate, List.filterMap_map, List.map_filterMap]
    congr 1
    exact funext (failure?_relocate move generator)
  rw [generate, generate, generateCollecting_eq, generateModule_eq, generateCollecting_eq,
    generateModule_eq, lines, failures]
  cases generator.options.policy with
  | collectAll => rfl
  | failFast => cases tree.body.filterMap generator.failure? <;> rfl

end

/-- The line of a statement does not depend on where the statement was read. -/
private theorem line?_unlocated (generator : Generator) (stmt : Stmt) :
    generator.line? stmt.unlocated = generator.line? stmt := by
  rw [← Stmt.relocate_forget, line?_relocate]

/-- Statements that are the same up to their locations have the same lines. -/
theorem map_line?_of_unlocated {generator : Generator} {first second : List Stmt}
    (same : first.map Stmt.unlocated = second.map Stmt.unlocated) :
    first.map generator.line? = second.map generator.line? := by
  have lines (statements : List Stmt) : statements.map generator.line? =
      (statements.map Stmt.unlocated).map generator.line? := by
    simp [line?_unlocated]
  rw [lines first, lines second, same]

/-- Statements with lines lie in the subset. -/
theorem isOpaqueFree_of_lines {generator : Generator} {tree : Module} {lines : List String}
    (all : tree.body.map generator.line? = lines.map some) : tree.isOpaqueFree = true := by
  rw [Module.isOpaqueFree, List.all_eq_true]
  intro stmt member
  have hasLine : generator.line? stmt ∈ lines.map some := by
    rw [← all]
    exact List.mem_map_of_mem member
  obtain ⟨line, _, isLine⟩ := List.mem_map.mp hasLine
  exact Cpp.isOpaqueFree_of_statement _ isLine.symm

end Generator
end Transpiler
