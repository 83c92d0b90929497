import Transpiler.Proofs.Generate.Locations

/-!
Contract: which statements have a line, and which failure the others report.

Owns: the faults of a statement in the order in which its parts are generated
(`Cpp.statementFaults`), and that generation reports the first of them, whatever follows it, and
succeeds exactly if there is none.

Does not own: the text of a line.
-/

namespace Transpiler.Cpp

/-! ### Faults -/

/-- A part of a statement that no rule can generate, and what is reported about it. -/
inductive Fault where
  /-- The rule has no case for a node of this kind. -/
  | unsupported (category kindName : String) (detail : Option String) (span : Span)
  /-- The rule needs a bare name. -/
  | notName (category kindName : String) (span : Span)
deriving DecidableEq, Repr

/-- The failure that is reported for a fault. -/
def Fault.report (context : Context) : Fault → GenerationError
  | .unsupported category kindName detail span =>
      .unsupported ⟨context.generator, category, kindName, span⟩ detail
  | .notName category kindName span =>
      .malformed ⟨context.generator, category, kindName, span⟩ "Name"

/-- The operators that can be generated. -/
def supportedOperators : List BinaryOp := [.add, .sub, .mult, .div, .pow]

/-- An operator is looked at after both of its operands. -/
def operatorFaults (operator : BinaryOp) (span : Span) : List Fault :=
  if operator ∈ supportedOperators then []
  else [.unsupported "bin_op/operator" operator.kindName none span]

/-- A callee has to be a bare name. -/
def calleeFaults (callee : Expr) : List Fault :=
  if callee.isName then [] else [.unsupported "name" callee.kindName none callee.span]

def constantFaults (value : Constant) (span : Span) : List Fault :=
  match value with
  | .none | .bytes _ | .ellipsis => [.unsupported "constant" "Constant" (some value.kindName) span]
  | .bool _ | .int _ | .bigInt _ | .float _ | .str _ => []

mutual

/-- The faults of an expression: those of its parts from left to right, and then its own. Parts
of a node that cannot be generated at all do not count. -/
def expressionFaults : Expr → List Fault
  | .binary left operator right span =>
      expressionFaults left ++ expressionFaults right ++ operatorFaults operator span
  | .call callee arguments _ => calleeFaults callee ++ argumentFaults arguments
  | .constant value span => constantFaults value span
  | .name .. => []
  | .unary _ _ span => [.unsupported "expression" "UnaryOp" none span]
  | .member _ _ span => [.unsupported "expression" "Attribute" none span]
  | .list _ span => [.unsupported "expression" "List" none span]
  | .tuple _ span => [.unsupported "expression" "Tuple" none span]
  | .unsupported kindName span => [.unsupported "expression" kindName none span]

def argumentFaults : List Expr → List Fault
  | [] => []
  | first :: rest => expressionFaults first ++ argumentFaults rest

end

/-- Targets and annotations have to be bare names. -/
def nameFaults (category : String) (expr : Expr) : List Fault :=
  if expr.isName then [] else [.notName category expr.kindName expr.span]

/-- A declaration needs a value. -/
def valueFaults (value : Option Expr) (span : Span) : List Fault :=
  match value with
  | some value => expressionFaults value
  | none => [.unsupported "expression" "NoneType" none span]

/-- The faults of a statement. The annotation of a declaration comes after its value. -/
def statementFaults : Stmt → List Fault
  | .annotated target annotation value span =>
      nameFaults "ann_assign/target" target ++ valueFaults value span ++
        nameFaults "ann_assign/annotation" annotation
  | .expression value _ => expressionFaults value
  | .assign _ _ span => [.unsupported "statement" "Assign" none span]
  | .augmented _ _ _ span => [.unsupported "statement" "AugAssign" none span]
  | .pass span => [.unsupported "statement" "Pass" none span]
  | .unsupported kindName span => [.unsupported "statement" kindName none span]

/-! ### Reporting the first fault -/

/-- The result succeeds if there is no fault, and otherwise reports the first one. -/
inductive Reports (context : Context) {α : Type} :
    List Fault → Except GenerationError α → Prop where
  | success (value : α) : Reports context [] (.ok value)
  | failure (first : Fault) (later : List Fault) :
      Reports context (first :: later) (.error (first.report context))

section

variable {context : Context}

/-- Of two parts that are generated in turn, the faults of the first come first. -/
theorem Reports.bind {α β : Type} {result : Except GenerationError α}
    {next : α → Except GenerationError β} {faults later : List Fault}
    (first : Reports context faults result)
    (second : ∀ value, Reports context later (next value)) :
    Reports context (faults ++ later) (result >>= next) := by
  cases first with
  | success value => exact second value
  | failure fault others => exact .failure fault (others ++ later)

theorem Reports.map {α β : Type} {result : Except GenerationError α} {faults : List Fault}
    (reports : Reports context faults result) (change : α → β) :
    Reports context faults (result >>= fun value => pure (change value)) := by
  cases reports with
  | success value => exact .success (change value)
  | failure fault later => exact .failure fault later

private theorem operation?_eq_none_iff {operator : BinaryOp} {left right : String} :
    operation? operator left right = none ↔ operator ∉ supportedOperators := by
  cases operator <;> simp [operation?, supportedOperators]

private theorem reports_constant (value : Constant) (span : Span) :
    Reports context (constantFaults value span) (expression context (.constant value span)) := by
  rw [expression]
  cases value with
  | none => exact .failure _ _
  | bytes content => exact .failure _ _
  | ellipsis => exact .failure _ _
  | _ => exact .success _

mutual

private theorem reports_expression : ∀ expr : Expr,
    Reports context (expressionFaults expr) (expression context expr)
  | .binary left operator right span => by
      rw [expression, expressionFaults, List.append_assoc]
      refine (reports_expression left).bind fun leftText => ?_
      refine (reports_expression right).bind fun rightText => ?_
      rw [operatorFaults]
      cases generated : operation? operator leftText rightText with
      | none =>
          rw [if_neg (operation?_eq_none_iff.mp generated)]
          exact .failure _ _
      | some text =>
          have supported : operator ∈ supportedOperators := by
            refine Decidable.byContradiction fun unknown => ?_
            rw [operation?_eq_none_iff.mpr unknown] at generated
            cases generated
          rw [if_pos supported]
          exact .success text
  | .call callee arguments span => by
      rw [expression, expressionFaults, calleeFaults, Expr.isName]
      cases callee.name? with
      | none => exact .failure _ _
      | some name => exact (reports_arguments arguments).map _
  | .constant value span => by
      rw [expressionFaults]
      exact reports_constant value span
  | .name identifier _ => .success identifier
  | .unary .. => .failure _ _
  | .member .. => .failure _ _
  | .list .. => .failure _ _
  | .tuple .. => .failure _ _
  | .unsupported .. => .failure _ _

theorem reports_arguments : ∀ arguments : List Expr,
    Reports context (argumentFaults arguments) (expressions context arguments)
  | [] => .success []
  | first :: rest => by
      rw [expressions, argumentFaults]
      exact (reports_expression first).bind fun _ => (reports_arguments rest).map _

end

private theorem reports_bareName (category : String) (expr : Expr) :
    Reports context (nameFaults category expr) (bareName context category expr) := by
  rw [nameFaults, bareName, Expr.isName]
  cases expr.name? with
  | none => exact .failure _ _
  | some name => exact .success name

private theorem reports_statement (stmt : Stmt) :
    Reports context (statementFaults stmt) (statement context stmt) := by
  cases stmt with
  | annotated target annotation value span =>
      rw [statement, statementFaults, List.append_assoc]
      refine (reports_bareName "ann_assign/target" target).bind fun targetText => ?_
      cases value with
      | none => exact .failure _ _
      | some value =>
          exact (reports_expression value).bind fun valueText =>
            (reports_bareName "ann_assign/annotation" annotation).map _
  | expression value span => exact (reports_expression value).map _
  | assign => exact .failure _ _
  | augmented => exact .failure _ _
  | pass => exact .failure _ _
  | unsupported => exact .failure _ _

end

/-- Generation succeeds exactly on the statements without faults, with a line that ends in a
semicolon. Of all faults of a statement, in the order in which its parts are generated, the first
one is reported, with its rule, the kind of its node, its detail and its place. -/
theorem statement_first_fault (context : Context) (stmt : Stmt) :
    (statementFaults stmt = [] ∧ ∃ text, statement context stmt = .ok text ∧ text ≠ "" ∧
        text.toList.getLast? = some ';') ∨
      ∃ first later, statementFaults stmt = first :: later ∧
        statement context stmt = .error (first.report context) := by
  have reports : Reports context _ _ := reports_statement stmt
  generalize isResult : statement context stmt = result at reports
  generalize statementFaults stmt = faults at reports
  cases reports with
  | success text =>
      have written : (statement context stmt).toOption = some text := by
        rw [isResult]
        rfl
      obtain ⟨line, rfl⟩ := exists_line_of_statement context written
      exact .inl ⟨rfl, _, rfl, by simp, by simp⟩
  | failure first later => exact .inr ⟨first, later, rfl, rfl⟩

/-- Every part has a fault. They count in the order of generation: target, the operands before
their operator, the callee before the argument, and the annotation last. -/
example :
    let value := Expr.binary (.call (.member (.name "a" ⟨4, 5⟩) "b" ⟨4, 7⟩)
      [.constant .none ⟨8, 12⟩] ⟨4, 13⟩) .mod (.list [] ⟨16, 18⟩) ⟨4, 18⟩
    (statementFaults (.annotated (.tuple [] ⟨0, 2⟩) (.constant .ellipsis ⟨20, 23⟩) (some value)
      ⟨0, 23⟩)) =
      [.notName "ann_assign/target" "Tuple" ⟨0, 2⟩, .unsupported "name" "Attribute" none ⟨4, 7⟩,
        .unsupported "constant" "Constant" (some "None") ⟨8, 12⟩,
        .unsupported "expression" "List" none ⟨16, 18⟩,
        .unsupported "bin_op/operator" "Mod" none ⟨4, 18⟩,
        .notName "ann_assign/annotation" "Constant" ⟨20, 23⟩] := by
  decide

end Transpiler.Cpp
