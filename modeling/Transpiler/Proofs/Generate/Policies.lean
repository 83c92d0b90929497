import Transpiler.Generate.Generator

/-!
Contract: stopping at the first failure and collecting all failures agree.

Owns: the line or failure of each statement on its own, what the two loops over a module
make of them, and the code of modules all of whose statements have a line.

Does not own: the text of a line.
-/

namespace Transpiler.Generator

/-- The line of a statement, if it has one. -/
def line? (generator : Generator) (stmt : Stmt) : Option String :=
  (generator.statement stmt).toOption

/-- The failure of a statement, if it has no line. -/
def failure? (generator : Generator) (stmt : Stmt) : Option GenerationError :=
  match generator.statement stmt with
  | .ok _ => none
  | .error error => some error

/-- Lines with a line break after each. -/
def codeOf (lines : List String) : String :=
  String.join (lines.map (· ++ "\n"))

@[simp] theorem codeOf_nil : codeOf [] = "" := by
  simp [codeOf]

@[simp] theorem codeOf_cons (line : String) (rest : List String) :
    codeOf (line :: rest) = line ++ "\n" ++ codeOf rest := by
  simp [codeOf]

@[simp] theorem codeOf_append (first second : List String) :
    codeOf (first ++ second) = codeOf first ++ codeOf second := by
  simp [codeOf]

section

variable {generator : Generator} {stmt : Stmt}

theorem line?_of_ok {line : String} (generated : generator.statement stmt = .ok line) :
    generator.line? stmt = some line := by
  rw [line?, generated]
  rfl

theorem line?_of_error {error : GenerationError}
    (failed : generator.statement stmt = .error error) :
    generator.line? stmt = none := by
  rw [line?, failed]
  rfl

theorem failure?_eq_some_iff {error : GenerationError} :
    generator.failure? stmt = some error ↔ generator.statement stmt = .error error := by
  unfold failure?
  cases generator.statement stmt <;> simp

theorem failure?_eq_none_iff :
    generator.failure? stmt = none ↔ ∃ line, generator.statement stmt = .ok line := by
  unfold failure?
  cases generator.statement stmt <;> simp

end

/-! ### The two loops -/

/-- Collecting writes the lines of the statements that have one, and yields the failures of
the others. -/
private theorem collectAll_eq (generator : Generator) (buffer : CodeBuffer)
    (statements : List Stmt) :
    generator.collectAll buffer statements =
      (⟨buffer.code ++ codeOf (statements.filterMap generator.line?),
          buffer.lineCount + (statements.filterMap generator.line?).length⟩,
        statements.filterMap generator.failure?) := by
  induction statements generalizing buffer with
  | nil => simp [collectAll]
  | cons stmt rest inductionHypothesis =>
      cases outcome : generator.statement stmt with
      | ok line =>
          rw [collectAll, outcome, List.filterMap_cons_some (line?_of_ok outcome),
            List.filterMap_cons_none (failure?_eq_none_iff.mpr ⟨line, outcome⟩)]
          simp only [inductionHypothesis, CodeBuffer.writeLine, codeOf_cons, List.length_cons,
            String.append_assoc]
          rw [Nat.add_assoc, Nat.add_comm 1]
      | error error =>
          rw [collectAll, outcome, List.filterMap_cons_none (line?_of_error outcome),
            List.filterMap_cons_some (failure?_eq_some_iff.mpr outcome)]
          simp only [inductionHypothesis]

/-- Stopping yields what collecting makes of the same statements: all lines, or the first
failure. -/
private theorem writeAll_eq (generator : Generator) (buffer : CodeBuffer) (statements : List Stmt) :
    (generator.writeAll buffer statements).map (·.code) =
      Generated.toResult
        ⟨buffer.code ++ codeOf (statements.filterMap generator.line?),
          statements.filterMap generator.failure?⟩ := by
  induction statements generalizing buffer with
  | nil => simp [writeAll, Generated.toResult, Except.map]
  | cons stmt rest inductionHypothesis =>
      cases outcome : generator.statement stmt with
      | ok line =>
          rw [List.filterMap_cons_some (line?_of_ok outcome),
            List.filterMap_cons_none (failure?_eq_none_iff.mpr ⟨line, outcome⟩)]
          calc (generator.writeAll buffer (stmt :: rest)).map (·.code)
            _ = (generator.writeAll (buffer.writeLine line) rest).map (·.code) := by
                rw [writeAll, outcome]
                rfl
            _ = _ := by
                rw [inductionHypothesis]
                simp only [CodeBuffer.writeLine, codeOf_cons, String.append_assoc]
      | error error =>
          rw [List.filterMap_cons_some (failure?_eq_some_iff.mpr outcome), writeAll, outcome]
          rfl

/-- Collecting, statement by statement. -/
theorem generateCollecting_eq (generator : Generator) (tree : Module) :
    generator.generateCollecting tree =
      ⟨codeOf (tree.body.filterMap generator.line?), tree.body.filterMap generator.failure?⟩ := by
  rw [generateCollecting, collectAll_eq]
  simp [CodeBuffer.take, CodeBuffer.empty]

/-- Stopping, statement by statement. -/
theorem generateModule_eq (generator : Generator) (tree : Module) :
    generator.generateModule tree =
      Generated.toResult
        ⟨codeOf (tree.body.filterMap generator.line?), tree.body.filterMap generator.failure?⟩ := by
  have written := writeAll_eq generator .empty tree.body
  rw [CodeBuffer.empty, String.empty_append] at written
  exact written

/-- Every statement has either a line or a failure. -/
theorem length_lines_add_failures (generator : Generator) (statements : List Stmt) :
    (statements.filterMap generator.line?).length +
      (statements.filterMap generator.failure?).length = statements.length := by
  induction statements with
  | nil => rfl
  | cons stmt rest inductionHypothesis =>
      cases outcome : generator.statement stmt with
      | ok line =>
          rw [List.filterMap_cons_some (line?_of_ok outcome),
            List.filterMap_cons_none (failure?_eq_none_iff.mpr ⟨line, outcome⟩),
            List.length_cons, List.length_cons]
          omega
      | error error =>
          rw [List.filterMap_cons_none (line?_of_error outcome),
            List.filterMap_cons_some (failure?_eq_some_iff.mpr outcome), List.length_cons,
            List.length_cons]
          omega

/-! ### Both policies -/

/-- Without a failure, both policies yield all lines. -/
private theorem generate_of_no_failure {generator : Generator} {tree : Module}
    (none : tree.body.filterMap generator.failure? = []) :
    generator.generate tree = ⟨codeOf (tree.body.filterMap generator.line?), []⟩ := by
  cases policy : generator.options.policy with
  | collectAll => rw [generate, policy, generateCollecting_eq, none]
  | failFast =>
      rw [generate, policy, generateModule_eq, none]
      rfl

/-- The first failure that either policy yields is that of the first statement without a
line. -/
private theorem head?_errors_generate (generator : Generator) (tree : Module) :
    (generator.generate tree).errors.head? = tree.body.findSome? generator.failure? := by
  rw [← List.head?_filterMap]
  cases policy : generator.options.policy with
  | collectAll => rw [generate, policy, generateCollecting_eq]
  | failFast =>
      rw [generate, policy, generateModule_eq]
      cases tree.body.filterMap generator.failure? <;> rfl

private theorem errors_generate_eq_nil_iff {generator : Generator} {tree : Module} :
    (generator.generate tree).errors = [] ↔ tree.body.filterMap generator.failure? = [] := by
  rw [← List.head?_eq_none_iff, head?_errors_generate, ← List.head?_filterMap,
    List.head?_eq_none_iff]

/-- No statement fails exactly if every statement has its line. -/
private theorem failures_eq_nil_iff {generator : Generator} {statements : List Stmt}
    {lines : List String} :
    statements.filterMap generator.failure? = [] ∧ statements.filterMap generator.line? = lines ↔
      statements.map generator.line? = lines.map some := by
  induction statements generalizing lines with
  | nil => cases lines <;> simp
  | cons stmt rest inductionHypothesis =>
      cases outcome : generator.statement stmt with
      | ok line =>
          rw [List.filterMap_cons_some (line?_of_ok outcome),
            List.filterMap_cons_none (failure?_eq_none_iff.mpr ⟨line, outcome⟩), List.map_cons,
            line?_of_ok outcome]
          cases lines with
          | nil => simp
          | cons first others =>
              rw [List.map_cons, List.cons.injEq, List.cons.injEq, Option.some.injEq,
                and_left_comm, inductionHypothesis]
      | error error =>
          rw [List.filterMap_cons_some (failure?_eq_some_iff.mpr outcome), List.map_cons,
            line?_of_error outcome]
          cases lines <;> simp

/-- A module is generated without a failure exactly if every statement has its line, and then
its code is that of the lines. -/
theorem generate_eq_iff {generator : Generator} {tree : Module} {code : String} :
    generator.generate tree = ⟨code, []⟩ ↔
      ∃ lines, tree.body.map generator.line? = lines.map some ∧ code = codeOf lines := by
  constructor
  · intro generated
    have none : tree.body.filterMap generator.failure? = [] := by
      rw [← errors_generate_eq_nil_iff, generated]
    rw [generate_of_no_failure none] at generated
    exact ⟨_, failures_eq_nil_iff.mp ⟨none, rfl⟩, (congrArg Generated.code generated).symm⟩
  · rintro ⟨lines, all, rfl⟩
    obtain ⟨none, rfl⟩ := failures_eq_nil_iff.mpr all
    exact generate_of_no_failure none

/-- Every statement has its line, or there is a first one that fails. -/
theorem lines_or_failure (generator : Generator) (statements : List Stmt) :
    (∃ lines : List String, statements.map generator.line? = lines.map some) ∨
      ∃ before stmt after error, statements = before ++ stmt :: after ∧
        (∀ other ∈ before, ∃ line, generator.statement other = .ok line) ∧
        generator.statement stmt = .error error := by
  cases found : statements.findSome? generator.failure? with
  | none =>
      rw [← List.head?_filterMap, List.head?_eq_none_iff] at found
      exact .inl ⟨_, failures_eq_nil_iff.mp ⟨found, rfl⟩⟩
  | some error =>
      obtain ⟨before, stmt, after, rfl, failed, earlier⟩ := List.findSome?_eq_some_iff.mp found
      exact .inr ⟨before, stmt, after, error, rfl,
        fun other member => failure?_eq_none_iff.mp (earlier other member),
        failure?_eq_some_iff.mp failed⟩

/-- Both policies yield the failure of the first statement that fails before all others. -/
theorem errors_generate_of_failure {generator : Generator} {tree : Module}
    {before after : List Stmt} {stmt : Stmt} {error : GenerationError}
    (body : tree.body = before ++ stmt :: after)
    (earlier : ∀ other ∈ before, ∃ line, generator.statement other = .ok line)
    (failed : generator.statement stmt = .error error) :
    ∃ others, (generator.generate tree).errors = error :: others := by
  rw [← List.head?_eq_some_iff, head?_errors_generate, List.findSome?_eq_some_iff]
  exact ⟨before, stmt, after, body, failure?_eq_some_iff.mpr failed,
    fun other member => failure?_eq_none_iff.mpr (earlier other member)⟩

/-- The two policies agree. Stopping yields the code that collecting yields when nothing
fails, and otherwise the first failure that collecting yields. Collecting keeps the lines
of the statements that have one and the failures of the others, both in source order, so
that each statement counts once. Stopping never leaves code beside a failure. -/
theorem policies_agree (generator : Generator) (tree : Module) :
    generator.generateModule tree = (generator.generateCollecting tree).toResult ∧
      (generator.generateCollecting tree).code = codeOf (tree.body.filterMap generator.line?) ∧
      (generator.generateCollecting tree).errors = tree.body.filterMap generator.failure? ∧
      (generator.collectAll .empty tree.body).1.lineCount +
        (generator.generateCollecting tree).errors.length = tree.body.length ∧
      (generator.options.policy = .failFast → (generator.generate tree).errors ≠ [] →
        (generator.generate tree).code = "") := by
  rw [generateModule_eq, generateCollecting_eq, collectAll_eq]
  refine ⟨rfl, rfl, rfl, ?_, ?_⟩
  · rw [CodeBuffer.empty, Nat.zero_add]
    exact length_lines_add_failures generator tree.body
  · intro stopping failed
    rw [generate, stopping] at failed ⊢
    cases outcome : generator.generateModule tree with
    | ok code =>
        rw [outcome] at failed
        exact absurd rfl failed
    | error error => rfl

end Transpiler.Generator
