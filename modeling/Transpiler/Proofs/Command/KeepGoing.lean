import Transpiler.Proofs.Command.ErrorPlaces
import Transpiler.Proofs.Diagnostic.QueueRuns

/-!
Contract: a run that keeps going reports every failure once and in order.

Owns: the places of the failures of a module, which follow each other as the statements do;
that a queue therefore neither merges nor reorders their diagnostics; and the report of the
whole run.

Does not own: how a diagnostic is rendered, and which statements fail.
-/

namespace Transpiler

open Extent

/-! ### Distinct errors in a queue -/

namespace DiagnosticQueue

/-- What a queue holds after distinct errors: as many as the limit allows. -/
def holding (config : QueueConfig) (errors : List Diagnostic) : DiagnosticQueue :=
  ⟨config, errors.take config.errorLimit, min errors.length config.errorLimit, 0,
    errors.length - config.errorLimit⟩

variable {config : QueueConfig}

private theorem limitReached_holding {errors : List Diagnostic} (limited : 0 < config.errorLimit) :
    (holding config errors).limitReached = true ↔ config.errorLimit ≤ errors.length := by
  rw [limitReached, Bool.and_eq_true, decide_eq_true_eq, decide_eq_true_eq]
  show 0 < config.errorLimit ∧ config.errorLimit ≤ min errors.length config.errorLimit ↔ _
  omega

private theorem add_holding {errors : List Diagnostic} {diagnostic : Diagnostic}
    (limited : 0 < config.errorLimit) (fresh : diagnostic ∉ errors)
    (isError : diagnostic.isError = true) :
    ((holding config errors).add diagnostic).2 = holding config (errors ++ [diagnostic]) := by
  have adds := (holding config errors).adds_add diagnostic
  generalize (holding config errors).add diagnostic = outcome at adds
  cases adds with
  | repeated drops isKept => exact absurd (List.mem_of_mem_take isKept) fresh
  | overflowed _ _ full =>
      rw [limitReached_holding limited] at full
      simp only [holding, List.take_append_of_le_length full, List.length_append,
        List.length_singleton, mk.injEq, true_and]
      omega
  | kept _ room =>
      have below : ¬ config.errorLimit ≤ errors.length := by
        rw [← limitReached_holding limited, room isError]
        exact Bool.false_ne_true
      have all : errors.take config.errorLimit = errors := List.take_of_length_le (by omega)
      have allWith : (errors ++ [diagnostic]).take config.errorLimit = errors ++ [diagnostic] :=
        List.take_of_length_le (by simp; omega)
      simp only [holding, all, allWith, isError, List.length_append, List.length_singleton,
        List.countP_singleton, Bool.not_true, if_true, Bool.false_eq_true, if_false, mk.injEq,
        true_and]
      omega

theorem addAll_distinct_errors {errors : List Diagnostic} (limited : 0 < config.errorLimit)
    (distinct : errors.Nodup) (allErrors : ∀ diagnostic ∈ errors, diagnostic.isError = true) :
    (new config).addAll errors = holding config errors := by
  induction errors using List.reverseRecOn with
  | nil => simp [addAll, new, holding]
  | append_singleton earlier last inductionHypothesis =>
      obtain ⟨earlierDistinct, _, apart⟩ := List.nodup_append.mp distinct
      have added : (new config).addAll earlier = holding config earlier := by
        apply inductionHypothesis earlierDistinct
        intro diagnostic member
        exact allErrors diagnostic (List.mem_append_left _ member)
      have fresh : last ∉ earlier := by
        intro member
        exact apart last member last (List.mem_singleton_self last) rfl
      calc (new config).addAll (earlier ++ [last])
        _ = (((new config).addAll earlier).add last).2 := by
            simp only [addAll, List.foldl_append, List.foldl_cons, List.foldl_nil]
        _ = ((holding config earlier).add last).2 := by rw [added]
        _ = holding config (earlier ++ [last]) :=
            add_holding limited fresh (allErrors last (by simp))

/-- Diagnostics that begin one after the other are in source order. -/
theorem inSourceOrder_of_increasing {diagnostics : List Diagnostic}
    (increasing : diagnostics.Pairwise fun first second =>
      first.primaryStart? < second.primaryStart?) :
    inSourceOrder diagnostics = diagnostics := by
  apply List.mergeSort_of_pairwise
  apply increasing.imp
  intro first second before
  rw [decide_eq_true_eq, sortKey_le_iff]
  cases firstStart : first.primaryStart? with
  | none => simp
  | some start =>
      cases secondStart : second.primaryStart? with
      | none => simp [firstStart, secondStart] at before
      | some other =>
          rw [firstStart, secondStart, Option.some_lt_some] at before
          exact Option.some_le_some.mpr (Nat.le_of_lt before)

end DiagnosticQueue

/-! ### Diagnostics of failures -/

namespace GenerationError

theorem isError_diagnostic (error : GenerationError) : error.diagnostic.isError = true := by
  unfold diagnostic
  cases error <;> dsimp only <;> split <;> rfl

theorem message_diagnostic (error : GenerationError) :
    error.diagnostic.message = error.message := by
  unfold diagnostic
  cases error <;> dsimp only <;> split <;> rfl

/-- A failure that takes up space is shown where it begins. -/
theorem primaryStart?_diagnostic {error : GenerationError}
    (space : error.site.span.start < error.site.span.stop) :
    error.diagnostic.primaryStart? = some error.site.span.start := by
  have notDummy : error.site.span.isDummy = false := by
    apply Bool.eq_false_iff.mpr
    intro isDummy
    rw [eq_of_beq isDummy] at space
    exact Nat.lt_irrefl 0 space
  unfold diagnostic
  cases error <;> simp only [notDummy, Bool.false_eq_true, if_false] <;> rfl

/-- The class of a failure is that of its diagnostic. -/
theorem code_diagnostic (error : GenerationError) :
    error.abortCode = .unsupportedFeature ∧ error.diagnostic.code = .unsupportedFeature ∨
      error.abortCode = .malformedConstruct ∧ error.diagnostic.code = .malformedConstruct := by
  cases error with
  | unsupported site detail =>
      left
      refine ⟨rfl, ?_⟩
      unfold diagnostic
      dsimp only
      split <;> rfl
  | malformed site expected =>
      right
      refine ⟨rfl, ?_⟩
      unfold diagnostic
      dsimp only
      split <;> rfl

end GenerationError

/-! ### Places of failures -/

/-- A failure takes up space inside its own statement. -/
theorem Generator.failure_inside {generator : Generator} {stmt : Stmt} {error : GenerationError}
    {own : List Token} (states : States own stmt) (orderly : Orderly own)
    (failed : generator.statement stmt = .error error) :
    error.site.span.start < error.site.span.stop ∧ stmt.span.start ≤ error.site.span.start ∧
      error.site.span.stop ≤ stmt.span.stop := by
  rcases Cpp.place_of_statement failed with located | ⟨node, member, located⟩
  · rw [located]
    exact ⟨states.bounds.nonempty orderly, Nat.le_refl _, Nat.le_refl _⟩
  · rw [located]
    have inside := states.bounds.inside orderly ((states.holds member).anchored orderly)
    obtain ⟨core, within, forms⟩ := states.holds member
    exact ⟨(Occupies.bare forms).nonempty (orderly.of_isInfix within), inside⟩

/-- The failures of a module take up space one after the other. -/
structure FailuresApart (failures : List GenerationError) : Prop where
  space : ∀ failure ∈ failures, failure.site.span.start < failure.site.span.stop
  inOrder : failures.Pairwise fun first second => first.site.span.stop ≤ second.site.span.start

theorem Module.failuresApart {source : String} {tree : Module}
    (parsed : ofSource source = .ok tree) (generator : Generator) :
    FailuresApart (tree.body.filterMap generator.failure?) := by
  obtain ⟨tokens, tokenized, sequence⟩ := sequence_of_ofSource parsed
  have orderly := (stream_of_tokenize tokenized).orderly
  have inside {stmt : Stmt} {failure : GenerationError} (isStmt : stmt ∈ tree.body)
      (found : generator.failure? stmt = some failure) :
      failure.site.span.start < failure.site.span.stop ∧
        stmt.span.start ≤ failure.site.span.start ∧ failure.site.span.stop ≤ stmt.span.stop := by
    obtain ⟨own, within, states⟩ := sequence.states isStmt
    exact Generator.failure_inside states (orderly.of_isInfix within)
      (Generator.failure?_eq_some_iff.mp found)
  constructor
  · intro failure member
    obtain ⟨stmt, isStmt, found⟩ := List.mem_filterMap.mp member
    exact (inside isStmt found).1
  · apply List.pairwise_filterMap.mpr
    apply (sequence.apart orderly).imp_of_mem
    intro first second isFirst isSecond before earlier isEarlier later isLater
    have ends := (inside isFirst isEarlier).2.2
    have begins := (inside isSecond isLater).2.1
    omega

namespace FailuresApart

variable {failures : List GenerationError}

theorem increasing (apart : FailuresApart failures) :
    (failures.map (·.diagnostic)).Pairwise fun first second =>
      first.primaryStart? < second.primaryStart? := by
  apply List.pairwise_map.mpr
  apply apart.inOrder.imp_of_mem
  intro first second isFirst isSecond before
  have firstSpace := apart.space first isFirst
  rw [GenerationError.primaryStart?_diagnostic firstSpace,
    GenerationError.primaryStart?_diagnostic (apart.space second isSecond), Option.some_lt_some]
  omega

/-- No two failures have the same diagnostic. -/
theorem nodup (apart : FailuresApart failures) : (failures.map (·.diagnostic)).Nodup := by
  apply apart.increasing.imp
  intro first second before same
  rw [same] at before
  cases start : second.primaryStart? with
  | none => simp [start] at before
  | some place =>
      rw [start, Option.some_lt_some] at before
      exact Nat.lt_irrefl _ before

end FailuresApart

/-! ### The report -/

/-- A report shows the first twenty failures, then how many more there are, then how many are
shown if there are several. -/
structure Report.Shows (report : Report) (terminal : Terminal) (failures : List GenerationError) :
    Prop where
  text : report.text =
    String.join ((failures.take 20).map fun failure => terminal.render failure.diagnostic) ++
      (if 20 < failures.length then
        let hidden := failures.length - 20
        terminal.render ⟨.tooManyErrors, .warning,
          toString hidden ++ " more error" ++ (if hidden = 1 then "" else "s") ++ " not shown",
          [], []⟩
      else "") ++
      (if 1 < failures.length then
        renderSegments terminal.useColors [.styled .error "error",
          .plain (": aborting due to " ++ toString (min failures.length 20) ++
            " previous errors\n")]
      else "")
  errorCount : report.errorCount = min failures.length 20

theorem Terminal.renderAll_append (terminal : Terminal) (first second : List Diagnostic) :
    terminal.renderAll (first ++ second) =
      terminal.renderAll first ++ terminal.renderAll second := by
  simp [renderAll]

theorem Terminal.renderAll_singleton (terminal : Terminal) (diagnostic : Diagnostic) :
    terminal.renderAll [diagnostic] = terminal.render diagnostic := by
  simp [renderAll]

theorem Terminal.summary_of_several (terminal : Terminal) {errors : Nat} (several : 1 < errors) :
    terminal.summary errors 0 =
      renderSegments terminal.useColors [.styled .error "error",
        .plain (": aborting due to " ++ toString errors ++ " previous errors\n")] := by
  have some : 0 < errors := by omega
  have notOne : errors ≠ 1 := by omega
  rw [summary, summarySegments, if_pos some, if_neg notOne]
  simp [String.append_assoc]

/-- A queue with the standard limits yields the first twenty failures as they are. -/
theorem FailuresApart.flush_eq {failures : List GenerationError} (apart : FailuresApart failures) :
    (DiagnosticQueue.holding .standard (failures.map (·.diagnostic))).flush.1 =
      (failures.take 20).map (·.diagnostic) ++
        if 20 < failures.length then [DiagnosticQueue.overflowWarning (failures.length - 20)]
        else [] := by
  have shown : ((failures.map (·.diagnostic)).take 20).Pairwise fun first second =>
      first.primaryStart? < second.primaryStart? :=
    apart.increasing.sublist (List.take_sublist _ _)
  have inOrder := DiagnosticQueue.inSourceOrder_of_increasing shown
  have overflows : 0 < failures.length - 20 ↔ 20 < failures.length := Nat.sub_pos_iff_lt
  simp only [DiagnosticQueue.flush, DiagnosticQueue.holding, QueueConfig.standard, inOrder,
    List.length_map, overflows, List.map_take]

/-- Failures that follow each other are reported once each and in their order. -/
theorem FailuresApart.report_shows {failures : List GenerationError}
    (apart : FailuresApart failures) (terminal : Terminal) :
    (terminal.report (failures.map (·.diagnostic))).Shows terminal failures := by
  have allErrors : ∀ diagnostic ∈ failures.map (·.diagnostic), diagnostic.isError = true := by
    intro diagnostic member
    obtain ⟨failure, _, rfl⟩ := List.mem_map.mp member
    exact failure.isError_diagnostic
  have queued : (DiagnosticQueue.new .standard).addAll (failures.map (·.diagnostic)) = _ :=
    DiagnosticQueue.addAll_distinct_errors (by decide) apart.nodup allErrors
  have counted : (DiagnosticQueue.holding .standard (failures.map (·.diagnostic))).errorCount =
      min failures.length 20 := by
    simp [DiagnosticQueue.holding, QueueConfig.standard]
  constructor
  · rw [Terminal.report, queued]
    show terminal.renderAll _ ++ (if 1 < _ then terminal.summary _ 0 else "") = _
    rw [apart.flush_eq, counted, Terminal.renderAll_append, Terminal.renderAll, List.map_map]
    congr 1
    · congr 1
      by_cases overflows : 20 < failures.length
      · rw [if_pos overflows, if_pos overflows, Terminal.renderAll_singleton,
          DiagnosticQueue.overflowWarning_eq]
      · rw [if_neg overflows, if_neg overflows]
        rfl
    · by_cases several : 1 < failures.length
      · rw [if_pos several, if_pos (by omega), terminal.summary_of_several (by omega)]
      · rw [if_neg several, if_neg (by omega)]
  · rw [Terminal.report, queued]
    exact counted

/-! ### The run -/

private theorem compileModule_of_collected {format : String} {options : GenerationOptions}
    {tree : Module} {generator : Generator}
    (known : Generator.ofFormat? format options = some generator)
    (collects : options.policy = .collectAll)
    (fails : tree.body.filterMap generator.failure? ≠ []) :
    compileModule format options tree =
      .error (.generation (tree.body.filterMap generator.failure?)) := by
  have sameOptions : generator.options = options := by
    obtain ⟨format, _, rfl⟩ := Option.map_eq_some_iff.mp known
    rfl
  have generated : generator.generate tree = generator.generateCollecting tree := by
    rw [Generator.generate, sameOptions, collects]
  rw [compileModule, known]
  dsimp only
  rw [generated, Generator.generateCollecting_eq, Generated.hasErrors, Generated.isSuccess,
    List.isEmpty_eq_false_iff.mpr fails]
  rfl

/-- The failure of a run covers the failures of statements: every report of it shows them once
each and in source order, and it is announced as the first of them. -/
structure RunError.Covers (error : RunError) (failures : List GenerationError) : Prop where
  shows : ∀ terminal : Terminal, (terminal.report error.diagnostics).Shows terminal failures
  distinct : (failures.map (·.diagnostic)).Nodup
  inOrder : failures.Pairwise fun first second => first.site.span.stop ≤ second.site.span.start
  announces : ∃ first others, failures = first :: others ∧
    error.abortCode = first.abortCode ∧ error.abortMessage = first.diagnostic.message ∧
    (first.abortCode = .unsupportedFeature ∧ first.diagnostic.code = .unsupportedFeature ∨
      first.abortCode = .malformedConstruct ∧ first.diagnostic.code = .malformedConstruct)

theorem FailuresApart.covers {failures : List GenerationError} (apart : FailuresApart failures)
    (fails : failures ≠ []) : (RunError.generation failures).Covers failures where
  shows := apart.report_shows
  distinct := apart.nodup
  inOrder := apart.inOrder
  announces := by
    cases failures with
    | nil => exact absurd rfl fails
    | cons first others =>
        exact ⟨first, others, rfl, rfl, first.message_diagnostic.symm, first.code_diagnostic⟩

/-- Keeping going: if statements of a source that parses fail, the run fails with all of their
failures. Each of them is reported once and in source order up to the limit of twenty, with a
warning about the others, and the first one is announced. -/
theorem Options.transpile_keeps_going {m : Type → Type} [Monad m] (storage : Storage m)
    (options : Options) (source : String) (tree : Module) (generator : Generator)
    (parses : Module.ofSource source = .ok tree) (noListing : options.listTree = false)
    (keepsGoing : options.keepGoing = true)
    (known : Generator.ofFormat? options.resolvedFormat options.generationOptions = some generator)
    (fails : ∃ stmt ∈ tree.body, ∃ error, generator.statement stmt = .error error) :
    ∃ error, options.transpile storage source = pure (.error (.fault error)) ∧
      error.Covers (tree.body.filterMap generator.failure?) := by
  obtain ⟨stmt, isStmt, failure, failed⟩ := fails
  have some : tree.body.filterMap generator.failure? ≠ [] := by
    apply List.ne_nil_of_mem (a := failure)
    exact List.mem_filterMap.mpr ⟨stmt, isStmt, Generator.failure?_eq_some_iff.mpr failed⟩
  have collects : options.generationOptions.policy = .collectAll := by
    rw [generationOptions, keepsGoing]
    rfl
  have produced : options.produce source =
      .error (.fault (.generation (tree.body.filterMap generator.failure?))) := by
    rw [produce_of_code parses noListing, compileModule_of_collected known collects some]
    rfl
  refine ⟨_, ?_, (Module.failuresApart parses generator).covers some⟩
  rw [transpile, produced]

/-- Twenty-one statements that fail: one failure is not shown. -/
theorem Options.transpile_keeps_going_overflow :
    let options : Options := { inputs := ["a.py"], keepGoing := true }
    let source := "pass;pass;pass;pass;pass;pass;pass\npass;pass;pass;pass;pass;pass;pass\n" ++
      "pass;pass;pass;pass;pass;pass;pass"
    let failures := (List.range 21).map fun index =>
      GenerationError.unsupported
        ⟨"generator/cpp", "statement", "Pass", ⟨5 * index, 5 * index + 4⟩⟩ none
    ∃ error, options.transpile FileTree.storage source = pure (.error (.fault error)) ∧
      error.Covers failures ∧ failures.length = 21 := by
  intro options source failures
  let generator : Generator := ⟨.cpp, options.generationOptions⟩
  have read : (Module.ofSource source).toOption.map
      (fun tree => tree.body.filterMap generator.failure?) = some failures := by decide +kernel
  obtain ⟨tree, parses, failing⟩ := exists_eq_ok_of_toOption_map read
  have fails : ∃ stmt ∈ tree.body, ∃ error, generator.statement stmt = .error error := by
    have first : failures[0] ∈ tree.body.filterMap generator.failure? := by
      rw [failing]
      exact List.getElem_mem _
    obtain ⟨stmt, isStmt, isFailure⟩ := List.mem_filterMap.mp first
    exact ⟨stmt, isStmt, _, Generator.failure?_eq_some_iff.mp isFailure⟩
  obtain ⟨error, transpiled, covers⟩ := options.transpile_keeps_going FileTree.storage source tree
    generator parses rfl rfl (by decide +kernel) fails
  rw [failing] at covers
  exact ⟨error, transpiled, covers, rfl⟩

end Transpiler
