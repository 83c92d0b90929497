import Transpiler.Proofs.Command.Atomicity
import Transpiler.Proofs.Grammar.SpanNesting

/-!
Contract: failures point into the source that they are about.

Owns: locations that begin and end between characters, that tokens and nodes have such
locations, at which node a failed generation stopped, and that every label of a failure has such
a location, whichever step failed.

Does not own: how a location is shown.
-/

namespace Transpiler

open Extent

/-- An offset before the first character of a text, between two of them or after the last. -/
def Text.IsBoundary (text : List Char) (offset : Nat) : Prop :=
  ∃ front rest, text = front ++ rest ∧ byteLength front = offset

/-- A location in a text that begins and ends between characters. -/
structure Span.Within (span : Span) (text : List Char) : Prop where
  start : Text.IsBoundary text span.start
  stop : Text.IsBoundary text span.stop
  forward : span.start ≤ span.stop

/-- The labels of a diagnostic lie in a text. -/
def Diagnostic.PointsInto (diagnostic : Diagnostic) (text : List Char) : Prop :=
  ∀ label ∈ diagnostic.labels, label.span.Within text

theorem Span.Within.dummy (text : List Char) : Span.dummy.Within text :=
  ⟨⟨[], text, rfl, rfl⟩, ⟨[], text, rfl, rfl⟩, Nat.le_refl 0⟩

/-! ### Tokens and nodes -/

namespace Layout

theorem IsCut.isBoundary {text : List Char} {lexemes : List Lexeme} {offset : Nat}
    (cuts : Lexeme.Cuts text lexemes) (cut : IsCut lexemes offset) :
    Text.IsBoundary text offset := by
  obtain ⟨front, ⟨rest, rfl⟩, rfl⟩ := cut
  refine ⟨front.flatMap (·.text), rest.flatMap (·.text), ?_, rfl⟩
  rw [← cuts.flatMap_text, List.flatMap_append]

/-- A lexeme that stops the layout is located, and so is the margin before it. -/
theorem Fails.within {text : List Char} {before after : List Lexeme} {lexeme : Lexeme}
    {tokens : List Token} {state : State} {error : LexError}
    (fails : Fails state (extent before) lexeme (.fault error))
    (cuts : Lexeme.Cuts text (before ++ lexeme :: after)) (placed : Placed before tokens state) :
    error.span.Within text := by
  have here : IsCut (before ++ lexeme :: after) (extent before) := (IsCut.whole before).append _
  have there : IsCut (before ++ lexeme :: after) (extent before + Text.byteLength lexeme.text) := by
    have whole := (IsCut.whole (before ++ [lexeme])).append after
    rw [List.append_assoc, List.singleton_append] at whole
    simpa [extent] using whole
  cases fails with
  | stray | value => exact ⟨here.isBoundary cuts, there.isBoundary cuts, Nat.le_add_right _ _⟩
  | margin _ _ noToken =>
      have start := placed.margin _ noToken
      exact ⟨(start.append _).isBoundary cuts, here.isBoundary cuts, start.le_extent⟩

end Layout

theorem LexError.within_of_tokenize {source : String} {error : LexError}
    (failed : tokenize source = .error (.fault error)) : error.span.Within source.toList := by
  have cuts := Lexeme.cuts_split source.toList
  rcases Nat.lt_or_ge Span.offsetLimit source.utf8ByteSize with large | small
  · obtain rfl := Halt.fault.inj (Except.error.inj ((tokenize_of_large large).symm.trans failed))
    exact .dummy _
  · rw [tokenize_of_small small] at failed
    obtain ⟨before, lexeme, after, added, here, shape, runs, fails⟩ :=
      Layout.arrange_eq_error_iff.mp failed
    rw [shape] at cuts
    rw [Nat.zero_add] at fails
    exact fails.within cuts (Layout.placed_of_runs cuts runs)

theorem Extent.Anchored.within {source : String} {tokens : List Token} {span : Span}
    (anchored : Anchored tokens span) (tokenized : tokenize source = .ok tokens) :
    span.Within source.toList := by
  have ordered := Layout.ordered_of_tokenize tokenized
  have cuts := Lexeme.cuts_split source.toList
  obtain ⟨first, isFirst, start⟩ := anchored.start
  obtain ⟨last, isLast, stop⟩ := anchored.stop
  refine ⟨?_, ?_, anchored.forward⟩
  · rw [start]
    exact (ordered.cuts first isFirst).1.isBoundary cuts
  · rw [stop]
    exact (ordered.cuts last isLast).2.isBoundary cuts

/-! ### Failed generation -/

namespace Cpp

variable {context : Context} {error : GenerationError}

/-- What fails is the first step, or the rest after it. -/
theorem error_of_bind {α β : Type} {first : Except GenerationError α}
    {next : α → Except GenerationError β} (failed : first >>= next = .error error) :
    first = .error error ∨ ∃ value, next value = .error error := by
  cases first with
  | error cause => exact .inl (congrArg Except.error (Except.error.inj failed))
  | ok value => exact .inr ⟨value, failed⟩

/-- A node of a part is a node of the whole. -/
private theorem node_of_part {expr part : Expr} (isPart : part ∈ expr.children)
    (found : ∃ node ∈ part.nodes, error.site.span = node.span) :
    ∃ node ∈ expr.nodes, error.site.span = node.span := by
  obtain ⟨node, member, located⟩ := found
  exact ⟨node, Expr.mem_nodes_iff.mpr (.inr ⟨part, isPart, member⟩), located⟩

mutual

/-- Generation stops at a node of the expression. -/
private theorem node_of_expression : ∀ {expr : Expr}, expression context expr = .error error →
    ∃ node ∈ expr.nodes, error.site.span = node.span
  | .binary left operator right span, failed => by
      rw [expression] at failed
      rcases error_of_bind failed with inLeft | ⟨leftText, failed⟩
      · exact node_of_part (by simp [Expr.children]) (node_of_expression inLeft)
      rcases error_of_bind failed with inRight | ⟨rightText, failed⟩
      · exact node_of_part (by simp [Expr.children]) (node_of_expression inRight)
      split at failed
      · contradiction
      · exact ⟨_, Expr.mem_nodes_self _, by rw [← Except.error.inj failed]; rfl⟩
  | .call callee arguments span, failed => by
      rw [expression] at failed
      split at failed
      · refine node_of_part (by simp [Expr.children]) ⟨callee, callee.mem_nodes_self, ?_⟩
        rw [← Except.error.inj failed]
        rfl
      · rcases error_of_bind failed with inArguments | ⟨texts, failed⟩
        · obtain ⟨node, member, located⟩ := node_of_expressions inArguments
          obtain ⟨argument, isArgument, member⟩ := List.mem_flatMap.mp member
          exact node_of_part (by simp [Expr.children, isArgument]) ⟨node, member, located⟩
        · contradiction
  | .constant value span, failed => by
      rw [expression] at failed
      split at failed
      · contradiction
      · exact ⟨_, Expr.mem_nodes_self _, by rw [← Except.error.inj failed]; rfl⟩
  | .name .., failed => by contradiction
  | .unary .., failed | .member .., failed | .list .., failed | .tuple .., failed
  | .unsupported .., failed =>
      ⟨_, Expr.mem_nodes_self _, by rw [← Except.error.inj failed]; rfl⟩

theorem node_of_expressions : ∀ {arguments : List Expr},
    expressions context arguments = .error error →
      ∃ node ∈ arguments.flatMap Expr.nodes, error.site.span = node.span
  | first :: rest, failed => by
      rw [expressions] at failed
      rw [List.flatMap_cons]
      rcases error_of_bind failed with inFirst | ⟨text, failed⟩
      · obtain ⟨node, member, located⟩ := node_of_expression inFirst
        exact ⟨node, List.mem_append_left _ member, located⟩
      rcases error_of_bind failed with inRest | ⟨texts, failed⟩
      · obtain ⟨node, member, located⟩ := node_of_expressions inRest
        exact ⟨node, List.mem_append_right _ member, located⟩
      · contradiction

end

private theorem span_of_bareName {category : String} {expr : Expr}
    (failed : bareName context category expr = .error error) : error.site.span = expr.span := by
  unfold bareName at failed
  split at failed
  · contradiction
  · rw [← Except.error.inj failed]
    rfl

/-- Generation stops at the statement or at a node of it. -/
theorem place_of_statement {stmt : Stmt} (failed : statement context stmt = .error error) :
    error.site.span = stmt.span ∨
      ∃ node ∈ stmt.children.flatMap Expr.nodes, error.site.span = node.span := by
  have atChild {part : Expr} (isPart : part ∈ stmt.children)
      (inPart : ∃ node ∈ part.nodes, error.site.span = node.span) :
      ∃ node ∈ stmt.children.flatMap Expr.nodes, error.site.span = node.span := by
    obtain ⟨node, member, located⟩ := inPart
    exact ⟨node, List.mem_flatMap.mpr ⟨part, isPart, member⟩, located⟩
  cases stmt with
  | annotated target annotation value span =>
      rw [statement] at failed
      rcases error_of_bind failed with inTarget | ⟨targetText, failed⟩
      · exact .inr (atChild (by simp [Stmt.children])
          ⟨_, Expr.mem_nodes_self target, span_of_bareName inTarget⟩)
      cases value with
      | none => exact .inl (by rw [← Except.error.inj failed]; rfl)
      | some value =>
          rcases error_of_bind failed with inValue | ⟨valueText, failed⟩
          · exact .inr (atChild (by simp [Stmt.children]) (node_of_expression inValue))
          rcases error_of_bind failed with inAnnotation | ⟨annotationText, failed⟩
          · exact .inr (atChild (by simp [Stmt.children])
              ⟨_, Expr.mem_nodes_self annotation, span_of_bareName inAnnotation⟩)
          · contradiction
  | expression value span =>
      rw [statement] at failed
      rcases error_of_bind failed with inValue | ⟨text, failed⟩
      · exact .inr (atChild (by simp [Stmt.children]) (node_of_expression inValue))
      · contradiction
  | assign | augmented | pass | unsupported =>
      exact .inl (by rw [← Except.error.inj failed]; rfl)

end Cpp

/-- What either policy reports are failures of statements. -/
theorem Generator.statement_of_mem_errors {generator : Generator} {tree : Module}
    {error : GenerationError} (member : error ∈ (generator.generate tree).errors) :
    ∃ stmt ∈ tree.body, generator.statement stmt = .error error := by
  have isFailure : error ∈ tree.body.filterMap generator.failure? := by
    cases policy : generator.options.policy with
    | collectAll =>
        rwa [generate, policy, generateCollecting_eq] at member
    | failFast =>
        rw [generate, policy, generateModule_eq] at member
        cases failures : tree.body.filterMap generator.failure? with
        | nil =>
            rw [failures] at member
            exact absurd member List.not_mem_nil
        | cons first others =>
            rw [failures] at member
            rw [List.mem_singleton.mp member]
            exact List.mem_cons_self
  obtain ⟨stmt, isStmt, failed⟩ := List.mem_filterMap.mp isFailure
  exact ⟨stmt, isStmt, failure?_eq_some_iff.mp failed⟩

theorem GenerationError.diagnostic_pointsInto {error : GenerationError} {text : List Char}
    (within : error.site.span.Within text) : error.diagnostic.PointsInto text := by
  intro label member
  have located : label.span = error.site.span := by
    cases error <;> grind [diagnostic, Diagnostic.withLabel, Diagnostic.withNote, Diagnostic.error]
  rwa [located]

/-! ### Every label -/

/-- What is wrong with a source is told with labels in it. -/
theorem ParseError.diagnostic_pointsInto {source : String} {error : ParseError}
    (failed : Module.ofSource source = .error (.fault error)) :
    error.diagnostic.PointsInto source.toList := by
  intro label member
  rcases Module.error_of_ofSource failed with ⟨cause, stopped, rfl⟩ | ⟨tokens, tokenized, points⟩
  · obtain rfl := List.mem_singleton.mp member
    exact LexError.within_of_tokenize stopped
  · exact (points label member).within tokenized

/-- The nodes of the tree of a source lie in the source. -/
theorem Module.within_of_ofSource {source : String} {tree : Module}
    (parsed : ofSource source = .ok tree) :
    (∀ stmt ∈ tree.body, stmt.span.Within source.toList) ∧
      ∀ node ∈ tree.nodes, node.span.Within source.toList := by
  obtain ⟨tokens, tokenized, sequence⟩ := sequence_of_ofSource parsed
  have orderly := (stream_of_tokenize tokenized).orderly
  constructor
  · intro stmt member
    exact (sequence.anchored orderly member).within tokenized
  · intro node member
    exact ((sequence.holds member).anchored orderly).within tokenized

/-- Every failure to generate a part of a source is told with labels in the source. -/
theorem Generator.diagnostic_pointsInto {generator : Generator} {source : String} {tree : Module}
    {error : GenerationError} (parsed : Module.ofSource source = .ok tree)
    (member : error ∈ (generator.generate tree).errors) :
    error.diagnostic.PointsInto source.toList := by
  obtain ⟨statements, nodes⟩ := Module.within_of_ofSource parsed
  obtain ⟨stmt, isStmt, failed⟩ := statement_of_mem_errors member
  apply GenerationError.diagnostic_pointsInto
  rcases Cpp.place_of_statement failed with located | ⟨node, isNode, located⟩
  · rw [located]
    exact statements stmt isStmt
  · rw [located]
    exact nodes node (List.mem_flatMap.mpr ⟨stmt, isStmt, isNode⟩)

private theorem error_of_compileModule {format : String} {options : GenerationOptions}
    {tree : Module} {error : RunError} (failed : compileModule format options tree = .error error) :
    error = .unknownFormat format ∨
      ∃ generator : Generator, error = .generation (generator.generate tree).errors := by
  unfold compileModule at failed
  split at failed
  next => exact .inl (Except.error.inj failed).symm
  next generator _ =>
    dsimp only at failed
    split at failed
    · exact .inr ⟨generator, (Except.error.inj failed).symm⟩
    · contradiction

/-- The labels of a failure lie in the source that it is about. -/
theorem RunError.diagnostics_pointInto {options : Options} {source : String} {error : RunError}
    (failed : options.produce source = .error (.fault error)) :
    ∀ diagnostic ∈ error.diagnostics, diagnostic.PointsInto source.toList := by
  intro diagnostic shown
  cases parsed : Module.ofSource source with
  | error halt =>
      rw [Options.produce_of_source parsed] at failed
      cases halt with
      | overflow => cases Except.error.inj failed
      | fault cause =>
          obtain rfl : .source cause = error := Halt.fault.inj (Except.error.inj failed)
          obtain rfl := List.mem_singleton.mp shown
          exact ParseError.diagnostic_pointsInto parsed
  | ok tree =>
      cases listing : options.listTree with
      | true =>
          rw [Options.produce_of_listing parsed listing] at failed
          contradiction
      | false =>
          rw [Options.produce_of_code parsed listing] at failed
          cases compiled : compileModule options.resolvedFormat options.generationOptions tree with
          | ok code =>
              rw [compiled] at failed
              contradiction
          | error cause =>
              rw [compiled] at failed
              obtain rfl : cause = error := Halt.fault.inj (Except.error.inj failed)
              rcases error_of_compileModule compiled with rfl | ⟨generator, rfl⟩
              · obtain rfl := List.mem_singleton.mp shown
                intro label member
                exact absurd member List.not_mem_nil
              · obtain ⟨cause, isCause, rfl⟩ := List.mem_map.mp shown
                exact Generator.diagnostic_pointsInto parsed isCause

/-- A source that is too large is said to be so at its start. -/
theorem RunError.start_of_large {options : Options} {source : String} {error : RunError}
    (large : Span.offsetLimit < source.utf8ByteSize)
    (failed : options.produce source = .error (.fault error)) :
    ∀ diagnostic ∈ error.diagnostics, ∀ label ∈ diagnostic.labels, label.span.start = 0 := by
  intro diagnostic shown label member
  have stopped : Module.ofSource source =
      .error (.fault ⟨.lexical ⟨.sourceTooLarge, .dummy⟩, .dummy⟩) :=
    Module.ofSource_eq_fault_iff.mpr (.inl ⟨_, tokenize_of_large large, rfl⟩)
  rw [Options.produce_of_source stopped] at failed
  obtain rfl := Halt.fault.inj (Except.error.inj failed)
  obtain rfl := List.mem_singleton.mp shown
  obtain rfl := List.mem_singleton.mp member
  rfl

end Transpiler
