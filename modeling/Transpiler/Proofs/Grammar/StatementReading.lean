import Transpiler.Proofs.Grammar.ExpressionExtent

/-!
Contract: from which tokens the statements of a module are read.

Owns: one relation between tokens and the statements that are made of them, with a constructor for
each step by which the rules put statements, lines and modules together (`Reading.Statement`,
`Reading.Lines`, `Reading.Body`); that a module is read this way from the tokens before the first
end of file (`Module.body_of_ofTokens`); and that an error which stops reading points from one token
to another (`Module.pointsInto_of_ofTokens`).

A compound statement lies outside the subset: of its tokens only the first and the last are known.

Does not own: what follows from the relation for derivations, locations and trees.
-/

namespace Transpiler

open Extent

/-- The kinds of statements outside the subset. -/
def outsideStatements : List String :=
  ["Return", "Import", "ImportFrom", "Delete", "Global", "Nonlocal", "Raise", "Assert", "Break",
    "Continue", "If", "While", "For", "Try", "With", "FunctionDef", "ClassDef",
    "AsyncFunctionDef", "AsyncFor", "AsyncWith"]

private theorem mem_outside_of_keywordStatement? {word kindName : String}
    (found : keywordStatement? word = some kindName) : kindName ∈ outsideStatements := by
  unfold keywordStatement? at found
  split at found <;> cases found <;> decide

private theorem mem_outside_of_compoundKind? {cursor : Cursor} {kind : CompoundKind}
    (found : compoundKind? cursor = some kind) : kind.kindName ∈ outsideStatements := by
  unfold compoundKind? at found
  split at found
  case h_8 => split at found <;> cases found <;> decide
  all_goals cases found <;> decide

/-! ### The relation -/

namespace Reading

/-- The targets of an assignment, each with the equals sign after it. -/
inductive Targets : List Token → List Expr → Prop where
  | one {tokens : List Token} {sign : Token} {target : Expr}
      (item : Whole Level.nestingLimit tokens target)
      (accepted : checkTarget .assign target = .ok ()) (isSign : sign.kind = .equals) :
      Targets (tokens ++ [sign]) [target]
  | append {tokens others : List Token} {targets more : List Expr}
      (first : Targets tokens targets) (second : Targets others more) :
      Targets (tokens ++ others) (targets ++ more)

/-- The tokens from which a statement is read, but for its location. -/
inductive Statement : List Token → (Span → Stmt) → Prop where
  | pass {word : Token} (isWord : word.kind = .passWord) : Statement [word] .pass
  | expression {tokens : List Token} {value : Expr}
      (only : Whole Level.nestingLimit tokens value) : Statement tokens (.expression value)
  | declaration {tokens others : List Token} {colon : Token} {target annotation : Expr}
      (first : Whole Level.nestingLimit tokens target)
      (accepted : checkTarget .annotated target = .ok ()) (isColon : colon.kind = .colon)
      (second : Expression Level.nestingLimit 0 others annotation) :
      Statement (tokens ++ colon :: others) (.annotated target annotation none)
  | annotated {tokens others more : List Token} {colon sign : Token}
      {target annotation value : Expr} (first : Whole Level.nestingLimit tokens target)
      (accepted : checkTarget .annotated target = .ok ()) (isColon : colon.kind = .colon)
      (second : Expression Level.nestingLimit 0 others annotation) (isSign : sign.kind = .equals)
      (third : Whole Level.nestingLimit more value) :
      Statement (tokens ++ colon :: (others ++ sign :: more))
        (.annotated target annotation (some value))
  | assign {tokens others : List Token} {targets : List Expr} {value : Expr}
      (first : Targets tokens targets) (second : Whole Level.nestingLimit others value) :
      Statement (tokens ++ others) (.assign targets value)
  | augmented {tokens others : List Token} {sign : Token} {operator : BinaryOp}
      {target value : Expr} (first : Whole Level.nestingLimit tokens target)
      (accepted : checkTarget .augmented target = .ok ())
      (isSign : sign.kind = .augmented operator.symbol)
      (second : Whole Level.nestingLimit others value) :
      Statement (tokens ++ sign :: others) (.augmented target operator value)
  | outside {first : Token} {rest : List Token} {kindName : String}
      (isOutside : kindName ∈ outsideStatements) (visible : first.kind.isLayout = false) :
      Statement (first :: rest) (.unsupported kindName)

/-- A statement with its location, from the first to the last of its tokens. -/
inductive Located : List Token → Stmt → Prop where
  | cover {tokens : List Token} {first last : Token} {make : Span → Stmt}
      (statement : Statement tokens make) (isFirst : tokens.head? = some first)
      (isLast : tokens.getLast? = some last) : Located tokens (make (first.span.cover last.span))

/-- Statements of a line, each with a semicolon after it. -/
inductive Row : List Token → List Stmt → Prop where
  | none : Row [] []
  | more {tokens own : List Token} {mark : Token} {stmts : List Stmt} {stmt : Stmt}
      (before : Row tokens stmts) (item : Located own stmt) (isMark : mark.kind = .semicolon) :
      Row (tokens ++ (own ++ [mark])) (stmts ++ [stmt])

/-- A line without its end. One more semicolon may follow the last statement. -/
inductive Line : List Token → List Stmt → Prop where
  | last {tokens own : List Token} {stmts : List Stmt} {stmt : Stmt} (before : Row tokens stmts)
      (item : Located own stmt) : Line (tokens ++ own) (stmts ++ [stmt])
  | closed {tokens own : List Token} {mark : Token} {stmts : List Stmt} {stmt : Stmt}
      (before : Row tokens stmts) (item : Located own stmt) (isMark : mark.kind = .semicolon) :
      Line (tokens ++ (own ++ [mark])) (stmts ++ [stmt])

/-- Lines with their ends, blank lines, and compound statements with all of their lines. -/
inductive Lines : List Token → List Stmt → Prop where
  | none : Lines [] []
  | blank {mark : Token} (isBreak : mark.kind = .newline) : Lines [mark] []
  | line {tokens : List Token} {mark : Token} {stmts : List Stmt} (line : Line tokens stmts)
      (isBreak : mark.kind = .newline) : Lines (tokens ++ [mark]) stmts
  | compound {tokens trail : List Token} {kindName : String} {span : Span}
      (item : Located tokens (.unsupported kindName span)) :
      Lines (tokens ++ trail) [.unsupported kindName span]
  | append {tokens others : List Token} {stmts more : List Stmt} (first : Lines tokens stmts)
      (second : Lines others more) : Lines (tokens ++ others) (stmts ++ more)

/-- The lines of a module. The last one may end with the tokens. -/
inductive Body : List Token → List Stmt → Prop where
  | lines {tokens : List Token} {stmts : List Stmt} (lines : Lines tokens stmts) :
      Body tokens stmts
  | last {tokens own : List Token} {stmts more : List Stmt} (before : Lines tokens stmts)
      (line : Line own more) : Body (tokens ++ own) (stmts ++ more)

variable {tokens : List Token} {stmt : Stmt} {stmts : List Stmt}

theorem Targets.ne_nil {targets : List Expr} (read : Targets tokens targets) :
    tokens ≠ [] ∧ targets ≠ [] := by
  induction read with
  | one => simp
  | append _ _ inductionHypothesis => simp [inductionHypothesis]

theorem Statement.ne_nil {make : Span → Stmt} (read : Statement tokens make) : tokens ≠ [] := by
  cases read with
  | pass | outside => simp
  | expression only => exact only.occupies.ne_nil
  | declaration first | annotated first | augmented first =>
      exact List.append_ne_nil_of_left_ne_nil first.occupies.ne_nil _
  | assign first => exact List.append_ne_nil_of_left_ne_nil first.ne_nil.1 _

theorem Located.ne_nil (located : Located tokens stmt) : tokens ≠ [] := by
  cases located with
  | cover statement => exact statement.ne_nil

theorem Line.ne_nil (line : Line tokens stmts) : tokens ≠ [] := by
  cases line with
  | last _ item => exact List.append_ne_nil_of_right_ne_nil _ item.ne_nil
  | closed => simp

/-- Lines may follow others that have their ends. -/
theorem Lines.body {others : List Token} {more : List Stmt} (first : Lines tokens stmts)
    (second : Body others more) : Body (tokens ++ others) (stmts ++ more) := by
  cases second with
  | lines lines => exact .lines (first.append lines)
  | last before line =>
      rw [← List.append_assoc, ← List.append_assoc]
      exact .last (first.append before) line

end Reading

/-! ### Targets that are rejected -/

mutual

/-- What may not be assigned to is reported where one of its parts stands. -/
private theorem node_of_checkTarget {use : TargetUse} {error : ParseError} :
    ∀ target : Expr, checkTarget use target = .error error →
      error.kind.isLocal = true ∧ ∃ node ∈ target.nodes, error.span = node.span
  | .name .., failed | .member .., failed => by cases failed
  | .tuple elements span, failed => by
      cases use with
      | assign =>
          obtain ⟨isLocal, node, member, same⟩ := node_of_checkTargets elements failed
          refine ⟨isLocal, node, ?_, same⟩
          rw [Expr.nodes_eq]
          exact List.mem_cons_of_mem _ member
      | annotated | augmented =>
          obtain rfl := Except.error.inj failed
          exact ⟨rfl, _, Expr.mem_nodes_self _, rfl⟩
  | .list elements span, failed => by
      cases use with
      | assign =>
          obtain ⟨isLocal, node, member, same⟩ := node_of_checkTargets elements failed
          refine ⟨isLocal, node, ?_, same⟩
          rw [Expr.nodes_eq]
          exact List.mem_cons_of_mem _ member
      | annotated | augmented =>
          obtain rfl := Except.error.inj failed
          exact ⟨rfl, _, Expr.mem_nodes_self _, rfl⟩
  | .constant value span, failed => by
      have known : ∃ text, error = ⟨use.invalid text, span⟩ := by
        cases value <;> exact ⟨_, (Except.error.inj failed).symm⟩
      obtain ⟨text, rfl⟩ := known
      exact ⟨by cases use <;> rfl, _, Expr.mem_nodes_self _, rfl⟩
  | .unsupported kindName span, failed => by
      rw [checkTarget] at failed
      split at failed
      · cases failed
      · obtain rfl := Except.error.inj failed
        exact ⟨by cases use <;> rfl, _, Expr.mem_nodes_self _, rfl⟩
  | .call .., failed | .binary .., failed | .unary .., failed => by
      obtain rfl := Except.error.inj failed
      exact ⟨by cases use <;> rfl, _, Expr.mem_nodes_self _, rfl⟩

theorem node_of_checkTargets {use : TargetUse} {error : ParseError} :
    ∀ targets : List Expr, checkTargets use targets = .error error →
      error.kind.isLocal = true ∧ ∃ node ∈ targets.flatMap Expr.nodes, error.span = node.span
  | [], failed => by cases failed
  | first :: rest, failed => by
      rw [checkTargets] at failed
      rw [List.flatMap_cons]
      cases outcome : checkTarget use first with
      | error cause =>
          rw [outcome] at failed
          obtain rfl := Except.error.inj failed
          obtain ⟨isLocal, node, member, same⟩ := node_of_checkTarget first outcome
          exact ⟨isLocal, node, List.mem_append_left _ member, same⟩
      | ok =>
          rw [outcome] at failed
          obtain ⟨isLocal, node, member, same⟩ := node_of_checkTargets rest failed
          exact ⟨isLocal, node, List.mem_append_right _ member, same⟩

end

namespace Parser

section

variable {all : List Token} {start stop : Cursor}

/-- A statement is read from the tokens between two places. -/
def ParsedStatement (start : Cursor) (stmt : Stmt) (stop : Cursor) : Prop :=
  ∃ tokens, start.Passes tokens stop ∧ Reading.Located tokens stmt

/-- What is read from the tokens between two places is a statement, once it has a location. -/
def Completes (start : Cursor) (make : Span → Stmt) (stop : Cursor) : Prop :=
  ∃ tokens, start.Passes tokens stop ∧ Reading.Statement tokens make

theorem Completes.parsed {make : Span → Stmt} (completes : Completes start make stop) :
    ParsedStatement start (make (start.current.span.cover stop.previous)) stop := by
  obtain ⟨tokens, passes, read⟩ := completes
  obtain ⟨last, isLast, previous⟩ := exists_last passes read.ne_nil
  rw [previous]
  exact ⟨tokens, passes, .cover read (passes.head?_eq read.ne_nil) isLast⟩

/-! ### Simple statements -/

theorem meets_expressions {cursor : Cursor} (inside : cursor.In all) :
    expressions.Meets cursor (ParsedWhole Level.nestingLimit cursor) (Points all) :=
  meets_expressionList (levelReads_withRoom all Level.nestingLimit).expression inside

/-- A target is accepted, or the error points at one of its parts. -/
theorem requireTarget_points {use : TargetUse} {target : Expr} {tokens : List Token}
    {place : Cursor} {post : Unit → Cursor → Prop}
    (read : Reading.Whole Level.nestingLimit tokens target) (within : tokens <:+: all)
    (accepted : checkTarget use target = .ok () → post () place) :
    (requireTarget use target).Meets place post (Points all) := by
  rw [requireTarget, meets_liftM]
  refine ⟨fun _ isOk => accepted isOk, ?_⟩
  intro error failed stream
  obtain ⟨isLocal, node, member, same⟩ := node_of_checkTarget target failed
  refine ParseError.pointsInto isLocal ?_
  rw [same]
  exact ((read.occupies.holds member).mono within).anchored stream.orderly

private theorem meets_annotatedRest {place : Cursor} {target : Expr} (inside : start.In all)
    (parsed : ParsedWhole Level.nestingLimit start target place)
    (atColon : place.current.kind = .colon) :
    (annotatedRest target).Meets place (Completes start) (Points all) := by
  obtain ⟨tokens, passes, first⟩ := parsed
  rw [annotatedRest, meets_bind]
  refine requireTarget_points first (inside.taken_isInfix passes) ?_
  intro accepted
  simp only [meets_bind, meets_advance, meets_eat, meets_ite, meets_currentKind, meets_pure,
    Bool.false_eq_true, not_true_eq_false, not_false_eq_true, false_implies, true_and, and_true,
    forall_const]
  have started := (inside.passes passes).advance_of atColon rfl
  have reader := (levelReads_withRoom all Level.nestingLimit).expression
  refine (reader place.advance started).mono ?_
  rintro annotation middle ⟨others, passesOthers, second⟩
  have colon : place.Passes [place.current] place.advance := .advance_of atColon rfl
  have here := started.passes passesOthers
  refine ⟨?_, fun _ => ⟨fun _ => ?_, fun _ => unexpected_points here⟩⟩
  · intro atEquals
    refine (meets_expressions (here.advance_of atEquals rfl)).mono ?_
    rintro value stop ⟨more, passesMore, third⟩
    have rest := passesOthers.trans (.trans (.advance_of atEquals rfl) passesMore)
    exact ⟨_, passes.trans (colon.trans rest),
      .annotated first accepted atColon second atEquals third⟩
  · exact ⟨_, passes.trans (colon.trans passesOthers),
      .declaration first accepted atColon second⟩

/-- Targets have been read, and after them a value that may turn out to be one more. -/
def TargetsRead (start : Cursor) (state : List Expr × Expr) (place : Cursor) : Prop :=
  ∃ tokens own, start.Passes (tokens ++ own) place ∧ Reading.Targets tokens state.1 ∧
    Reading.Whole Level.nestingLimit own state.2

private theorem meets_targetRound {place : Cursor} {state : List Expr × Expr}
    (inside : start.In all) (read : TargetsRead start state place) :
    (targetRound state).Meets place (Keeps (TargetsRead start) (TargetsRead start) place)
      (Points all) := by
  rw [targetRound, meets_bind, meets_eat]
  refine ⟨?_, fun _ => meets_pure.mpr read⟩
  intro atEquals
  obtain ⟨tokens, own, passes, targets, value⟩ := read
  rw [if_pos rfl, meets_bind]
  refine requireTarget_points value
    ((List.suffix_append tokens own).isInfix.trans (inside.taken_isInfix passes)) ?_
  intro accepted
  simp only [meets_bind, meets_pure]
  refine (meets_expressions ((inside.passes passes).advance_of atEquals rfl)).mono ?_
  rintro next stop ⟨more, passesMore, nextRead⟩
  have further := Cursor.Passes.trans (.advance_of atEquals rfl) passesMore
  refine ⟨⟨tokens ++ (own ++ [place.current]), more, ?_,
    targets.append (.one value accepted atEquals), nextRead⟩, further.progress (by simp)⟩
  simpa using passes.trans further

private theorem meets_assignRest {place : Cursor} {first : Expr} (inside : start.In all)
    (parsed : ParsedWhole Level.nestingLimit start first place)
    (atEquals : place.current.kind = .equals) :
    (assignRest first).Meets place (Completes start) (Points all) := by
  obtain ⟨tokens, passes, read⟩ := parsed
  rw [assignRest_eq, meets_bind]
  refine requireTarget_points read (inside.taken_isInfix passes) ?_
  intro accepted
  simp only [meets_bind, meets_advance, meets_pure]
  have signed := passes.trans (.advance_of atEquals rfl)
  refine (meets_expressions (inside.passes signed)).mono ?_
  rintro value middle ⟨own, passesOwn, valueRead⟩
  have initial : TargetsRead start ([first], value) middle :=
    ⟨_, own, signed.trans passesOwn, .one read accepted atEquals, valueRead⟩
  have targets : (iterate targetRound ([first], value)).Meets middle (TargetsRead start)
      (Points all) :=
    meets_iterate (TargetsRead start) initial fun _ _ => meets_targetRound inside
  refine targets.mono ?_
  rintro ⟨_, _⟩ stop ⟨_, _, whole, before, last⟩
  exact ⟨_, whole, .assign before last⟩

private theorem symbol_of_ofSymbol? {symbol : String} {operator : BinaryOp}
    (found : BinaryOp.ofSymbol? symbol = some operator) : operator.symbol = symbol := by
  have matching := List.find?_some found
  exact eq_of_beq matching

private theorem meets_augmentedRest {place : Cursor} {target : Expr} {symbol : String}
    (inside : start.In all) (parsed : ParsedWhole Level.nestingLimit start target place)
    (atSign : place.current.kind = .augmented symbol) :
    (augmentedRest target symbol).Meets place (Completes start) (Points all) := by
  obtain ⟨tokens, passes, first⟩ := parsed
  have here := inside.passes passes
  rw [augmentedRest]
  split
  next => exact failHere_points here rfl
  next operator found =>
    rw [meets_bind, meets_advance, meets_bind]
    refine requireTarget_points first (inside.taken_isInfix passes) ?_
    intro accepted
    simp only [meets_bind, meets_pure]
    refine (meets_expressions (here.advance_of atSign rfl)).mono ?_
    rintro value stop ⟨others, passesOthers, second⟩
    have sign : place.Passes [place.current] place.advance := .advance_of atSign rfl
    rw [← symbol_of_ofSymbol? found] at atSign
    exact ⟨_, passes.trans (sign.trans passesOthers), .augmented first accepted atSign second⟩

private theorem meets_expressionStatement {cursor : Cursor} (inside : cursor.In all) :
    expressionStatement.Meets cursor (ParsedStatement cursor) (Points all) := by
  rw [expressionStatement_eq]
  simp only [meets_bind, meets_currentSpan, meets_currentKind, meets_previousSpan, meets_pure]
  refine (meets_expressions inside).mono ?_
  intro first place parsed
  have follows : (statementRest first place.current.kind).Meets place (Completes cursor)
      (Points all) := by
    cases atKind : place.current.kind with
    | colon => exact meets_annotatedRest inside parsed atKind
    | equals => exact meets_assignRest inside parsed atKind
    | augmented symbol => exact meets_augmentedRest inside parsed atKind
    | _ =>
        obtain ⟨tokens, passes, only⟩ := parsed
        exact meets_pure.mpr ⟨tokens, passes, .expression only⟩
  exact follows.mono fun make stop completes => completes.parsed

/-! ### Tokens that are passed over -/

theorem meets_takeUntil {stops : TokenKind → Bool} {cursor : Cursor} {fault : ParseError → Prop} :
    (takeUntil stops).Meets cursor (fun tokens after => cursor.Passes tokens after ∧
      (cursor.current.kind ≠ .endOfFile → stops cursor.current.kind = false → tokens ≠ []))
      fault := by
  simp only [takeUntil, meets_bind, meets_get, meets_set, meets_pure]
  refine ⟨.skip_of_isPrefix (List.takeWhile_prefix _) ?_, ?_⟩
  · intro token member
    have kept := List.all_eq_true.mp List.all_takeWhile token member
    simp_all
  · obtain ⟨remaining, previous⟩ := cursor
    cases remaining with
    | nil => exact fun notEnd => absurd rfl notEnd
    | cons token rest =>
        intro notEnd goesOn
        simp_all

private theorem meets_simpleStatement {cursor : Cursor} (inside : cursor.In all) :
    simpleStatement.Meets cursor (ParsedStatement cursor) (Points all) := by
  rw [simpleStatement, meets_bind, meets_currentKind]
  split
  next atPass =>
    rw [meets_bind, meets_advance, meets_pure]
    have located : Reading.Located [cursor.current] _ := .cover (.pass atPass) rfl rfl
    refine ⟨_, .advance_of atPass rfl, ?_⟩
    simpa [Span.cover] using located
  next word atWord =>
    split
    next kindName found =>
      simp only [meets_bind, meets_advance, meets_previousSpan, meets_pure]
      refine meets_takeUntil.mono ?_
      rintro skipped stop ⟨passes, _⟩
      have completes : Completes cursor (.unsupported kindName) stop :=
        ⟨_, .trans (.advance_of atWord rfl) passes,
          .outside (mem_outside_of_keywordStatement? found) (by rw [atWord]; rfl)⟩
      exact completes.parsed
    next => exact meets_expressionStatement inside
  next => exact meets_expressionStatement inside

/-! ### Compound statements -/

/-- One of the tokens between two places has the location. -/
def Ends (start : Cursor) (last : Span) (stop : Cursor) : Prop :=
  ∃ inside trail token, start.Passes (inside ++ trail) stop ∧
    inside.getLast? = some token ∧ token.span = last

theorem Ends.after {taken : List Token} {last : Span} (ends : Ends middle last stop)
    (passes : start.Passes taken middle) : Ends start last stop := by
  obtain ⟨inside, trail, token, passesMore, isLast, same⟩ := ends
  refine ⟨taken ++ inside, trail, token, ?_, ?_, same⟩
  · rw [List.append_assoc]
    exact passes.trans passesMore
  · rw [List.getLast?_append_of_ne_nil _ (List.ne_nil_of_mem (List.mem_of_getLast? isLast)), isLast]

theorem Ends.before {taken : List Token} {last : Span} (ends : Ends start last middle)
    (passes : middle.Passes taken stop) : Ends start last stop := by
  obtain ⟨inside, trail, token, passesFirst, isLast, same⟩ := ends
  refine ⟨inside, trail ++ taken, token, ?_, isLast, same⟩
  rw [← List.append_assoc]
  exact passesFirst.trans passes

theorem Ends.passes {last : Span} (ends : Ends start last stop) :
    ∃ taken, start.Passes taken stop ∧ taken ≠ [] := by
  obtain ⟨inside, trail, token, passes, isLast, _⟩ := ends
  refine ⟨inside ++ trail, passes, ?_⟩
  exact List.append_ne_nil_of_left_ne_nil (List.ne_nil_of_mem (List.mem_of_getLast? isLast)) trail

/-- A location that is remembered unless a later one is found. -/
theorem Ends.visible {body : List Token} {last : Span} {keep : Token → Bool}
    (ends : Ends start last middle) (passes : middle.Passes body stop) :
    Ends start (((body.filter keep).getLast?.map (·.span)).getD last) stop := by
  cases isLast : (body.filter keep).getLast? with
  | none => exact ends.before passes
  | some token =>
      have member : token ∈ body := List.mem_of_mem_filter (List.mem_of_getLast? isLast)
      obtain ⟨front, rest, rfl⟩ := List.append_of_mem member
      obtain ⟨taken, passesFirst, _⟩ := ends.passes
      refine Ends.after ⟨front ++ [token], rest, token, by simpa using passes, by simp, rfl⟩
        passesFirst

private theorem meets_skipClause {cursor : Cursor} (inside : cursor.In all)
    (goesOn : endsLine cursor.current.kind = false) :
    skipClause.Meets cursor (Ends cursor) (Points all) := by
  have notEndOfFile : cursor.current.kind ≠ .endOfFile := by
    intro isEnd
    simp [isEnd, endsLine] at goesOn
  rw [skipClause, meets_bind, meets_currentSpan, meets_bind]
  refine meets_takeUntil.mono ?_
  rintro header afterHeader ⟨passes, nonempty⟩
  obtain ⟨last, isLast, _⟩ := exists_last passes (nonempty notEndOfFile goesOn)
  have here := inside.passes passes
  have ends : Ends cursor last.span afterHeader :=
    ⟨header, [], last, by simpa using passes, isLast, rfl⟩
  have block {place : Cursor} (ends : Ends cursor last.span place)
      (isIndent : place.current.kind = .indent) :
      let body := blockTokens 1 place.advance.remaining
      Ends cursor (((body.filter fun token => !isLayoutKind token.kind).getLast?.map
        (·.span)).getD last.span) (place.advance.skip body.length) := by
    obtain ⟨isPrefix, noEnd⟩ := blockTokens_isPrefix 1 place.advance.remaining
    exact (ends.before (.advance_of isIndent rfl)).visible (.skip_of_isPrefix isPrefix noEnd)
  simp only [meets_ite, meets_bind, meets_eat, meets_pure, meets_get, meets_set, isLast,
    Option.map_some, Option.getD_some, Bool.not_true, Bool.not_false,
    Bool.false_eq_true, not_false_eq_true, not_true_eq_false, false_implies,
    forall_const, and_true, true_and]
  refine ⟨fun _ => (unexpected_points here), fun _ => ⟨?_, ?_⟩⟩
  · intro atBreak
    have further := ends.before (.advance_of atBreak rfl)
    have next := here.advance_of atBreak rfl
    exact ⟨fun _ => further, fun _ => ⟨block further, fun _ => (failHere_points next rfl)⟩⟩
  · intro _
    exact ⟨fun _ => ends, fun _ => ⟨block ends, fun _ => (failHere_points here rfl)⟩⟩

theorem meets_skipDecorators {cursor : Cursor} {fault : ParseError → Prop} :
    skipDecorators.Meets cursor (fun found after =>
      (∃ taken, cursor.Passes taken after) ∧
        if found then cursor.current.kind.isLayout = false else after = cursor) fault := by
  refine meets_iterate (fun found place => (∃ taken, cursor.Passes taken place) ∧
    if found then cursor.current.kind.isLayout = false else place = cursor)
    ⟨⟨[], .refl cursor⟩, rfl⟩ ?_
  rintro found place ⟨⟨taken, passes⟩, begun⟩
  simp only [meets_bind, meets_eat, meets_ite, meets_pure, keeps_more, keeps_done,
    Bool.false_eq_true, not_true_eq_false, not_false_eq_true, false_implies, true_and, and_true,
    forall_const]
  refine ⟨?_, fun _ => ⟨⟨taken, passes⟩, begun⟩⟩
  intro atSign
  have visible : cursor.current.kind.isLayout = false := by
    cases found with
    | true => exact begun
    | false =>
        obtain rfl : place = cursor := begun
        rw [atSign]
        rfl
  refine meets_takeUntil.mono ?_
  rintro skipped middle ⟨skips, _⟩
  have own := Cursor.Passes.trans (.advance_of atSign rfl) skips
  constructor
  · intro atBreak
    have line := own.trans (.advance_of atBreak rfl)
    exact ⟨⟨⟨_, passes.trans line⟩, visible⟩, line.progress (List.cons_ne_nil _ _)⟩
  · intro _
    exact ⟨⟨⟨_, passes.trans own⟩, visible⟩, own.progress (List.cons_ne_nil _ _)⟩

theorem isLayout_of_compoundKind? {cursor : Cursor} {kind : CompoundKind}
    (found : compoundKind? cursor = some kind) : cursor.current.kind.isLayout = false := by
  rw [compoundKind?] at found
  split at found <;> simp_all [TokenKind.isLayout]

/-- A compound statement begins with a word. -/
private theorem endsLine_of_compoundKind? {cursor : Cursor} {kind : CompoundKind}
    (found : compoundKind? cursor = some kind) : endsLine cursor.current.kind = false := by
  rw [compoundKind?] at found
  split at found <;> simp_all [endsLine]

/-- Lines are read from the tokens between two places. More may follow, unless the tokens end. -/
def ParsedBody (start : Cursor) (stmts : List Stmt) (stop : Cursor) : Prop :=
  ∃ tokens, start.Passes tokens stop ∧ Reading.Body tokens stmts ∧
    (stop.current.kind ≠ .endOfFile → Reading.Lines tokens stmts)

/-- What lies outside the subset goes from the first token to one that was remembered. -/
theorem Ends.parsed {kindName : String} {last : Span} (ends : Ends start last stop)
    (isOutside : kindName ∈ outsideStatements) (visible : start.current.kind.isLayout = false) :
    ParsedBody start [.unsupported kindName (start.current.span.cover last)] stop := by
  obtain ⟨within, trail, token, passes, isLast, rfl⟩ := ends
  cases within with
  | nil => simp at isLast
  | cons first rest =>
      obtain rfl : first = start.current := by simpa using passes.head?_eq (by simp)
      have lines : Reading.Lines (start.current :: rest ++ trail) _ :=
        .compound (.cover (.outside isOutside visible) rfl isLast)
      exact ⟨_, passes, .lines lines, fun _ => lines⟩

/-- A compound statement goes from its first decorator or word to the last token of its
clauses. -/
private theorem meets_compoundStatement {cursor : Cursor} (inside : cursor.In all) :
    compoundStatement.Meets cursor (fun result after =>
      match result with
      | none => after = cursor
      | some statement => ParsedBody cursor [statement] after ∧ cursor.Progress after)
      (Points all) := by
  rw [compoundStatement, meets_bind, meets_currentSpan, meets_bind]
  refine meets_skipDecorators.mono ?_
  rintro isDecorated place ⟨⟨taken, passes⟩, begun⟩
  rw [meets_bind, meets_get]
  split
  next =>
    rw [meets_ite, meets_pure]
    refine ⟨fun _ => unexpected_points (inside.passes passes), ?_⟩
    intro plain
    rwa [if_neg plain] at begun
  next kind found =>
    have visible : cursor.current.kind.isLayout = false := by
      cases isDecorated with
      | true => exact begun
      | false =>
          obtain rfl : place = cursor := begun
          exact isLayout_of_compoundKind? found
    simp only [meets_bind, meets_pure]
    have goesOn := endsLine_of_compoundKind? found
    refine (meets_skipClause (inside.passes passes) goesOn).mono ?_
    intro last afterFirst clause
    refine meets_iterate (Ends cursor) (clause.after passes) ?_
    intro last place ends
    obtain ⟨read, passes, nonempty⟩ := ends.passes
    simp only [meets_bind, meets_currentKind, meets_ite, meets_pure, keeps_more, keeps_done]
    constructor
    · intro atClause
      have goesOn : endsLine place.current.kind = false := by
        obtain ⟨word, _, atWord⟩ := List.any_eq_true.mp atClause
        rw [eq_of_beq atWord]
        rfl
      refine (meets_skipClause (inside.passes passes) goesOn).mono ?_
      intro _ after clause
      obtain ⟨own, passesOwn, nonempty⟩ := clause.passes
      exact ⟨clause.after passes, passesOwn.progress nonempty⟩
    · intro _
      exact ⟨ends.parsed (mem_outside_of_compoundKind? found) visible, passes.progress nonempty⟩

/-! ### Lines and modules -/

@[simp] theorem meets_lineEnd {cursor : Cursor} {post : Bool → Cursor → Prop}
    {fault : ParseError → Prop} :
    lineEnd.Meets cursor post fault ↔
      (cursor.current.kind = .newline → post true cursor.advance) ∧
        (cursor.current.kind ≠ .newline → post (cursor.current.kind == .endOfFile) cursor) := by
  simp only [lineEnd, meets_bind, meets_eat, meets_ite, meets_currentKind, meets_pure,
    Bool.false_eq_true, not_true_eq_false, not_false_eq_true, false_implies, true_and, and_true,
    forall_const]

/-- A line that ends with a line end or with the tokens. -/
private theorem parsedBody_of_line {tokens : List Token} {stmts : List Stmt}
    (passes : start.Passes tokens stop) (line : Reading.Line tokens stmts) :
    (stop.current.kind = .newline →
      ParsedBody start stmts stop.advance ∧ start.Progress stop.advance) ∧
    (stop.current.kind = .endOfFile → ParsedBody start stmts stop ∧ start.Progress stop) := by
  have progress := passes.progress line.ne_nil
  constructor
  · intro atBreak
    have lines := Reading.Lines.line line atBreak
    exact ⟨⟨_, passes.trans (.advance_of atBreak rfl), .lines lines, fun _ => lines⟩,
      progress.trans (.advance atBreak rfl)⟩
  · intro atEnd
    exact ⟨⟨_, passes, .last .none line, fun goesOn => absurd atEnd goesOn⟩, progress⟩

private theorem meets_simpleLine {cursor : Cursor} (inside : cursor.In all) :
    simpleLine.Meets cursor (fun statements after =>
      ParsedBody cursor statements after ∧ cursor.Progress after) (Points all) := by
  rw [simpleLine_eq]
  refine meets_iterate (fun statements place => ∃ tokens, cursor.Passes tokens place ∧
    Reading.Row tokens statements) ⟨[], .refl cursor, .none⟩ ?_
  rintro statements place ⟨tokens, passes, before⟩
  simp only [statementRound, meets_bind, meets_eat, meets_ite, meets_lineEnd, meets_pure,
    keeps_more, keeps_done, beq_iff_eq, Bool.false_eq_true, not_true_eq_false,
    not_false_eq_true, false_implies, true_and, and_true, forall_const]
  refine (meets_simpleStatement (inside.passes passes)).mono ?_
  rintro statement stop ⟨own, passesOwn, item⟩
  constructor
  · intro atSemicolon
    have closed := passesOwn.trans (.advance_of atSemicolon rfl)
    obtain ⟨atBreak, atEnd⟩ :=
      parsedBody_of_line (passes.trans closed) (.closed before item atSemicolon)
    exact ⟨atBreak, fun _ => ⟨atEnd, fun _ =>
      ⟨⟨_, passes.trans closed, .more before item atSemicolon⟩, closed.progress (by simp)⟩⟩⟩
  · intro _
    have whole := passes.trans passesOwn
    obtain ⟨atBreak, atEnd⟩ := parsedBody_of_line whole (.last before item)
    exact ⟨atBreak, fun _ => ⟨atEnd, fun _ => unexpected_points (inside.passes whole)⟩⟩

theorem meets_line {cursor : Cursor} (inside : cursor.In all) :
    line.Meets cursor (fun statements after =>
      ParsedBody cursor statements after ∧ cursor.Progress after) (Points all) := by
  rw [line, meets_bind]
  refine (meets_compoundStatement inside).mono ?_
  intro result after holds
  cases result with
  | none =>
      obtain rfl : after = cursor := holds
      exact meets_simpleLine inside
  | some statement => exact meets_pure.mpr holds

/-- A module ends at an end of file and takes every token before it. -/
theorem meets_wholeModule {cursor : Cursor} (inside : cursor.In all) :
    wholeModule.Meets cursor (fun tree after =>
      ParsedBody cursor tree.body after ∧ after.current.kind = .endOfFile) (Points all) := by
  simp only [wholeModule_eq, meets_bind, meets_pure]
  refine meets_iterate (ParsedBody cursor)
    ⟨[], .refl cursor, .lines .none, fun _ => .none⟩ ?_
  rintro body place ⟨tokens, passes, parsed, goesOn⟩
  have here := inside.passes passes
  rw [lineRound, meets_bind, meets_currentKind]
  split
  next atEnd => exact meets_pure.mpr ⟨⟨tokens, passes, parsed, goesOn⟩, atEnd⟩
  next atBreak =>
    rw [meets_bind, meets_advance, meets_pure, keeps_more]
    have lines := (goesOn (by simp [atBreak])).append (.blank atBreak)
    rw [List.append_nil] at lines
    exact ⟨⟨_, passes.trans (.advance_of atBreak rfl), .lines lines, fun _ => lines⟩,
      .advance atBreak rfl⟩
  next => exact failHere_points here rfl
  next notEnd _ _ =>
    simp only [meets_bind, meets_pure, keeps_more]
    refine (meets_line here).mono ?_
    rintro statements stop ⟨⟨own, passesOwn, line, lineGoesOn⟩, progress⟩
    have before := goesOn notEnd
    refine ⟨⟨_, passes.trans passesOwn, before.body line, ?_⟩, progress⟩
    exact fun more => before.append (lineGoesOn more)

end
end Parser

namespace Module

/-- A module is read from the tokens before the first end of file. -/
theorem body_of_ofTokens {tokens : List Token} {tree : Module}
    (parsed : ofTokens tokens = .ok tree) :
    Reading.Body (tokens.takeWhile (·.kind != .endOfFile)) tree.body := by
  have meets := Parser.meets_wholeModule (.here (.start tokens))
  rw [ofTokens, StateT.run] at parsed
  cases ran : Parser.wholeModule (.start tokens) with
  | error cause => simp [ran, Except.map] at parsed
  | ok result =>
      obtain rfl : result.1 = tree := by simpa [ran, Except.map] using parsed
      obtain ⟨⟨taken, passes, body, _⟩, atEnd⟩ := (Parser.meets_of_ok ran).mp meets
      have stops : result.2.remaining.takeWhile (·.kind != .endOfFile) = [] := by
        rw [Cursor.current_kind] at atEnd
        cases rest : result.2.remaining with
        | nil => rfl
        | cons token others =>
            rw [rest, Cursor.headKind_cons] at atEnd
            simp [atEnd]
      have split : tokens = taken ++ result.2.remaining := passes.split
      rw [split, List.takeWhile_append_of_pos (by simpa using passes.noEnd), stops, List.append_nil]
      exact body

/-- Tokens that form no module are rejected with an error that points at them. -/
theorem pointsInto_of_ofTokens {tokens : List Token} {error : ParseError} (stream : Stream tokens)
    (failed : ofTokens tokens = .error error) : error.PointsInto tokens := by
  have meets := Parser.meets_wholeModule (.here (.start tokens))
  rw [ofTokens, StateT.run] at failed
  cases ran : Parser.wholeModule (.start tokens) with
  | ok result => simp [ran, Except.map] at failed
  | error cause =>
      obtain rfl : cause = error := by simpa [ran, Except.map] using failed
      exact (Parser.meets_of_error ran).mp meets stream

end Module
end Transpiler
