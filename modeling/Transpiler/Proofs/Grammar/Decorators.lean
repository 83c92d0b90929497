import Transpiler.Proofs.Grammar.StatementMirroring

/-!
Contract: statements that begin with a decorator.

Owns: that expressions and simple statements begin with a token that can begin an expression or
with a word (`Parser.begins_expression`); the statements of a module together with the places
where they begin (`Module.placedStatements`); and which statements begin with a decorator
(`Module.decorated_statement`).

Does not own: what stands in a decorator, and the clauses of compound statements.
-/

namespace Transpiler
namespace Parser

/-! ### Tokens that begin expressions -/

/-- Whatever the rule reads begins with a token that can begin an expression. -/
def Begins (rule : Parser Expr) : Prop :=
  ∀ cursor, rule.Yields cursor fun _ _ => startsExpression cursor.current.kind = true

/-- What follows makes no difference to how a rule begins. -/
theorem Begins.bind {rule : Parser Expr} (begins : Begins rule) (next : Expr → Parser Expr) :
    Begins (rule >>= next) := by
  intro cursor
  rw [yields_bind]
  refine (begins cursor).mono ?_
  intro value after starts result final _
  exact starts

private theorem startsExpression_of_simpleAtom? {token : Token} {expr : Expr}
    (found : simpleAtom? token = some expr) : startsExpression token.kind = true := by
  rw [simpleAtom?] at found
  generalize token.kind = kind at found
  cases kind <;> first | rfl | contradiction

private theorem startsExpression_of_isStringToken {token : Token}
    (isString : isStringToken token = true) :
    startsExpression token.kind = true := by
  rw [isStringToken] at isString
  generalize token.kind = kind at isString
  cases kind <;> first | rfl | contradiction

private theorem begins_atom (deeper : Option Level) : Begins (atom deeper) := by
  intro cursor
  rw [atom, yields_bind, yields_current]
  split
  next expr found =>
    intro value after _
    exact startsExpression_of_simpleAtom? found
  next =>
    rw [yields_ite]
    constructor
    · intro isString value after _
      exact startsExpression_of_isStringToken isString
    · intro _
      split
      case h_4 => exact yields_throw
      all_goals
        rename_i opens
        intro value after _
        rw [opens]
        rfl

private theorem begins_primary (deeper : Option Level) : Begins (primary deeper) :=
  (begins_atom deeper).bind _

private theorem begins_power (deeper : Option Level) : Begins (power deeper) := by
  intro cursor
  rw [power_eq, yields_bind, yields_isAtKeyword, yields_ite]
  constructor
  · intro atAwait value after _
    rw [eq_of_beq atAwait]
    rfl
  · intro _
    exact (begins_primary deeper).bind _ cursor

private theorem begins_factor (deeper : Option Level) : Begins (factor deeper) := by
  intro cursor
  rw [factor, yields_bind, yields_currentKind]
  split
  next operator isSign =>
    intro value after _
    generalize cursor.current.kind = kind at isSign
    cases kind <;> first | rfl | contradiction
  next => exact begins_power deeper cursor

private theorem begins_binary (deeper : Option Level) : Begins (binary deeper) :=
  List.foldlRecOn binaryRanks binaryLevel (begins_factor deeper) fun _ begins _ _ => begins.bind _

private theorem begins_inversion (deeper : Option Level) : Begins (inversion deeper) := by
  intro cursor
  rw [inversion, yields_bind, yields_isAt, yields_ite]
  constructor
  · intro atNot value after _
    rw [eq_of_beq atNot]
    rfl
  · intro _
    exact (begins_binary deeper).bind _ cursor

theorem begins_expression (deeper : Option Level) : Begins (expression deeper) := by
  intro cursor
  rw [expression, yields_bind, yields_isAtKeyword, yields_ite]
  constructor
  · intro atLambda value after _
    rw [eq_of_beq atLambda]
    rfl
  · intro _
    exact (((begins_inversion deeper).bind _).bind _).bind _ cursor

/-- A simple statement does not begin with a decorator. -/
private theorem simpleStatement_begins (cursor : Cursor) :
    simpleStatement.Yields cursor fun _ _ => cursor.current.kind ≠ .atSign := by
  have begins : Begins Level.outermost.expression := begins_expression _
  by_cases atSign : cursor.current.kind = .atSign
  · rw [simpleStatement, yields_bind, yields_currentKind, atSign]
    dsimp only
    rw [expressionStatement_eq, yields_bind, yields_currentSpan, yields_bind, expressions,
      expressionList, yields_bind, yields_isAtKeyword, atSign, if_neg (by decide), yields_bind]
    refine (begins cursor).mono ?_
    intro value after starts
    rw [atSign] at starts
    cases starts
  · intro statement after _
    exact atSign

/-! ### Statements with their places -/

/-- What a round comes to, with its state changed. -/
def Round.map {σ τ : Type} (change : σ → τ) : Round σ → Round τ
  | .more state => .more (change state)
  | .done state => .done (change state)

/-- A repetition whose rounds are those of another with the state changed. -/
theorem iterate_map {σ τ : Type} {change : σ → τ} {round : τ → Parser (Round τ)}
    {fuller : σ → Parser (Round σ)}
    (same : ∀ state, round (change state) = Round.map change <$> fuller state) (state : σ) :
    iterate round (change state) = change <$> iterate fuller state := by
  have bounded : ∀ (bound : List Token) (state : σ),
      iterateOver round bound (change state) = change <$> iterateOver fuller bound state := by
    intro bound
    induction bound with
    | nil =>
        intro state
        simp only [iterateOver, same, bind_map_left, map_bind]
        congr 1
        funext outcome
        cases outcome <;> simp [Round.map]
    | cons head bound inductionHypothesis =>
        intro state
        simp only [iterateOver, same, bind_map_left, map_bind]
        congr 1
        funext outcome
        cases outcome <;> simp [Round.map, inductionHypothesis]
  simp only [iterate, map_bind, bounded]

/-- A statement with the place where it begins. -/
abbrev Placed := Cursor × Stmt

/-- One more statement of a line, with its place. -/
def placedStatementRound (read : List Placed) : Parser (Round (List Placed)) := do
  let place ← get
  let read := read ++ [(place, ← simpleStatement)]
  if ← eat .semicolon then
    if ← lineEnd then return .done read else return .more read
  else if ← lineEnd then return .done read
  else unexpected "`;` or end of line"

/-- One line, or one compound statement with all of its lines, with its place. -/
def placedLine : Parser (List Placed) := do
  let place ← get
  match ← compoundStatement with
  | some statement => return [(place, statement)]
  | none => iterate placedStatementRound []

/-- One more line of a module, with the places of its statements. -/
def placedLineRound (body : List Placed) : Parser (Round (List Placed)) := do
  match ← currentKind with
  | .endOfFile => return .done body
  | .newline =>
      let _ ← advance
      return .more body
  | .indent => failHere .unexpectedIndent
  | _ => return .more (body ++ (← placedLine))

private theorem get_bind {α : Type} (rule : Parser α) : (get >>= fun _ => rule) = rule := rfl

theorem map_unexpected {α β : Type} (change : α → β) (expected : String) :
    change <$> (unexpected expected : Parser α) = unexpected expected := rfl

private theorem map_failHere {α β : Type} (change : α → β) (kind : ParseErrorKind) :
    change <$> (failHere kind : Parser α) = failHere kind := rfl

private theorem statementRound_eq_map (read : List Placed) :
    statementRound (read.map (·.2)) = Round.map (List.map (·.2)) <$> placedStatementRound read := by
  rw [← get_bind (statementRound _)]
  simp only [statementRound, placedStatementRound, map_bind]
  congr 1
  funext place
  congr 1
  funext statement
  congr 1
  funext separated
  cases separated <;> simp only [if_true, if_false, Bool.false_eq_true, map_bind] <;> congr 1 <;>
    funext ended <;> cases ended <;> simp [Round.map, map_unexpected]

private theorem simpleLine_eq_map :
    simpleLine = List.map (·.2) <$> iterate placedStatementRound [] := by
  rw [simpleLine_eq]
  exact iterate_map statementRound_eq_map []

private theorem line_eq_map : line = List.map (·.2) <$> placedLine := by
  rw [← get_bind line]
  simp only [line, placedLine, map_bind]
  congr 1
  funext place
  congr 1
  funext result
  cases result with
  | none => exact simpleLine_eq_map
  | some statement => simp

theorem lineRound_eq_map (body : List Placed) :
    lineRound (body.map (·.2)) = Round.map (List.map (·.2)) <$> placedLineRound body := by
  simp only [lineRound, placedLineRound, map_bind, line_eq_map]
  congr 1
  funext kind
  cases kind
  case endOfFile => simp [Round.map]
  case newline => simp [Round.map]
  case indent => exact (map_failHere _ _).symm
  all_goals simp [Round.map]

end Parser

/-- The statements of a module, each with the place where it begins. -/
def Module.placedStatements (tokens : List Token) : Except ParseError (List Parser.Placed) :=
  ((Parser.iterate Parser.placedLineRound []).run (.start tokens)).map (·.1)

/-- Without the places they are the statements of the module. -/
theorem Module.placedStatements_map (tokens : List Token) :
    (placedStatements tokens).map (List.map (·.2)) = (ofTokens tokens).map (·.body) := by
  have forgets : Parser.iterate Parser.lineRound [] =
      List.map (·.2) <$> Parser.iterate Parser.placedLineRound [] :=
    Parser.iterate_map Parser.lineRound_eq_map []
  have whole : Parser.wholeModule =
      (fun read => ⟨read.map (·.2)⟩) <$> Parser.iterate Parser.placedLineRound [] := by
    rw [Parser.wholeModule_eq, forgets]
    simp
  rw [ofTokens, whole, placedStatements, StateT.run_map]
  cases (Parser.iterate Parser.placedLineRound []).run (.start tokens) <;> rfl

/-! ### Decorators -/

/-- The words that begin definitions, with the name of the node. -/
def definitionWords : List (List String × String) :=
  [(["def"], "FunctionDef"), (["async", "def"], "AsyncFunctionDef"), (["class"], "ClassDef")]

/-- The words that begin other compound statements, with the name of the node. -/
def blockWords : List (List String × String) :=
  [(["if"], "If"), (["while"], "While"), (["for"], "For"), (["try"], "Try"), (["with"], "With"),
    (["async", "for"], "AsyncFor"), (["async", "with"], "AsyncWith")]

/-- Lines that each begin with an at sign, with the line breaks that end them. -/
inductive DecoratorLines : List Token → Prop where
  | none : DecoratorLines []
  | more {sign stop : Token} {line rest : List Token} (isSign : sign.kind = .atSign)
      (inLine : ∀ token ∈ line, Parser.endsLine token.kind = false)
      (isBreak : stop.kind = .newline) (others : DecoratorLines rest) :
      DecoratorLines (sign :: (line ++ stop :: rest))

theorem DecoratorLines.append {first second : List Token} (lines : DecoratorLines first)
    (others : DecoratorLines second) : DecoratorLines (first ++ second) := by
  induction lines with
  | none => exact others
  | more isSign inLine isBreak _ inductionHypothesis =>
      rw [List.cons_append, List.append_assoc, List.cons_append]
      exact .more isSign inLine isBreak inductionHypothesis

/-- A statement that stands for a compound statement after decorators: the words after the lines
of the decorators tell which one. -/
def Decorated (place : Cursor) (stmt : Stmt) : Prop :=
  ∃ decorators rest words kindName last,
    place.remaining = decorators ++ rest ∧ DecoratorLines decorators ∧
      words.map TokenKind.keyword <+: rest.map (·.kind) ∧
      (words, kindName) ∈ definitionWords ++ blockWords ∧
      stmt = .unsupported kindName (place.current.span.cover last)

namespace Parser

private theorem word_isPrefix {cursor : Cursor} {word : String}
    (atWord : cursor.current.kind = .keyword word) :
    [word].map TokenKind.keyword <+: cursor.remaining.map (·.kind) := by
  obtain ⟨remaining, previous⟩ := cursor
  cases remaining with
  | nil => cases atWord
  | cons token rest => simpa [Cursor.current] using atWord.symm

private theorem words_isPrefix {cursor : Cursor} {word next : String}
    (atWord : cursor.current.kind = .keyword word) (beforeNext : cursor.nextKind = .keyword next) :
    [word, next].map TokenKind.keyword <+: cursor.remaining.map (·.kind) := by
  obtain ⟨remaining, previous⟩ := cursor
  cases remaining with
  | nil => cases atWord
  | cons token rest =>
      cases rest with
      | nil => cases beforeNext
      | cons follower others =>
          have isWord : token.kind = .keyword word := atWord
          have isNext : follower.kind = .keyword next := beforeNext
          simp [isWord, isNext]

/-- The words at a place tell which compound statement begins there. -/
private theorem exists_words {cursor : Cursor} {kind : CompoundKind}
    (found : compoundKind? cursor = some kind) :
    ∃ words, words.map TokenKind.keyword <+: cursor.remaining.map (·.kind) ∧
      (words, kind.kindName) ∈ definitionWords ++ blockWords := by
  unfold compoundKind? at found
  split at found
  case h_8 atAsync =>
    split at found
    case h_4 => cases found
    all_goals
      rename_i beforeNext
      obtain rfl := Option.some.inj found
      exact ⟨_, words_isPrefix atAsync beforeNext, by decide⟩
  case h_9 => cases found
  all_goals
    rename_i atWord
    obtain rfl := Option.some.inj found
    exact ⟨_, word_isPrefix atWord, by decide⟩

/-- A line is taken up to the token that ends it. -/
private theorem yields_takeUntil_endsLine {cursor : Cursor} :
    (takeUntil endsLine).Yields cursor fun line after =>
      cursor.Passes line after ∧ (∀ token ∈ line, endsLine token.kind = false) ∧
        endsLine after.current.kind = true := by
  have ended (goesOn : Token → Bool) (tokens : List Token) (token : Token)
      (isHead : (tokens.drop (tokens.takeWhile goesOn).length).head? = some token) :
      goesOn token = false := by
    have split := @List.takeWhile_append_dropWhile _ goesOn tokens
    have rest : tokens.drop (tokens.takeWhile goesOn).length = tokens.dropWhile goesOn :=
      (congrArg (List.drop _) split.symm).trans List.drop_left
    have stops := List.head?_dropWhile_not goesOn tokens
    rwa [← rest, isHead] at stops
  simp only [takeUntil, yields_bind, yields_get, yields_set, yields_pure]
  have inLine : ∀ token ∈ cursor.remaining.takeWhile
      fun token => token.kind != .endOfFile && !endsLine token.kind,
      token.kind ≠ .endOfFile ∧ endsLine token.kind = false := by
    intro token member
    simpa using List.all_eq_true.mp List.all_takeWhile token member
  refine ⟨.skip_of_isPrefix (List.takeWhile_prefix _) fun token member => (inLine token member).1,
    fun token member => (inLine token member).2, ?_⟩
  rw [Cursor.current_kind, Cursor.headKind]
  cases isHead : (cursor.skip _).remaining.head? with
  | none => rfl
  | some token =>
      have stops := ended _ _ token isHead
      by_cases isEnd : token.kind = .endOfFile
      · rw [Option.map_some, isEnd]
        rfl
      · simpa [isEnd] using stops

/-- Decorators are passed over line by line, and found if there is one; only the last line may
lack its line break, if the end of the file follows it. -/
private theorem yields_skipDecorators_lines {cursor : Cursor} :
    skipDecorators.Yields cursor fun found after =>
      (found = false → cursor.current.kind ≠ .atSign) ∧
        (after.current.kind ≠ .endOfFile → ∃ decorators, DecoratorLines decorators ∧
          cursor.remaining = decorators ++ after.remaining) := by
  rw [skipDecorators_eq]
  refine yields_iterate (fun found place => (found = false → place = cursor) ∧
    (place.current.kind ≠ .endOfFile → ∃ decorators, DecoratorLines decorators ∧
      cursor.remaining = decorators ++ place.remaining))
    ⟨fun _ => rfl, fun _ => ⟨[], .none, rfl⟩⟩ ?_
  rintro found place ⟨stays, before⟩
  simp only [decoratorRound, yields_bind, yields_eat, yields_ite, yields_pure, keeps_more,
    keeps_done, Bool.false_eq_true, reduceCtorEq, not_true_eq_false, not_false_eq_true,
    false_implies, true_and, and_true, forall_const]
  constructor
  · intro atSign
    have started : place.Passes [place.current] place.advance := .advance_of atSign rfl
    obtain ⟨decorators, lines, split⟩ := before (by simp [atSign])
    refine yields_takeUntil_endsLine.mono ?_
    rintro line stop ⟨passes, inLine, ends⟩
    have taken := started.trans passes
    constructor
    · intro atBreak
      have whole := taken.trans (.advance_of atBreak rfl)
      refine ⟨fun _ => ⟨decorators ++ place.current :: (line ++ [stop.current]),
        lines.append (.more atSign inLine atBreak .none), ?_⟩, whole.progress (by simp)⟩
      rw [split, whole.split]
      simp
    · intro notBreak
      refine ⟨fun notEnd => ?_, taken.progress (by simp)⟩
      generalize stop.current.kind = kind at *
      cases kind <;> contradiction
  · intro notSign
    refine ⟨fun isFalse => ?_, before⟩
    rwa [← stays isFalse]

/-- A compound statement is read after decorators, whatever kind it is of. -/
private theorem compoundStatement_decorated {cursor : Cursor}
    (atSign : cursor.current.kind = .atSign) :
    compoundStatement.Yields cursor fun result _ =>
      ∃ stmt, result = some stmt ∧ Decorated cursor stmt := by
  rw [compoundStatement_eq, yields_bind, yields_currentSpan, yields_bind]
  refine yields_skipDecorators_lines.mono ?_
  rintro isDecorated place ⟨found, lines⟩
  rw [yields_bind, yields_get]
  split
  next =>
    cases isDecorated with
    | true => exact yields_unexpected
    | false => exact absurd atSign (found rfl)
  next kind isKind =>
    obtain ⟨words, begins, isKnown⟩ := exists_words isKind
    have notEnd : place.current.kind ≠ .endOfFile := by
      intro isEnd
      simp [compoundKind?, isEnd] at isKind
    obtain ⟨decorators, areLines, split⟩ := lines notEnd
    simp only [yields_bind, yields_pure]
    intro first middle _ last after _
    exact ⟨_, rfl, decorators, place.remaining, words, kind.kindName, last, split, areLines, begins,
      isKnown, rfl⟩

/-! ### Whole modules -/

/-- The place of a statement is reached from the first token, and there the statement is read, as a
compound or as a simple one. If it begins with a decorator, it is a decorated one. -/
structure FitsPlace (tokens : List Token) (place : Cursor) (stmt : Stmt) : Prop where
  reached : (Cursor.start tokens).Reaches .file place
  isRead : ∃ after,
    compoundStatement place = .ok (some stmt, after) ∨ simpleStatement place = .ok (stmt, after)
  decorated : place.current.kind = .atSign → Decorated place stmt

/-- Statements have been read up to a place, and all of them fit theirs. -/
structure AllFit (tokens : List Token) (read : List Placed) (place : Cursor) : Prop where
  reached : (Cursor.start tokens).Reaches .file place
  entries : ∀ entry ∈ read, FitsPlace tokens entry.1 entry.2

variable {tokens : List Token} {read more : List Placed} {place after : Cursor}

theorem AllFit.reaches (fits : AllFit tokens read place) (reaches : place.Reaches .file after) :
    AllFit tokens read after :=
  ⟨fits.reached.trans reaches, fits.entries⟩

theorem AllFit.append (fits : AllFit tokens read place) (others : AllFit tokens more after) :
    AllFit tokens (read ++ more) after :=
  ⟨others.reached, List.forall_mem_append.mpr ⟨fits.entries, others.entries⟩⟩

theorem FitsPlace.allFit {stmt : Stmt} (fits : FitsPlace tokens place stmt)
    (reaches : place.Reaches .file after) : AllFit tokens [(place, stmt)] after :=
  ⟨fits.reached.trans reaches, List.forall_mem_singleton.mpr fits⟩

private theorem fits_statementRound (fits : AllFit tokens read place) :
    (placedStatementRound read).Yields place fun outcome after =>
      AllFit tokens outcome.state after := by
  rw [placedStatementRound, yields_bind, yields_get, yields_bind]
  intro statement after ran
  have here : FitsPlace tokens place statement :=
    ⟨fits.reached, ⟨after, .inr ran⟩,
      fun atSign => absurd atSign (simpleStatement_begins place _ _ ran)⟩
  have longer : AllFit tokens (read ++ [(place, statement)]) after :=
    fits.append (here.allFit ((@reflects_simpleStatement .file .forget place).reaches ran))
  rw [yields_bind]
  have forward : (eat .semicolon).Yields after fun _ next => after.Reaches .file next :=
    yields_eat.mpr ⟨fun _ => .advance (Bound.admits_file _), fun _ => .refl after⟩
  refine forward.mono ?_
  intro separated next reaches
  have ends {ended : Bool} {final : Cursor} (ran : lineEnd next = .ok (ended, final)) :
      AllFit tokens (read ++ [(place, statement)]) final :=
    longer.reaches (reaches.trans ((@mirrors_lineEnd .forget next).reaches ran))
  rw [yields_ite, yields_bind, yields_bind]
  constructor
  · intro _ ended final ran
    exact yields_ite.mpr ⟨fun _ => yields_pure.mpr (ends ran), fun _ => yields_pure.mpr (ends ran)⟩
  · intro _ ended final ran
    exact yields_ite.mpr ⟨fun _ => yields_pure.mpr (ends ran), fun _ => yields_unexpected⟩

private theorem fits_placedLine (reached : (Cursor.start tokens).Reaches .file place) :
    placedLine.Yields place fun read after => AllFit tokens read after := by
  rw [placedLine, yields_bind, yields_get, yields_bind]
  intro result after ran
  have reaches := (@mirrors_compoundStatement .forget place).reaches ran
  cases result with
  | none =>
      exact yields_iterate_of_rounds (AllFit tokens) ⟨reached.trans reaches, by simp⟩
        fun _ _ => fits_statementRound
  | some statement =>
      have here : FitsPlace tokens place statement := by
        refine ⟨reached, ⟨after, .inl ran⟩, ?_⟩
        intro atSign
        obtain ⟨_, same, decorated⟩ := compoundStatement_decorated atSign _ _ ran
        obtain rfl := Option.some.inj same
        exact decorated
      exact yields_pure.mpr (here.allFit reaches)

theorem fits_lineRound (fits : AllFit tokens read place) :
    (placedLineRound read).Yields place fun outcome after =>
      AllFit tokens outcome.state after := by
  rw [placedLineRound, yields_bind, yields_currentKind]
  split
  next => exact yields_pure.mpr fits
  next =>
    rw [yields_bind, yields_advance]
    exact yields_pure.mpr (fits.reaches (.advance (Bound.admits_file _)))
  next => exact yields_failHere
  next =>
    rw [yields_bind]
    refine (fits_placedLine fits.reached).mono ?_
    intro more after others
    exact yields_pure.mpr (fits.append others)

end Parser

namespace Module

private theorem fits_placedStatements {tokens : List Token} {read : List Parser.Placed}
    (ran : placedStatements tokens = .ok read) :
    ∀ entry ∈ read, Parser.FitsPlace tokens entry.1 entry.2 := by
  have yields : (Parser.iterate Parser.placedLineRound []).Yields (.start tokens)
      (Parser.AllFit tokens) :=
    Parser.yields_iterate_of_rounds (Parser.AllFit tokens) ⟨.refl _, by simp⟩
      fun _ _ => Parser.fits_lineRound
  rw [placedStatements, StateT.run] at ran
  cases outcome : Parser.iterate Parser.placedLineRound [] (.start tokens) with
  | error error =>
      rw [outcome] at ran
      cases ran
  | ok pair =>
      rw [outcome] at ran
      obtain rfl := Except.ok.inj ran
      exact (yields pair.1 pair.2 outcome).entries

/-- Every statement of a module is read at a place of its own, and a statement that begins there
with a decorator is a compound statement outside the subset, of the kind that the words after its
decorators begin. It need not be a definition. -/
theorem decorated_statement {tokens : List Token} {tree : Module}
    (parsed : ofTokens tokens = .ok tree) :
    ∃ read, placedStatements tokens = .ok read ∧ read.map (·.2) = tree.body ∧
      ∀ place stmt, (place, stmt) ∈ read → Parser.FitsPlace tokens place stmt := by
  have same := placedStatements_map tokens
  rw [parsed] at same
  cases ran : placedStatements tokens with
  | error error =>
      rw [ran] at same
      cases same
  | ok read =>
      rw [ran] at same
      refine ⟨read, rfl, Except.ok.inj same, ?_⟩
      intro place stmt member
      exact fits_placedStatements ran (place, stmt) member

/-- Two decorators before a definition. -/
theorem decorated_statement_async :
    let tokens : List Token := [⟨.atSign, ⟨0, 1⟩⟩, ⟨.ident "a", ⟨1, 2⟩⟩, ⟨.newline, ⟨2, 3⟩⟩,
      ⟨.atSign, ⟨3, 4⟩⟩, ⟨.ident "b", ⟨4, 5⟩⟩, ⟨.newline, ⟨5, 6⟩⟩, ⟨.keyword "async", ⟨6, 11⟩⟩,
      ⟨.keyword "def", ⟨12, 15⟩⟩, ⟨.colon, ⟨15, 16⟩⟩, ⟨.passWord, ⟨17, 21⟩⟩,
      ⟨.newline, ⟨21, 22⟩⟩, ⟨.endOfFile, ⟨22, 22⟩⟩]
    ∃ tree read, ofTokens tokens = .ok tree ∧ placedStatements tokens = .ok read ∧
      tree.body.map (·.kindName) = ["AsyncFunctionDef"] ∧ read.map (·.1) = [.start tokens] ∧
      ∀ entry ∈ read, Decorated entry.1 entry.2 := by
  intro tokens
  have kinds : (ofTokens tokens).toOption.map (fun tree => tree.body.map (·.kindName)) =
      some ["AsyncFunctionDef"] := by decide +kernel
  have places : (placedStatements tokens).toOption.map (fun read => read.map (·.1)) =
      some [.start tokens] := by decide +kernel
  obtain ⟨tree, parsed, isAsync⟩ := exists_eq_ok_of_toOption_map kinds
  obtain ⟨read, ran, _, fits⟩ := decorated_statement parsed
  rw [ran] at places
  have onlyPlace : read.map (·.1) = [.start tokens] := Option.some.inj places
  refine ⟨tree, read, parsed, ran, isAsync, onlyPlace, ?_⟩
  rintro ⟨place, stmt⟩ member
  have isStart : place ∈ read.map (·.1) := List.mem_map_of_mem member
  rw [onlyPlace] at isStart
  exact (fits place stmt member).decorated (by rw [List.mem_singleton.mp isStart]; rfl)

/-- A condition may follow a decorator, and so may every other compound statement. -/
theorem decorated_statement_block :
    (ofSource "@cache\nif x:\n    y\n").toOption.map
        (fun tree => tree.body.map fun stmt => (stmt.kindName, stmt.span)) =
      some [("If", ⟨0, 18⟩)] ∧
    ∀ entry ∈ blockWords,
      (ofTokens ((.atSign :: .ident "cache" :: .newline :: (entry.1.map TokenKind.keyword ++
          [.colon, .passWord, .newline, .endOfFile])).map (⟨·, .dummy⟩))).toOption.map
          (fun tree => tree.body.map (·.kindName)) = some [entry.2] := by
  decide +kernel

end Module
end Transpiler
