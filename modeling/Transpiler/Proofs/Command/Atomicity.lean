import Mathlib.Data.List.Forall2
import Transpiler.Proofs.Command.Announcement
import Transpiler.Proofs.Command.FileSystem
import Transpiler.Proofs.Generate.Policies
import Transpiler.Proofs.Grammar.Rules
import Transpiler.Proofs.Token.Columns

/-!
Contract: a run writes all of its code or changes nothing.

Owns: what must hold for a run to list a tree, to write code, to stop, or to be ended by an
overflow, said of its arguments and files alone; that one of these always holds; and what the run
then does to the files, shows and returns.

Does not own: the text of the code.
-/

namespace Transpiler

variable {σ κ : Type} [DecidableEq κ]

/-! ### What a run depends on -/

/-- A text without the blanks around it. -/
def trimmed (text : String) : String :=
  String.ofList (Text.trimBlank text.toList)

/-- The path that the options lead the code to. -/
def Options.outputPath (options : Options) : String :=
  options.resolvedOutput options.resolvedFormat

/-- The options make code of a module: the format has a generator, and every statement has
its line. -/
def Options.Generates (options : Options) (tree : Module) (code : String) : Prop :=
  ∃ generator lines,
    Generator.ofFormat? options.resolvedFormat options.generationOptions = some generator ∧
      tree.body.map generator.line? = lines.map some ∧ code = Generator.codeOf lines

namespace FileSystem

variable (system : FileSystem σ κ) (files : σ)

/-- The file that a path leads to holds a text. -/
def Reads (path text : String) : Prop :=
  ∃ bytes, ((system.storage.read path).run files).1 = .ok bytes ∧
    String.fromUTF8? bytes = some text

/-- Why the file that a path leads to holds no text. -/
inductive Refuses (path : String) : FileError → Prop where
  | unreadable {cause : FileError}
      (failed : ((system.storage.read path).run files).1 = .error cause) : Refuses path cause
  | notText {bytes : ByteArray} (found : ((system.storage.read path).run files).1 = .ok bytes)
      (invalid : String.fromUTF8? bytes = none) : Refuses path .invalidText

/-- All inputs hold texts, and these make up the source. -/
def Loads (inputs : List String) (source : String) : Prop :=
  ∃ texts, List.Forall₂ (system.Reads files) inputs texts ∧
    source = String.intercalate "\n" (texts.map trimmed)

/-- Code is asked for and can be written. -/
structure Completes (options : Options) (source code : String) : Prop where
  noListing : options.listTree = false
  loads : system.Loads files options.inputs source
  generates : ∃ tree, Module.ofSource source = .ok tree ∧ options.Generates tree code
  writes : ((system.storage.write options.outputPath code.toUTF8).run files).1 = .ok ()

/-- A listing is asked for and can be made. -/
structure Lists (options : Options) (source : String) (tree : Module) : Prop where
  listing : options.listTree = true
  loads : system.Loads files options.inputs source
  parses : Module.ofSource source = .ok tree

/-- A column of the source does not fit, so that the run is ended. -/
def Overflows (options : Options) (operation : Overflow) : Prop :=
  ∃ source, system.Loads files options.inputs source ∧
    Module.ofSource source = .error (.overflow operation)

/-- What stops a run, with the class and the message of the failure. -/
inductive Stops (options : Options) : AbortCode → String → Prop where
  /-- The first input that holds no text. -/
  | input {before after : List String} {path : String} {cause : FileError}
      (inputs : options.inputs = before ++ path :: after)
      (earlier : ∀ other ∈ before, ∃ text, system.Reads files other text)
      (refuses : system.Refuses files path cause) :
      Stops options .unknown ("could not read `" ++ path ++ "`: " ++ cause.message)
  | source {source : String} {cause : ParseError}
      (loads : system.Loads files options.inputs source)
      (failed : Module.ofSource source = .error (.fault cause)) :
      Stops options .sourceError cause.message
  | format {source : String} {tree : Module} (noListing : options.listTree = false)
      (loads : system.Loads files options.inputs source)
      (parses : Module.ofSource source = .ok tree)
      (unknown : Generator.ofFormat? options.resolvedFormat options.generationOptions = none) :
      Stops options .unknown ("unknown output format `" ++ options.resolvedFormat ++ "`")
  /-- The first statement without a line, whether or not the others are tried. -/
  | generation {source : String} {tree : Module} {generator : Generator}
      {before after : List Stmt} {stmt : Stmt} {error : GenerationError}
      (noListing : options.listTree = false)
      (loads : system.Loads files options.inputs source)
      (parses : Module.ofSource source = .ok tree)
      (known :
        Generator.ofFormat? options.resolvedFormat options.generationOptions = some generator)
      (body : tree.body = before ++ stmt :: after)
      (earlier : ∀ other ∈ before, ∃ line, generator.statement other = .ok line)
      (failed : generator.statement stmt = .error error) :
      Stops options error.abortCode error.message
  | output {source code : String} {tree : Module} {cause : FileError}
      (noListing : options.listTree = false)
      (loads : system.Loads files options.inputs source)
      (parses : Module.ofSource source = .ok tree) (generates : options.Generates tree code)
      (failed :
        ((system.storage.write options.outputPath code.toUTF8).run files).1 = .error cause) :
      Stops options .unknown
        ("could not write `" ++ options.outputPath ++ "`: " ++ cause.message)

end FileSystem

/-! ### Reading the inputs -/

theorem run_bind_of_run {α β : Type} {first : StateM σ α} {next : α → StateM σ β} {value : α}
    {files after : σ} (ran : first.run files = (value, after)) :
    (first >>= next).run files = (next value).run after := by
  rw [StateT.run_bind, ran]
  rfl

namespace FileSystem

variable {system : FileSystem σ κ} {files : σ}

private theorem run_read {path : String} {outcome : Except FileError ByteArray}
    (isOutcome : ((system.storage.read path).run files).1 = outcome) :
    (system.storage.read path).run files = (outcome, files) :=
  Prod.ext isOutcome (system.read_keeps path files)

private theorem run_loadSource_of_reads {path text : String}
    (reads : system.Reads files path text) :
    (loadSource system.storage path).run files = (.ok (trimmed text), files) := by
  obtain ⟨bytes, found, valid⟩ := reads
  rw [loadSource, run_bind_of_run (run_read found)]
  dsimp only
  rw [valid]
  rfl

private theorem run_loadSource_of_refuses {path : String} {cause : FileError}
    (refuses : system.Refuses files path cause) :
    (loadSource system.storage path).run files = (.error (.unreadable path cause), files) := by
  cases refuses with
  | unreadable failed =>
      rw [loadSource, run_bind_of_run (run_read failed)]
      rfl
  | notText found invalid =>
      rw [loadSource, run_bind_of_run (run_read found)]
      dsimp only
      rw [invalid]
      rfl

/-- Every file holds a text, or there is a reason why it does not. -/
private theorem reads_or_refuses (system : FileSystem σ κ) (files : σ) (path : String) :
    (∃ text, system.Reads files path text) ∨ ∃ cause, system.Refuses files path cause := by
  cases found : ((system.storage.read path).run files).1 with
  | error cause => exact .inr ⟨cause, .unreadable found⟩
  | ok bytes =>
      cases valid : String.fromUTF8? bytes with
      | none => exact .inr ⟨_, .notText found valid⟩
      | some text => exact .inl ⟨text, bytes, found, valid⟩

private theorem run_loadSources_of_reads {paths texts : List String}
    (all : List.Forall₂ (system.Reads files) paths texts) :
    (loadSources system.storage paths).run files = (.ok (texts.map trimmed), files) := by
  induction all with
  | nil => rfl
  | cons first _ inductionHypothesis =>
      rw [loadSources, run_bind_of_run (run_loadSource_of_reads first)]
      dsimp only
      rw [run_bind_of_run inductionHypothesis]
      rfl

private theorem run_loadSources_of_refuses {before after : List String} {path : String}
    {cause : FileError} (earlier : ∀ other ∈ before, ∃ text, system.Reads files other text)
    (refuses : system.Refuses files path cause) :
    (loadSources system.storage (before ++ path :: after)).run files =
      (.error (.unreadable path cause), files) := by
  induction before with
  | nil =>
      rw [List.nil_append, loadSources, run_bind_of_run (run_loadSource_of_refuses refuses)]
      rfl
  | cons first rest inductionHypothesis =>
      obtain ⟨text, reads⟩ := earlier first List.mem_cons_self
      rw [List.cons_append, loadSources, run_bind_of_run (run_loadSource_of_reads reads)]
      dsimp only
      rw [run_bind_of_run
        (inductionHypothesis fun other member => earlier other (List.mem_cons_of_mem _ member))]
      rfl

/-- All files hold texts, or there is a first one that does not. -/
private theorem reads_all_or_refuses (system : FileSystem σ κ) (files : σ) (paths : List String) :
    (∃ texts, List.Forall₂ (system.Reads files) paths texts) ∨
      ∃ before path after cause, paths = before ++ path :: after ∧
        (∀ other ∈ before, ∃ text, system.Reads files other text) ∧
        system.Refuses files path cause := by
  induction paths with
  | nil => exact .inl ⟨[], .nil⟩
  | cons first rest inductionHypothesis =>
      rcases reads_or_refuses system files first with ⟨text, reads⟩ | ⟨cause, refuses⟩
      · rcases inductionHypothesis with
          ⟨texts, all⟩ | ⟨before, path, after, cause, rfl, earlier, refuses⟩
        · exact .inl ⟨text :: texts, .cons reads all⟩
        · refine .inr ⟨first :: before, path, after, cause, rfl, ?_, refuses⟩
          intro other member
          rcases List.mem_cons.mp member with rfl | inRest
          · exact ⟨text, reads⟩
          · exact earlier other inRest
      · exact .inr ⟨[], first, rest, cause, rfl, by simp, refuses⟩

private theorem run_load_of_loads {options : Options} {source : String}
    (loads : system.Loads files options.inputs source) :
    (options.load system.storage).run files = (.ok source, files) := by
  obtain ⟨texts, all, rfl⟩ := loads
  rw [Options.load, run_bind_of_run (run_loadSources_of_reads all)]
  rfl

end FileSystem

/-! ### Making code -/

namespace Options

variable {options : Options} {source : String} {tree : Module}

/-- The options make code of a module, or its format is unknown, or there is a first statement
without a line. -/
theorem generates_cases (options : Options) (tree : Module) :
    (∃ code, options.Generates tree code) ∨
      Generator.ofFormat? options.resolvedFormat options.generationOptions = none ∨
      ∃ generator before stmt after error,
        Generator.ofFormat? options.resolvedFormat options.generationOptions = some generator ∧
        tree.body = before ++ stmt :: after ∧
        (∀ other ∈ before, ∃ line, generator.statement other = .ok line) ∧
        generator.statement stmt = .error error := by
  cases known : Generator.ofFormat? options.resolvedFormat options.generationOptions with
  | none => exact .inr (.inl rfl)
  | some generator =>
      rcases generator.lines_or_failure tree.body with
        ⟨lines, all⟩ | ⟨before, stmt, after, error, body, earlier, failed⟩
      · exact .inl ⟨_, generator, lines, known, all, rfl⟩
      · exact .inr (.inr ⟨generator, before, stmt, after, error, rfl, body, earlier, failed⟩)

private theorem compileModule_of_generates {code : String}
    (generates : options.Generates tree code) :
    compileModule options.resolvedFormat options.generationOptions tree = .ok code := by
  obtain ⟨generator, lines, known, all, rfl⟩ := generates
  rw [compileModule, known]
  dsimp only
  rw [Generator.generate_eq_iff.mpr ⟨lines, all, rfl⟩]
  rfl

theorem produce_of_source {halt : Halt ParseError}
    (failed : Module.ofSource source = .error halt) :
    options.produce source = .error (halt.map .source) := by
  rw [produce, parseSource, failed]
  rfl

theorem produce_of_listing (parses : Module.ofSource source = .ok tree)
    (listing : options.listTree = true) :
    options.produce source = .ok (.listing tree.listing) := by
  rw [produce, parseSource, parses]
  simp only [Except.mapError, bind, Except.bind, listing, if_true]
  rfl

theorem produce_of_code (parses : Module.ofSource source = .ok tree)
    (noListing : options.listTree = false) :
    options.produce source =
      ((compileModule options.resolvedFormat options.generationOptions tree).mapError .fault).map
        (.code options.outputPath) := by
  rw [produce, parseSource, parses]
  simp only [Except.mapError, bind, Except.bind, noListing, Bool.false_eq_true, if_false]
  cases compileModule options.resolvedFormat options.generationOptions tree <;> rfl

theorem produce_of_generates {code : String} (parses : Module.ofSource source = .ok tree)
    (noListing : options.listTree = false) (generates : options.Generates tree code) :
    options.produce source = .ok (.code options.outputPath code) := by
  rw [produce_of_code parses noListing, compileModule_of_generates generates]
  rfl

end Options

private theorem compileModule_of_failure {format : String} {options : GenerationOptions}
    {tree : Module} {generator : Generator} {before after : List Stmt} {stmt : Stmt}
    {error : GenerationError} (known : Generator.ofFormat? format options = some generator)
    (body : tree.body = before ++ stmt :: after)
    (earlier : ∀ other ∈ before, ∃ line, generator.statement other = .ok line)
    (failed : generator.statement stmt = .error error) :
    ∃ others, compileModule format options tree = .error (.generation (error :: others)) := by
  obtain ⟨others, errors⟩ := Generator.errors_generate_of_failure body earlier failed
  refine ⟨others, ?_⟩
  rw [compileModule, known]
  simp [Generated.hasErrors, Generated.isSuccess, errors]

/-! ### Whole runs -/

namespace FileSystem

variable {system : FileSystem σ κ} {files next : σ} {arguments : List String} {options : Options}
  {source : String}

private theorem run_session_of_badArguments {error : ArgumentError}
    (refused : Command.ofArguments arguments = .error error) :
    (runSession system.storage arguments).run files = (.badArguments error, files) := by
  rw [runSession, refused]
  rfl

theorem run_session_of_help (asked : Command.ofArguments arguments = .ok .help) :
    (runSession system.storage arguments).run files = (.help, files) := by
  rw [runSession, asked]
  rfl

theorem run_session_of_version (asked : Command.ofArguments arguments = .ok .version) :
    (runSession system.storage arguments).run files = (.version, files) := by
  rw [runSession, asked]
  rfl

theorem run_session_of_loads {result : Except (Halt RunError) Outcome}
    (asked : Command.ofArguments arguments = .ok (.transpile options))
    (loads : system.Loads files options.inputs source)
    (ran : (options.transpile system.storage source).run files = (result, next)) :
    (runSession system.storage arguments).run files = (.finished options source result, next) := by
  rw [runSession, asked]
  dsimp only
  rw [run_bind_of_run (run_load_of_loads loads)]
  dsimp only
  rw [run_bind_of_run ran]
  rfl

private theorem run_session_of_refuses {before after : List String} {path : String}
    {cause : FileError} (asked : Command.ofArguments arguments = .ok (.transpile options))
    (inputs : options.inputs = before ++ path :: after)
    (earlier : ∀ other ∈ before, ∃ text, system.Reads files other text)
    (refuses : system.Refuses files path cause) :
    (runSession system.storage arguments).run files =
      (.unreadable (.unreadable path cause), files) := by
  have loaded : (options.load system.storage).run files =
      (.error (.unreadable path cause), files) := by
    rw [Options.load, inputs, run_bind_of_run (run_loadSources_of_refuses earlier refuses)]
    rfl
  rw [runSession, asked]
  dsimp only
  rw [run_bind_of_run loaded]
  rfl

theorem run_transpile_of_error {halt : Halt RunError}
    (failed : options.produce source = .error halt) :
    (options.transpile system.storage source).run files = (.error halt, files) := by
  rw [Options.transpile, failed]
  rfl

private theorem run_transpile_of_listing {text : String}
    (listed : options.produce source = .ok (.listing text)) :
    (options.transpile system.storage source).run files = (.ok (.listed text), files) := by
  rw [Options.transpile, listed]
  rfl

private theorem run_transpile_of_code {path text : String} {outcome : Except FileError Unit}
    (produced : options.produce source = .ok (.code path text))
    (ran : (system.storage.write path text.toUTF8).run files = (outcome, next)) :
    (options.transpile system.storage source).run files =
      ((outcome.mapError fun cause => .fault (.unwritable path cause)).map fun _ =>
        .written path text.utf8ByteSize, next) := by
  rw [Options.transpile, produced]
  dsimp only
  rw [run_bind_of_run ran]
  cases outcome <;> rfl

theorem run_process {session : Session} {useColors : Bool}
    (ran : (runSession system.storage arguments).run files = (session, next)) :
    (runProcess system.storage useColors arguments).run files =
      (session.processResult useColors, next) := by
  rw [runProcess, run_bind_of_run ran]
  rfl

/-! ### What a run does -/

/-- A run that stops changes no file and announces what stopped it. -/
private theorem run_of_stops {code : AbortCode} {message : String}
    (asked : Command.ofArguments arguments = .ok (.transpile options))
    (stops : system.Stops files options code message) :
    ∃ session after, (runSession system.storage arguments).run files = (session, after) ∧
      system.contents after = system.contents files ∧
      ∀ useColors, (session.processResult useColors).Announces code message := by
  -- Whatever fails before the code is written leaves even the state as it is.
  have unproduced {source : String} {error : RunError} (hasCause : error ≠ .generation [])
      (loads : system.Loads files options.inputs source)
      (failed : options.produce source = .error (.fault error)) :
      ∃ session after, (runSession system.storage arguments).run files = (session, after) ∧
        system.contents after = system.contents files ∧
        ∀ useColors, (session.processResult useColors).Announces error.abortCode
          error.abortMessage :=
    ⟨_, files, run_session_of_loads asked loads (run_transpile_of_error failed), rfl,
      fun _ => RunError.announces hasCause _⟩
  cases stops with
  | input inputs earlier refuses =>
      exact ⟨_, files, run_session_of_refuses asked inputs earlier refuses, rfl,
        fun _ => RunError.announces (by simp) _⟩
  | source loads failed => exact unproduced (by simp) loads (Options.produce_of_source failed)
  | format noListing loads parses unknown =>
      refine @unproduced _ (.unknownFormat options.resolvedFormat) (by simp) loads ?_
      rw [Options.produce_of_code parses noListing, compileModule, unknown]
      rfl
  | generation noListing loads parses known body earlier failed =>
      obtain ⟨others, compiled⟩ := compileModule_of_failure known body earlier failed
      refine @unproduced _ (.generation (_ :: others)) (by simp) loads ?_
      rw [Options.produce_of_code parses noListing, compiled]
      rfl
  | @output source code tree cause noListing loads parses generates failed =>
      have produced := Options.produce_of_generates parses noListing generates
      have ran : (system.storage.write options.outputPath code.toUTF8).run files =
        (.error cause, _) := Prod.ext failed rfl
      exact ⟨_, _, run_session_of_loads asked loads (run_transpile_of_code produced ran),
        system.write_keeps ran, fun _ => RunError.announces (by simp) _⟩

/-- A run that is ended by an overflow changes no file, and shows nothing else. -/
theorem run_of_overflows {operation : Overflow}
    (asked : Command.ofArguments arguments = .ok (.transpile options))
    (overflows : system.Overflows files options operation) :
    ∃ session, (runSession system.storage arguments).run files = (session, files) ∧
      ∀ useColors, session.processResult useColors = operation.processResult := by
  obtain ⟨source, loads, failed⟩ := overflows
  have produced : options.produce source = .error (.overflow operation) :=
    Options.produce_of_source failed
  exact ⟨_, run_session_of_loads asked loads (run_transpile_of_error produced), fun _ => rfl⟩

/-- A run that can write its code does so, in one place. -/
theorem run_of_completes {code : String}
    (asked : Command.ofArguments arguments = .ok (.transpile options))
    (completes : system.Completes files options source code) :
    ∃ after, (runSession system.storage arguments).run files =
        (.finished options source (.ok (.written options.outputPath code.utf8ByteSize)), after) ∧
      system.contents after =
        stored (system.contents files) (system.place? files options.outputPath) code.toUTF8 := by
  obtain ⟨tree, parses, generates⟩ := completes.generates
  have produced := Options.produce_of_generates parses completes.noListing generates
  have ran : (system.storage.write options.outputPath code.toUTF8).run files = (.ok (), _) :=
    Prod.ext completes.writes rfl
  exact ⟨_, run_session_of_loads asked completes.loads (run_transpile_of_code produced ran),
    system.write_stores ran⟩

/-- A run that can list its tree does so. -/
theorem run_of_lists {tree : Module}
    (asked : Command.ofArguments arguments = .ok (.transpile options))
    (lists : system.Lists files options source tree) :
    (runSession system.storage arguments).run files =
      (.finished options source (.ok (.listed tree.listing)), files) :=
  run_session_of_loads asked lists.loads
    (run_transpile_of_listing (Options.produce_of_listing lists.parses lists.listing))

/-- A run can list its tree, or write its code, or something stops it, or an overflow ends it. -/
private theorem run_cases (system : FileSystem σ κ) (files : σ) (options : Options) :
    (∃ source tree, system.Lists files options source tree) ∨
      (∃ source code, system.Completes files options source code) ∨
      (∃ code message, system.Stops files options code message) ∨
      ∃ operation, system.Overflows files options operation := by
  rcases reads_all_or_refuses system files options.inputs with
    ⟨texts, all⟩ | ⟨before, path, after, cause, inputs, earlier, refuses⟩
  · obtain ⟨source, loads⟩ : ∃ source, system.Loads files options.inputs source :=
      ⟨_, texts, all, rfl⟩
    cases parses : Module.ofSource source with
    | error halt =>
        cases halt with
        | fault cause => exact .inr (.inr (.inl ⟨_, _, .source loads parses⟩))
        | overflow operation => exact .inr (.inr (.inr ⟨operation, source, loads, parses⟩))
    | ok tree =>
        cases listing : options.listTree with
        | true => exact .inl ⟨source, tree, listing, loads, parses⟩
        | false =>
            rcases options.generates_cases tree with ⟨code, generates⟩ | unknown |
              ⟨generator, before, stmt, after, error, known, body, earlier, failed⟩
            · cases written :
                  ((system.storage.write options.outputPath code.toUTF8).run files).1 with
              | ok =>
                  exact .inr (.inl
                    ⟨source, code, listing, loads, ⟨tree, parses, generates⟩, written⟩)
              | error cause =>
                  exact .inr (.inr (.inl ⟨_, _, .output listing loads parses generates written⟩))
            · exact .inr (.inr (.inl ⟨_, _, .format listing loads parses unknown⟩))
            · exact .inr (.inr (.inl
                ⟨_, _, .generation listing loads parses known body earlier failed⟩))
  · exact .inr (.inr (.inl ⟨_, _, .input inputs earlier refuses⟩))

/-- How a run may end, and the files after it. -/
inductive Ends (system : FileSystem σ κ) (files : σ) (arguments : List String) :
    Session → σ → Prop where
  | badArguments {error : ArgumentError} (refused : Command.ofArguments arguments = .error error) :
      Ends system files arguments (.badArguments error) files
  | help (asked : Command.ofArguments arguments = .ok .help) :
      Ends system files arguments .help files
  | version (asked : Command.ofArguments arguments = .ok .version) :
      Ends system files arguments .version files
  | listed {options : Options} {source : String} {tree : Module}
      (asked : Command.ofArguments arguments = .ok (.transpile options))
      (lists : system.Lists files options source tree) :
      Ends system files arguments (.finished options source (.ok (.listed tree.listing))) files
  | written {options : Options} {source code : String} {after : σ}
      (asked : Command.ofArguments arguments = .ok (.transpile options))
      (completes : system.Completes files options source code) :
      Ends system files arguments
        (.finished options source (.ok (.written options.outputPath code.utf8ByteSize))) after
  | stopped {options : Options} {code : AbortCode} {message : String} {session : Session}
      {after : σ} (asked : Command.ofArguments arguments = .ok (.transpile options))
      (stops : system.Stops files options code message)
      (kept : system.contents after = system.contents files)
      (announces : ∀ useColors, (session.processResult useColors).Announces code message) :
      Ends system files arguments session after
  | overflowed {options : Options} {operation : Overflow} {session : Session}
      (asked : Command.ofArguments arguments = .ok (.transpile options))
      (overflows : system.Overflows files options operation)
      (shows : ∀ useColors, session.processResult useColors = operation.processResult) :
      Ends system files arguments session files

theorem ends_of_run {session : Session} {after : σ}
    (ran : (runSession system.storage arguments).run files = (session, after)) :
    system.Ends files arguments session after := by
  cases asked : Command.ofArguments arguments with
  | error error =>
      rw [run_session_of_badArguments asked] at ran
      obtain ⟨rfl, rfl⟩ := Prod.mk.inj ran
      exact .badArguments asked
  | ok command =>
      cases command with
      | help =>
          rw [run_session_of_help asked] at ran
          obtain ⟨rfl, rfl⟩ := Prod.mk.inj ran
          exact .help asked
      | version =>
          rw [run_session_of_version asked] at ran
          obtain ⟨rfl, rfl⟩ := Prod.mk.inj ran
          exact .version asked
      | transpile options =>
          rcases run_cases system files options with ⟨source, tree, lists⟩ |
            ⟨source, code, completes⟩ | ⟨code, message, stops⟩ | ⟨operation, overflows⟩
          · rw [run_of_lists asked lists] at ran
            obtain ⟨rfl, rfl⟩ := Prod.mk.inj ran
            exact .listed asked lists
          · obtain ⟨next, written, _⟩ := run_of_completes asked completes
            rw [written] at ran
            obtain ⟨rfl, rfl⟩ := Prod.mk.inj ran
            exact .written asked completes
          · obtain ⟨stopped, next, ended, kept, announces⟩ := run_of_stops asked stops
            rw [ended] at ran
            obtain ⟨rfl, rfl⟩ := Prod.mk.inj ran
            exact .stopped asked stops kept announces
          · obtain ⟨overflowed, ended, shows⟩ := run_of_overflows asked overflows
            rw [ended] at ran
            obtain ⟨rfl, rfl⟩ := Prod.mk.inj ran
            exact .overflowed asked overflows shows

namespace Ends

variable {session : Session} {after : σ} {useColors : Bool}

theorem contents_eq (ends : system.Ends files arguments session after)
    (unwritten : ¬∃ options source code,
      Command.ofArguments arguments = .ok (.transpile options) ∧
        system.Completes files options source code) :
    system.contents after = system.contents files := by
  cases ends with
  | badArguments => rfl
  | help => rfl
  | version => rfl
  | listed => rfl
  | written asked completes => exact absurd ⟨_, _, _, asked, completes⟩ unwritten
  | stopped _ _ kept => exact kept
  | overflowed => rfl

theorem of_systemStatus_eq_zero (ends : system.Ends files arguments session after)
    (isZero : (session.processResult useColors).systemStatus = 0) :
    Command.ofArguments arguments = .ok .help ∨ Command.ofArguments arguments = .ok .version ∨
      (∃ options source tree, Command.ofArguments arguments = .ok (.transpile options) ∧
        system.Lists files options source tree) ∨
      ∃ options source code, Command.ofArguments arguments = .ok (.transpile options) ∧
        system.Completes files options source code := by
  cases ends with
  | badArguments => contradiction
  | help asked => exact .inl asked
  | version asked => exact .inr (.inl asked)
  | listed asked lists => exact .inr (.inr (.inl ⟨_, _, _, asked, lists⟩))
  | written asked completes => exact .inr (.inr (.inr ⟨_, _, _, asked, completes⟩))
  | stopped _ _ _ announces => exact absurd isZero (announces useColors).systemStatus_ne_zero
  | overflowed _ _ shows =>
      rw [shows useColors] at isZero
      cases isZero

theorem stops_of_systemStatus_ne_zero (ends : system.Ends files arguments session after)
    (asked : Command.ofArguments arguments = .ok (.transpile options))
    (failed : (session.processResult useColors).systemStatus ≠ 0) :
    (∃ code message, system.Stops files options code message ∧
      (session.processResult useColors).Announces code message) ∨
      ∃ operation, system.Overflows files options operation ∧
        session.processResult useColors = operation.processResult := by
  cases ends with
  | badArguments refused => cases refused.symm.trans asked
  | help other => cases other.symm.trans asked
  | version other => cases other.symm.trans asked
  | listed => exact absurd rfl failed
  | written => exact absurd rfl failed
  | stopped other stops _ announces =>
      obtain rfl := Command.transpile.inj (Except.ok.inj (other.symm.trans asked))
      exact .inl ⟨_, _, stops, announces useColors⟩
  | overflowed other overflows shows =>
      obtain rfl := Command.transpile.inj (Except.ok.inj (other.symm.trans asked))
      exact .inr ⟨_, overflows, shows useColors⟩

end Ends
end FileSystem

theorem fromUTF8?_toUTF8 (text : String) : String.fromUTF8? text.toUTF8 = some text := by
  simp only [String.fromUTF8?, String.toUTF8_eq_toByteArray, dif_pos text.isValidUTF8]
  rfl

/-- A text between two characters that are not blanks has none to remove. -/
private theorem trimmed_of_ends {text : String} {first last : Char} {middle : List Char}
    (shape : text.toList = first :: (middle ++ [last])) (firstStays : Text.isBlank first = false)
    (lastStays : Text.isBlank last = false) : trimmed text = text := by
  rw [trimmed, Text.trimBlank, shape, List.dropWhile_cons_of_neg (by simp [firstStays]),
    Text.trimBlankEnd, ← List.cons_append, List.reverse_concat,
    List.dropWhile_cons_of_neg (by simp [lastStays]), ← List.reverse_concat, List.reverse_reverse,
    List.cons_append, ← shape, String.ofList_toList]

/-- The only input is a text whose second line has too many tabs. -/
private theorem overflows_of_tabs {text : String} {count : Nat} (wide : counterMax < 8 * count)
    (small : text.utf8ByteSize ≤ Span.offsetLimit)
    (shape : text.toList = "x\n".toList ++ (List.replicate count '\t' ++ ['y'])) :
    FileTree.fileSystem.Overflows (FileTree.empty.addFile ["tmp", "work", "a.py"] text.toUTF8)
      { inputs := ["a.py"] } .multiplication := by
  have kept : text = String.intercalate "\n" ([text].map trimmed) := by
    rw [List.map_singleton,
      @trimmed_of_ends text 'x' 'y' ('\n' :: List.replicate count '\t') shape rfl rfl]
    rfl
  refine ⟨text, ⟨[text], .cons ⟨text.toUTF8, rfl, fromUTF8?_toUTF8 text⟩ .nil, kept⟩, ?_⟩
  have cut : Lexeme.split "x\n".toList = [⟨.word, ['x']⟩, ⟨.lineBreak, ['\n']⟩] := by
    decide +kernel
  have runs : ∃ emitted here, Layout.Runs .initial 0 (Lexeme.split "x\n".toList) emitted here ∧
      here.margin = some (.empty (Text.byteLength "x\n".toList)) := by
    rw [cut]
    exact ⟨_, _, .more rfl (.more rfl .none), rfl⟩
  obtain ⟨emitted, here, runs, begins⟩ := runs
  exact Module.ofSource_eq_overflow_iff.mpr (Layout.tokenize_of_tabs rfl wide shape small
    (.inr ⟨['x'], rfl⟩) runs begins rfl (by decide))

end Transpiler
