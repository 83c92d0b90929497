import Transpiler.Command.Arguments
import Transpiler.Command.Storage
import Transpiler.Diagnostic.Queue
import Transpiler.Grammar.Statement
import Transpiler.Syntax.Outline
import Transpiler.Text.Blank

/-!
Contract: a whole run, from arguments to exit status.

A run reads its inputs, joins them, parses the joined source and either lists the tree
or generates code and writes it. Nothing is written unless every step before succeeded.
A failed run shows its diagnostics and announces the failure that stopped it. A run in which
a number does not fit ends at once and leaves neither.
-/

namespace Transpiler

/-- Why a run failed. -/
inductive RunError where
  | unreadable (path : String) (cause : FileError)
  | unwritable (path : String) (cause : FileError)
  | unknownFormat (format : String)
  | source (cause : ParseError)
  | generation (errors : List GenerationError)
deriving DecidableEq, Repr

namespace RunError

def message : RunError → String
  | .unreadable path cause => "could not read `" ++ path ++ "`: " ++ cause.message
  | .unwritable path cause => "could not write `" ++ path ++ "`: " ++ cause.message
  | .unknownFormat format => "unknown output format `" ++ format ++ "`"
  | .source cause => cause.message
  | .generation errors =>
      "code generation failed with " ++ toString errors.length ++ " error(s)"

/-- The class of the failure; that of a failed generation is the class of its first
error. -/
def abortCode : RunError → AbortCode
  | .unreadable .. | .unwritable .. | .unknownFormat _ => .unknown
  | .source _ => .sourceError
  | .generation errors => (errors.head?.map (·.abortCode)).getD .unknown

/-- The message that announces the failure; that of a failed generation is the message of
its first error. -/
def abortMessage : RunError → String
  | .generation errors => (errors.head?.map (·.message)).getD ""
  | error => error.message

/-- The line that announces the failure. -/
def announcement (error : RunError) : String :=
  error.abortCode.announce error.abortMessage

def diagnostics (error : RunError) : List Diagnostic :=
  match error with
  | .unreadable .. | .unwritable .. => [.error .fileAccess error.message]
  | .unknownFormat _ =>
      let formats := String.intercalate ", " (TargetFormat.all.map (·.name))
      [(Diagnostic.error .unknownFormat error.message).withNote ("supported formats: " ++ formats)]
  | .source cause => [cause.diagnostic]
  | .generation errors => errors.map (·.diagnostic)

end RunError

/-- The code of a module in a format. -/
def compileModule (format : String) (options : GenerationOptions) (tree : Module) :
    Except RunError String :=
  match Generator.ofFormat? format options with
  | none => .error (.unknownFormat format)
  | some generator =>
      let generated := generator.generate tree
      if generated.hasErrors then .error (.generation generated.errors) else .ok generated.code

/-- The module of a source. -/
def parseSource (source : String) : Except (Halt RunError) Module :=
  (Module.ofSource source).mapError (·.map .source)

/-- The code of a source in a format. -/
def compileSource (format : String) (options : GenerationOptions) (source : String) :
    Except (Halt RunError) String := do
  (compileModule format options (← parseSource source)).mapError .fault

/-- What a source yields before anything is written. -/
inductive Product where
  | listing (text : String)
  | code (path text : String)
deriving DecidableEq, Repr

/-- What the options make of a source. -/
def Options.produce (options : Options) (source : String) : Except (Halt RunError) Product := do
  let tree ← parseSource source
  if options.listTree then return .listing tree.listing
  else
    let format := options.resolvedFormat
    let code ← (compileModule format options.generationOptions tree).mapError .fault
    return .code (options.resolvedOutput format) code

/-- What a successful run did. -/
inductive Outcome where
  | listed (text : String)
  | written (path : String) (byteCount : Nat)
deriving DecidableEq, Repr

section

variable {m : Type → Type} [Monad m]

/-- The text of one input without the blanks around it. -/
def loadSource (storage : Storage m) (path : String) : m (Except RunError String) := do
  match ← storage.read path with
  | .error cause => return .error (.unreadable path cause)
  | .ok contents =>
      match String.fromUTF8? contents with
      | none => return .error (.unreadable path .invalidText)
      | some text => return .ok (String.ofList (Text.trimBlank text.toList))

/-- The texts of all inputs; the first that cannot be read stops. -/
def loadSources (storage : Storage m) : List String → m (Except RunError (List String))
  | [] => return .ok []
  | path :: rest => do
      match ← loadSource storage path with
      | .error error => return .error error
      | .ok text =>
          match ← loadSources storage rest with
          | .error error => return .error error
          | .ok texts => return .ok (text :: texts)

/-- The joined source of all inputs. -/
def Options.load (options : Options) (storage : Storage m) : m (Except RunError String) := do
  return (← loadSources storage options.inputs).map (String.intercalate "\n")

/-- Turns a source into what the options ask for, and writes it if it is code. -/
def Options.transpile (options : Options) (storage : Storage m) (source : String) :
    m (Except (Halt RunError) Outcome) := do
  match options.produce source with
  | .error halt => return .error halt
  | .ok (.listing text) => return .ok (.listed text)
  | .ok (.code path text) =>
      match ← storage.write path text.toUTF8 with
      | .error cause => return .error (.fault (.unwritable path cause))
      | .ok () => return .ok (.written path text.utf8ByteSize)

/-- How far a run got. -/
inductive Session where
  | badArguments (error : ArgumentError)
  | help
  | version
  | unreadable (error : RunError)
  | finished (options : Options) (source : String) (result : Except (Halt RunError) Outcome)

/-- Runs the command that arguments ask for. -/
def runSession (storage : Storage m) (arguments : List String) : m Session := do
  match Command.ofArguments arguments with
  | .error error => return .badArguments error
  | .ok .help => return .help
  | .ok .version => return .version
  | .ok (.transpile options) =>
      match ← options.load storage with
      | .error error => return .unreadable error
      | .ok source => return .finished options source (← options.transpile storage source)

end

/-- What a run leaves behind besides files. -/
structure ProcessResult where
  exitStatus : Int
  standardOutput : String
  standardError : String
deriving DecidableEq, Repr

/-- The status as the system keeps it: its low eight bits. -/
def ProcessResult.systemStatus (result : ProcessResult) : Nat :=
  (result.exitStatus % 256).toNat

/-- A failed run: its report, its announcement and its status. -/
def RunError.processResult (error : RunError) (terminal : Terminal) : ProcessResult :=
  ⟨error.abortCode.exitStatus, error.announcement ++ "\n",
    (terminal.report error.diagnostics).text⟩

/-- The report of a failure in a source that was read. -/
def Options.terminal (options : Options) (useColors : Bool) (source : String) : Terminal :=
  ⟨useColors, some (.ofText options.sourceName source)⟩

/-- A run that a number ended which did not fit: nothing is reported or announced. -/
def Overflow.processResult (operation : Overflow) : ProcessResult :=
  ⟨101, "", operation.message ++ "\n"⟩

/-- What a run shows, given whether its reports are coloured. -/
def Session.processResult (useColors : Bool) : Session → ProcessResult
  | .badArguments error =>
      let diagnostic := Diagnostic.error .invalidArguments error.message
      ⟨2, "", Terminal.render ⟨useColors, none⟩ diagnostic ++ usage ++ "\n"⟩
  | .help => ⟨0, usage ++ "\n", ""⟩
  | .version => ⟨0, versionText ++ "\n", ""⟩
  | .unreadable error => error.processResult ⟨useColors, none⟩
  | .finished _ _ (.ok (.listed text)) => ⟨0, text ++ "\n", ""⟩
  | .finished _ _ (.ok (.written ..)) => ⟨0, "", ""⟩
  | .finished options source (.error (.fault error)) =>
      error.processResult (options.terminal useColors source)
  | .finished _ _ (.error (.overflow operation)) => operation.processResult

/-- Runs the program on arguments. -/
def runProcess {m : Type → Type} [Monad m] (storage : Storage m) (useColors : Bool)
    (arguments : List String) : m ProcessResult := do
  return (← runSession storage arguments).processResult useColors

end Transpiler
