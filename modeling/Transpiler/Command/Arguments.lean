import Transpiler.Generate.Generator

/-!
Contract: the command line.

Arguments are read from left to right. Flags that take a value take it from the next
argument or, for long flags, from behind an equals sign. Asking for help or for the
version ends the reading, and so does the first fault.
-/

namespace Transpiler

def usageLines : List String :=
  ["Usage: dragonsnake <input_files>... [options] -o <output_file>",
    "",
    "Dragonsnake Python-to-C++ Transpiler",
    "",
    "Options:",
    "  -f, --format <fmt>   Output format (default: output file extension, else cpp)",
    "  -o, --output <path>  Output file (default: main.cpp for cpp, program.exe for exe)",
    "      --ast            Print the parsed syntax tree and exit",
    "      --keep-going     Report every generation failure, not just the first",
    "      --escape-strings Escape quotes, backslashes and control characters in strings",
    "  -V, --verbose        Debug logging (RUST_LOG overrides)",
    "      --debug          Hierarchical trace output",
    "  -h, --help           Print this help",
    "      --version        Print the version"]

def usage : String :=
  String.intercalate "\n" usageLines

def versionText : String := "dragonsnake 0.1.0"

/-- What a run is asked to do. -/
structure Options where
  inputs : List String := []
  listTree : Bool := false
  debug : Bool := false
  format : Option String := none
  output : Option String := none
  verbose : Bool := false
  keepGoing : Bool := false
  escapeStrings : Bool := false
deriving DecidableEq, Repr

inductive Command where
  | transpile (options : Options)
  | help
  | version
deriving DecidableEq, Repr

inductive ArgumentError where
  | missingValue (flag : String)
  | unknownFlag (argument : String)
  | noInputs
deriving DecidableEq, Repr

def ArgumentError.message : ArgumentError → String
  | .missingValue flag => "`" ++ flag ++ "` requires a value"
  | .unknownFlag argument => "unknown option `" ++ argument ++ "`"
  | .noInputs => "no input files"

/-- The flags that take a value. -/
inductive ValueFlag where
  | format
  | output
deriving DecidableEq, Repr

def ValueFlag.apply (flag : ValueFlag) (value : String) (options : Options) : Options :=
  match flag with
  | .format => { options with format := some value }
  | .output => { options with output := some value }

/-- The flags that are given or not. -/
inductive Switch where
  | listTree
  | debug
  | verbose
  | keepGoing
  | escapeStrings
deriving DecidableEq, Repr

def Switch.apply (switch : Switch) (options : Options) : Options :=
  match switch with
  | .listTree => { options with listTree := true }
  | .debug => { options with debug := true }
  | .verbose => { options with verbose := true }
  | .keepGoing => { options with keepGoing := true }
  | .escapeStrings => { options with escapeStrings := true }

/-- What a flag stands for. -/
inductive FlagMeaning where
  | help
  | version
  | switch (switch : Switch)
  | valued (flag : ValueFlag)
deriving DecidableEq, Repr

def flagMeaning? (flag : String) : Option FlagMeaning :=
  match flag with
  | "-h" | "--help" => some .help
  | "--version" => some .version
  | "--ast" => some (.switch .listTree)
  | "--debug" => some (.switch .debug)
  | "-V" | "--verbose" => some (.switch .verbose)
  | "--keep-going" => some (.switch .keepGoing)
  | "--escape-strings" => some (.switch .escapeStrings)
  | "-f" | "--format" => some (.valued .format)
  | "-o" | "--output" => some (.valued .output)
  | _ => none

/-- The flag of an argument and the value behind its first equals sign. Only what begins
with two dashes is cut at an equals sign. -/
def splitArgument (argument : String) : String × Option String :=
  let characters := argument.toList
  let flag := characters.takeWhile (· != '=')
  if flag.length < characters.length && ['-', '-'].isPrefixOf flag then
    (String.ofList flag, some (String.ofList (characters.drop (flag.length + 1))))
  else (argument, none)

def looksLikeFlag (argument : String) : Bool :=
  argument.toList.head? == some '-'

/-- Reads arguments into options that some arguments have already been read into. -/
def readArguments (options : Options) : List String → Except ArgumentError Command
  | [] => if options.inputs.isEmpty then .error .noInputs else .ok (.transpile options)
  | argument :: rest =>
      let (flag, inlineValue) := splitArgument argument
      match flagMeaning? flag with
      | some .help => .ok .help
      | some .version => .ok .version
      | some (.switch switch) => readArguments (switch.apply options) rest
      | some (.valued valueFlag) =>
          match inlineValue, rest with
          | some value, rest => readArguments (valueFlag.apply value options) rest
          | none, value :: rest => readArguments (valueFlag.apply value options) rest
          | none, [] => .error (.missingValue flag)
      | none =>
          if looksLikeFlag flag then .error (.unknownFlag argument)
          else readArguments { options with inputs := options.inputs ++ [argument] } rest

/-- The command that arguments ask for. -/
def Command.ofArguments (arguments : List String) : Except ArgumentError Command :=
  readArguments {} arguments

/-! ### What the options amount to -/

/-- The parts of a path between its slashes. -/
def pathParts : List Char → List (List Char)
  | [] => [[]]
  | character :: rest =>
      match character == '/', pathParts rest with
      | true, parts => [] :: parts
      | false, first :: parts => (character :: first) :: parts
      | false, [] => [[character]]

/-- The part of a file name after its last dot. A name whose only dot is its first
character has none, and neither has a path that ends in `..`; slashes and dots that name
a directory again are passed over at the end of a path. -/
def fileExtension? (path : String) : Option String := do
  let parts := (pathParts path.toList).filter fun part => part != [] && part != ['.']
  let name ← parts.getLast?
  if name == ['.', '.'] || !name.contains '.' then none
  else
    let reversed := name.reverse
    let extension := (reversed.takeWhile (· != '.')).reverse
    if extension.length + 1 = name.length then none else some (String.ofList extension)

/-- The output file of a format when none is given. -/
def defaultOutput (format : String) : String :=
  match format with
  | "exe" => "program.exe"
  | "cpp" => "main.cpp"
  | _ => "program"

namespace Options

/-- The format to generate: the one asked for, else the extension of the output file,
else C++. -/
def resolvedFormat (options : Options) : String :=
  match options.format.filter (!·.isEmpty) with
  | some format => format
  | none => (options.output.bind fileExtension?).getD "cpp"

/-- The output file for a format. -/
def resolvedOutput (options : Options) (format : String) : String :=
  options.output.getD (defaultOutput format)

def generationOptions (options : Options) : GenerationOptions :=
  ⟨options.escapeStrings, if options.keepGoing then .collectAll else .failFast⟩

/-- The name that reports show for the joined inputs. -/
def sourceName (options : Options) : String :=
  match options.inputs with
  | [input] => input
  | _ => "<inputs>"

end Options
end Transpiler
