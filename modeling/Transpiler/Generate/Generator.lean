import Transpiler.Generate.Cpp

/-!
Contract: code for whole modules.

A generator turns the statements of a module into lines, one after the other. It
either stops at the first failure or goes on and collects all of them; which lines
come out is decided here, the text of each line is not.
-/

namespace Transpiler

/-- The formats that code can be generated in. -/
inductive TargetFormat where
  | cpp
deriving DecidableEq, Repr

namespace TargetFormat

def all : List TargetFormat := [.cpp]

def name : TargetFormat → String
  | .cpp => "cpp"

def ofName? (name : String) : Option TargetFormat :=
  all.find? (·.name == name)

end TargetFormat

/-- What to do after a failure. -/
inductive FailurePolicy where
  | failFast
  | collectAll
deriving DecidableEq, Repr

structure GenerationOptions where
  escapeStrings : Bool := false
  policy : FailurePolicy := .failFast
deriving DecidableEq, Repr

/-- Lines written so far. -/
structure CodeBuffer where
  code : String
  lineCount : Nat
deriving DecidableEq, Repr

namespace CodeBuffer

def empty : CodeBuffer := ⟨"", 0⟩

/-- Adds a text and a line break. The text counts as one line, whatever it holds. -/
def writeLine (buffer : CodeBuffer) (line : String) : CodeBuffer :=
  ⟨buffer.code ++ line ++ "\n", buffer.lineCount + 1⟩

/-- The code, and an empty buffer. -/
def take (buffer : CodeBuffer) : String × CodeBuffer :=
  (buffer.code, empty)

end CodeBuffer

/-- What generation produced: the code, and the failures in source order. -/
structure Generated where
  code : String
  errors : List GenerationError
deriving DecidableEq, Repr

namespace Generated

def isSuccess (generated : Generated) : Bool :=
  generated.errors.isEmpty

def hasErrors (generated : Generated) : Bool :=
  !generated.isSuccess

/-- The code, unless there was a failure; then the first one. -/
def toResult (generated : Generated) : Except GenerationError String :=
  match generated.errors with
  | error :: _ => .error error
  | [] => .ok generated.code

end Generated

/-- A way to turn modules into code. -/
structure Generator where
  format : TargetFormat
  options : GenerationOptions
deriving DecidableEq, Repr

namespace Generator

/-- The generator for a format, if the format is known. -/
def ofFormat? (formatName : String) (options : GenerationOptions) : Option Generator :=
  (TargetFormat.ofName? formatName).map fun format => ⟨format, options⟩

/-- The path of the generator in messages. -/
def path (generator : Generator) : String :=
  "generator/" ++ generator.format.name

/-- The line of one statement. -/
def statement (generator : Generator) (stmt : Stmt) : Except GenerationError String :=
  match generator.format with
  | .cpp => Cpp.statement ⟨generator.path, generator.options.escapeStrings⟩ stmt

/-- The buffer after the lines of all statements, up to the first failure. -/
def writeAll (generator : Generator) (buffer : CodeBuffer) :
    List Stmt → Except GenerationError CodeBuffer
  | [] => .ok buffer
  | stmt :: rest => do
      let line ← generator.statement stmt
      generator.writeAll (buffer.writeLine line) rest

/-- The code of a module, or the first failure. -/
def generateModule (generator : Generator) (tree : Module) : Except GenerationError String :=
  (generator.writeAll .empty tree.body).map (·.take.1)

/-- The buffer after the lines of the statements that have one, and the failures of the
others. -/
def collectAll (generator : Generator) (buffer : CodeBuffer) :
    List Stmt → CodeBuffer × List GenerationError
  | [] => (buffer, [])
  | stmt :: rest =>
      match generator.statement stmt with
      | .ok line => generator.collectAll (buffer.writeLine line) rest
      | .error error =>
          let (written, errors) := generator.collectAll buffer rest
          (written, error :: errors)

/-- The code of the statements that have one, and the failures of the others. -/
def generateCollecting (generator : Generator) (tree : Module) : Generated :=
  let (buffer, errors) := generator.collectAll .empty tree.body
  ⟨buffer.take.1, errors⟩

/-- Generates as the options ask. Stopping at a failure leaves no code. -/
def generate (generator : Generator) (tree : Module) : Generated :=
  match generator.options.policy with
  | .collectAll => generator.generateCollecting tree
  | .failFast =>
      match generator.generateModule tree with
      | .ok code => ⟨code, []⟩
      | .error error => ⟨"", [error]⟩

end Generator

/-- C++ code for a module under the default options, or the first failure. -/
def generateCpp (tree : Module) : Except GenerationError String :=
  Generator.generateModule ⟨.cpp, {}⟩ tree

end Transpiler
