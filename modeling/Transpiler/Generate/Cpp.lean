import Transpiler.Generate.Failure
import Transpiler.Syntax.Tree

/-!
Contract: C++ text for expressions and statements.

Every statement becomes one line that ends in a semicolon. Identifiers and
annotations are copied as they are written, and no types are consulted. Operands are
written side by side, so the text groups as C++ groups it. Faults are found in the
order in which the parts are generated, and the first one is reported.
-/

namespace Transpiler.Cpp

/-- What generation depends on besides the tree. -/
structure Context where
  /-- The path of the generator in messages. -/
  generator : String
  /-- Whether the contents of strings are escaped. -/
  escapeStrings : Bool
deriving DecidableEq, Repr

namespace Context

/-- A rule has no case for a node. -/
def unsupported (context : Context) (category kindName : String) (span : Span) :
    GenerationError :=
  .unsupported ⟨context.generator, category, kindName, span⟩ none

/-- A rule needs a node of another kind. -/
def malformed (context : Context) (category kindName expected : String) (span : Span) :
    GenerationError :=
  .malformed ⟨context.generator, category, kindName, span⟩ expected

end Context

/-- One character inside an escaped string literal. -/
def escapeCharacter (character : Char) : List Char :=
  if character == '\\' then ['\\', '\\']
  else if character == '"' then ['\\', '"']
  else if character == '\n' then ['\\', 'n']
  else if character == '\r' then ['\\', 'r']
  else if character == '\t' then ['\\', 't']
  else if character == '\x00' then ['\\', '0']
  else if character.toNat < 32 || character.toNat == 127 then
    '\\' :: Text.padZeros 3 (Text.radixDigits 8 character.toNat)
  else [character]

/-- A string as a C++ literal with its contents escaped. -/
def escapedLiteral (text : String) : String :=
  String.ofList (['"'] ++ text.toList.flatMap escapeCharacter ++ ['"'])

/-- The text of a constant, if constants of its kind can be generated. -/
def constant? (escapeStrings : Bool) : Constant → Option String
  | .bool value => some (if value then "true" else "false")
  | .int value => some (toString value)
  | .bigInt digits => some digits
  | .float number => some number.render
  | .str text => some (if escapeStrings then escapedLiteral text else "\"" ++ text ++ "\"")
  | .none | .bytes _ | .ellipsis => none

/-- The text of a binary operation on generated operands, if the operator can be
generated. -/
def operation? (operator : BinaryOp) (left right : String) : Option String :=
  match operator with
  | .add | .sub | .mult | .div => some (left ++ " " ++ operator.symbol ++ " " ++ right)
  | .pow => some ("pow(" ++ left ++ ", " ++ right ++ ")")
  | _ => none

mutual

def expression (context : Context) (expr : Expr) : Except GenerationError String :=
  match expr with
  | .binary left operator right span => do
      let leftText ← expression context left
      let rightText ← expression context right
      match operation? operator leftText rightText with
      | some text => return text
      | none => throw (context.unsupported "bin_op/operator" operator.kindName span)
  | .call callee arguments _ => do
      match callee.name? with
      | none => throw (context.unsupported "name" callee.kindName callee.span)
      | some name =>
          let argumentTexts ← expressions context arguments
          return name ++ "(" ++ String.intercalate ", " argumentTexts ++ ")"
  | .constant value span =>
      match constant? context.escapeStrings value with
      | some text => .ok text
      | none =>
          .error (.unsupported ⟨context.generator, "constant", "Constant", span⟩
            (some value.kindName))
  | .name identifier _ => .ok identifier
  | .unary _ _ span => .error (context.unsupported "expression" expr.kindName span)
  | .member _ _ span => .error (context.unsupported "expression" expr.kindName span)
  | .list _ span => .error (context.unsupported "expression" expr.kindName span)
  | .tuple _ span => .error (context.unsupported "expression" expr.kindName span)
  | .unsupported _ span => .error (context.unsupported "expression" expr.kindName span)

def expressions (context : Context) : List Expr → Except GenerationError (List String)
  | [] => .ok []
  | first :: rest => do
      let firstText ← expression context first
      let restTexts ← expressions context rest
      return firstText :: restTexts

end

/-- The identifier of a node that must be a bare name. -/
def bareName (context : Context) (category : String) (expr : Expr) :
    Except GenerationError String :=
  match expr.name? with
  | some identifier => .ok identifier
  | none => .error (context.malformed category expr.kindName "Name" expr.span)

/-- The line of a statement, without its line break. -/
def statement (context : Context) (stmt : Stmt) : Except GenerationError String :=
  match stmt with
  | .annotated target annotation value span => do
      let targetText ← bareName context "ann_assign/target" target
      let valueText ←
        match value with
        | some value => expression context value
        | none => throw (context.unsupported "expression" "NoneType" span)
      let annotationText ← bareName context "ann_assign/annotation" annotation
      return annotationText ++ " " ++ targetText ++ " = " ++ valueText ++ ";"
  | .expression value _ => return (← expression context value) ++ ";"
  | .assign _ _ span => .error (context.unsupported "statement" stmt.kindName span)
  | .augmented _ _ _ span => .error (context.unsupported "statement" stmt.kindName span)
  | .pass span => .error (context.unsupported "statement" stmt.kindName span)
  | .unsupported _ span => .error (context.unsupported "statement" stmt.kindName span)

end Transpiler.Cpp
