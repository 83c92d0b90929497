import Transpiler.Syntax.Tree
import Transpiler.Text.Quoted

/-!
Contract: syntax nodes on one line, with their locations.

Each node is written as its kind, its parts and ` @ start..stop`. Unlike the
indented listing this form shows locations, the bits of floating-point values and
the difference between small and large integers.
-/

namespace Transpiler.Inspect

/-- Items between square brackets. -/
def sequence (items : List String) : String :=
  "[" ++ String.intercalate ", " items ++ "]"

/-- A kind with one unnamed part. -/
def wrapped (kind : String) (part : String) : String :=
  kind ++ "(" ++ part ++ ")"

/-- A kind with named parts. -/
def record (kind : String) (parts : List (String × String)) : String :=
  kind ++ " \x7b " ++ String.intercalate ", " (parts.map fun (label, text) => label ++ ": " ++ text)
    ++ " \x7d"

/-- A text with its location. -/
def located (text : String) (span : Span) : String :=
  text ++ " @ " ++ span.render

/-- The bytes as decimal numbers. -/
def byteSequence (content : List UInt8) : String :=
  sequence (content.map fun byte => toString byte.toNat)

end Transpiler.Inspect

namespace Transpiler

open Inspect

def Constant.inspect : Constant → String
  | .bool value => wrapped "Bool" (if value then "true" else "false")
  | .int value => wrapped "Int" (toString value)
  | .bigInt digits => wrapped "BigInt" (Text.quoteString digits)
  | .float number => wrapped "Float" (toString number.bits.toNat)
  | .str text => wrapped "Str" (Text.quoteString text)
  | .none => "None"
  | .bytes content => wrapped "Bytes" (byteSequence content)
  | .ellipsis => "Ellipsis"

mutual

def Expr.inspect : Expr → String
  | .binary left operator right span =>
      located (record "BinOp" [("left", left.inspect), ("op", operator.kindName),
        ("right", right.inspect)]) span
  | .unary operator operand span =>
      located (record "UnaryOp" [("op", operator.kindName), ("operand", operand.inspect)]) span
  | .call callee arguments span =>
      located (record "Call" [("func", callee.inspect),
        ("args", sequence (Expr.inspectAll arguments))]) span
  | .constant value span => located (wrapped "Constant" value.inspect) span
  | .name identifier span => located (wrapped "Name" (Text.quoteString identifier)) span
  | .member value memberName span =>
      located (record "Attribute" [("value", value.inspect),
        ("attr", Text.quoteString memberName)]) span
  | .list elements span => located (wrapped "List" (sequence (Expr.inspectAll elements))) span
  | .tuple elements span => located (wrapped "Tuple" (sequence (Expr.inspectAll elements))) span
  | .unsupported kindName span =>
      located (wrapped "Unsupported" (Text.quoteString kindName)) span

def Expr.inspectAll : List Expr → List String
  | [] => []
  | first :: rest => first.inspect :: Expr.inspectAll rest

end

def Stmt.inspect : Stmt → String
  | .annotated target annotation value span =>
      let valueText :=
        match value with
        | some value => wrapped "Some" value.inspect
        | none => "None"
      located (record "AnnAssign" [("target", target.inspect), ("annotation", annotation.inspect),
        ("value", valueText)]) span
  | .expression value span => located (wrapped "Expr" value.inspect) span
  | .assign targets value span =>
      located (record "Assign" [("targets", sequence (Expr.inspectAll targets)),
        ("value", value.inspect)]) span
  | .augmented target operator value span =>
      located (record "AugAssign" [("target", target.inspect), ("op", operator.kindName),
        ("value", value.inspect)]) span
  | .pass span => located "Pass" span
  | .unsupported kindName span =>
      located (wrapped "Unsupported" (Text.quoteString kindName)) span

end Transpiler
