import Transpiler.Syntax.Tree

/-!
Contract: the indented listing of a syntax tree.

A node is written as its kind name with its fields in parentheses. It stays on one
line if it has at most three fields and all of them are simple; otherwise every
field has a line of its own, four columns further in. Atoms, nodes without fields
and empty sequences are simple. A field that holds an empty sequence is left out.
-/

namespace Transpiler

/-- What a listing shows: a text, a sequence, or a node with named fields. -/
inductive Outline where
  | atom (text : String)
  | sequence (items : List Outline)
  | node (kindName : String) (fields : List (String × Outline))

namespace Outline

def isEmptySequence : Outline → Bool
  | .sequence [] => true
  | _ => false

/-- The fields that are shown. -/
def shownFields (fields : List (String × Outline)) : List (String × Outline) :=
  fields.filter fun (_, value) => !value.isEmptySequence

def isSimple : Outline → Bool
  | .atom _ => true
  | .sequence items => items.isEmpty
  | .node _ fields => (shownFields fields).isEmpty

/-- Whether the fields of a node stand on its own line. -/
def fitsOneLine (fields : List (String × Outline)) : Bool :=
  let shown := shownFields fields
  shown.all (·.2.isSimple) && shown.length ≤ 3

/-- A line break and the indentation of a level. -/
def lineBreak (level : Nat) : String :=
  String.ofList ('\n' :: List.replicate (4 * level) ' ')

/-- Texts on lines of their own at a level, the first one included. -/
def stacked (level : Nat) (texts : List String) : String :=
  lineBreak level ++ String.intercalate ("," ++ lineBreak level) texts

mutual

/-- The text of a piece at an indentation level. -/
def render (level : Nat) : Outline → String
  | .atom text => text
  | .sequence [] => "[]"
  | .sequence (first :: rest) =>
      "[" ++ stacked (level + 1) (first.render (level + 1) :: renderItems (level + 1) rest) ++ "]"
  | .node kindName fields =>
      let texts := renderFields (level + 1) fields
      let inner :=
        if fitsOneLine fields then String.intercalate ", " texts else stacked (level + 1) texts
      kindName ++ "(" ++ inner ++ ")"

def renderItems (level : Nat) : List Outline → List String
  | [] => []
  | first :: rest => first.render level :: renderItems level rest

def renderFields (level : Nat) : List (String × Outline) → List String
  | [] => []
  | (label, value) :: rest =>
      if value.isEmptySequence then renderFields level rest
      else (label ++ "=" ++ value.render level) :: renderFields level rest

end

end Outline

/-- Whether an expression is read or assigned to. -/
inductive Usage where
  | load
  | store
deriving DecidableEq, Repr

def Usage.outline : Usage → Outline
  | .load => .node "Load" []
  | .store => .node "Store" []

def BinaryOp.outline (operator : BinaryOp) : Outline :=
  .node operator.kindName []

def UnaryOp.outline (operator : UnaryOp) : Outline :=
  .node operator.kindName []

mutual

/-- An expression used in the given way. The elements of a list or tuple are used as
the whole is; every other part of an expression is read. -/
def Expr.outline (usage : Usage) : Expr → Outline
  | .binary left operator right _ =>
      .node "BinOp" [("left", left.outline .load), ("op", operator.outline),
        ("right", right.outline .load)]
  | .unary operator operand _ =>
      .node "UnaryOp" [("op", operator.outline), ("operand", operand.outline .load)]
  | .call callee arguments _ =>
      .node "Call" [("func", callee.outline .load),
        ("args", .sequence (Expr.outlineAll .load arguments))]
  | .constant value _ => .node "Constant" [("value", .atom value.literal)]
  | .name identifier _ =>
      .node "Name" [("id", .atom (Literal.ofString identifier)), ("ctx", usage.outline)]
  | .member value memberName _ =>
      .node "Attribute" [("value", value.outline .load),
        ("attr", .atom (Literal.ofString memberName)), ("ctx", usage.outline)]
  | .list elements _ =>
      .node "List" [("elts", .sequence (Expr.outlineAll usage elements)), ("ctx", usage.outline)]
  | .tuple elements _ =>
      .node "Tuple" [("elts", .sequence (Expr.outlineAll usage elements)), ("ctx", usage.outline)]
  | .unsupported kindName _ => .node kindName []

def Expr.outlineAll (usage : Usage) : List Expr → List Outline
  | [] => []
  | first :: rest => first.outline usage :: Expr.outlineAll usage rest

end

def Stmt.outline : Stmt → Outline
  | .annotated target annotation value _ =>
      let valueField := value.toList.map fun value => ("value", value.outline .load)
      let simple := if target.isName then "1" else "0"
      .node "AnnAssign" ([("target", target.outline .store),
        ("annotation", annotation.outline .load)] ++ valueField ++ [("simple", .atom simple)])
  | .expression value _ => .node "Expr" [("value", value.outline .load)]
  | .assign targets value _ =>
      .node "Assign" [("targets", .sequence (Expr.outlineAll .store targets)),
        ("value", value.outline .load)]
  | .augmented target operator value _ =>
      .node "AugAssign" [("target", target.outline .store), ("op", operator.outline),
        ("value", value.outline .load)]
  | .pass _ => .node "Pass" []
  | .unsupported kindName _ => .node kindName []

/-- The listing of a whole module. -/
def Module.listing (tree : Module) : String :=
  (Outline.node "Module" [("body", .sequence (tree.body.map Stmt.outline))]).render 0

end Transpiler
