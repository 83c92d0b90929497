import Transpiler.Decimal.Layout

/-!
Contract: literal values.

Owns: the constants of the syntax tree and how each is written as a literal. A
string is written between single quotes unless it holds a single and no double
quote; backslash, line feed, carriage return, tab and the chosen quote are escaped
by a backslash, control characters by two hexadecimal digits.
-/

namespace Transpiler

/-- A literal value. -/
inductive Constant where
  | bool (value : Bool)
  /-- An integer that fits 64 bits with sign. -/
  | int (value : Int)
  /-- A larger integer, by its decimal digits. -/
  | bigInt (digits : String)
  | float (number : Binary64)
  | str (text : String)
  | none
  | bytes (content : List UInt8)
  | ellipsis
deriving DecidableEq, Repr

namespace Constant

/-- The name of the value's type in messages. -/
def kindName : Constant → String
  | .bool _ => "bool"
  | .int _ | .bigInt _ => "int"
  | .float _ => "float"
  | .str _ => "str"
  | .none => "None"
  | .bytes _ => "bytes"
  | .ellipsis => "ellipsis"

def float? : Constant → Option Binary64
  | .float number => some number
  | _ => Option.none

end Constant

namespace Literal

/-- The quote sign for a literal with the given contents. -/
def quoteFor (contents : List Char) : Char :=
  if contents.contains '\'' && !contents.contains '"' then '"' else '\''

/-- A control character: code points below 32 and from 127 to 159. -/
def isControl (character : Char) : Bool :=
  character.toNat < 32 || (127 ≤ character.toNat && character.toNat ≤ 159)

/-- A character by its two hexadecimal digits. -/
def hexEscape (codePoint : Nat) : List Char :=
  ['\\', 'x'] ++ Text.padZeros 2 (Text.hexDigits codePoint)

/-- One character of a literal; `byCode` tells which of the characters without a short
escape are written by their code point. -/
def escapeCharacter (quote : Char) (byCode : Char → Bool) (character : Char) : List Char :=
  if character == '\\' then ['\\', '\\']
  else if character == '\n' then ['\\', 'n']
  else if character == '\r' then ['\\', 'r']
  else if character == '\t' then ['\\', 't']
  else if character == quote then ['\\', character]
  else if byCode character then hexEscape character.toNat
  else [character]

/-- The contents of a literal between its quotes. -/
def quoteContents (byCode : Char → Bool) (contents : List Char) : List Char :=
  let quote := quoteFor contents
  [quote] ++ contents.flatMap (escapeCharacter quote byCode) ++ [quote]

/-- A string as a literal. -/
def ofString (text : String) : String :=
  String.ofList (quoteContents isControl text.toList)

/-- A byte outside printable ASCII. -/
def isUnprintable (character : Char) : Bool :=
  character.toNat < 32 || 126 < character.toNat

/-- A byte sequence as a literal. -/
def ofBytes (content : List UInt8) : String :=
  String.ofList ('b' :: quoteContents isUnprintable (content.map fun byte => Char.ofNat byte.toNat))

end Literal

/-- A constant as it is written in source text. -/
def Constant.literal : Constant → String
  | .bool true => "True"
  | .bool false => "False"
  | .int value => toString value
  | .bigInt digits => digits
  | .float number => number.render
  | .str text => Literal.ofString text
  | .none => "None"
  | .bytes content => Literal.ofBytes content
  | .ellipsis => "Ellipsis"

end Transpiler
