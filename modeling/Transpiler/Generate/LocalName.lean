import Transpiler.Text.Radix

/-!
Contract: collision-resistant names for local variables.

A local variable's name is made of digests of its function's number and of its source
name. Names with two leading underscores are kept, and a leading at sign keeps the
rest of the name. The digest is a multiplicative hash on 64-bit words; all its
arithmetic wraps.
-/

namespace Transpiler.LocalName

/-- The odd factor that every absorbed word is multiplied by. -/
def multiplier : UInt64 := 0xf1357aea2e62a9c5

/-- The hash state after one more word. -/
def absorb (state word : UInt64) : UInt64 :=
  (state + word) * multiplier

/-- The low half of the 128-bit product, exclusive-or its high half. -/
def foldedProduct (left right : UInt64) : UInt64 :=
  let product := left.toNat * right.toNat
  UInt64.ofNat product ^^^ UInt64.ofNat (product / 0x10000000000000000)

/-- The word that bytes form, least significant first. -/
def wordOf (bytes : List UInt8) : UInt64 :=
  bytes.foldr (fun byte word => word * 256 + byte.toUInt64) 0

/-- The two running words of a byte digest. -/
structure Lanes where
  first : UInt64
  second : UInt64
deriving DecidableEq, Repr

def Lanes.initial : Lanes := ⟨0x243f6a8885a308d3, 0x13198a2e03707344⟩

/-- The lanes with two words mixed in. -/
def Lanes.xor (lanes : Lanes) (first second : UInt64) : Lanes :=
  ⟨lanes.first ^^^ first, lanes.second ^^^ second⟩

/-- The lanes after `count` blocks of sixteen bytes. -/
def Lanes.absorbBlocks (lanes : Lanes) (bytes : List UInt8) : Nat → Lanes
  | 0 => lanes
  | count + 1 =>
      let low := wordOf (bytes.take 8)
      let high := wordOf ((bytes.drop 8).take 8)
      let mixed := foldedProduct (lanes.first ^^^ low) (0xa4093822299f31d0 ^^^ high)
      Lanes.absorbBlocks ⟨lanes.second, mixed⟩ (bytes.drop 16) count

/-- One word for a byte sequence. Up to sixteen bytes are read from both ends, so that
the two reads may overlap; longer sequences are read in blocks, and their last sixteen
bytes once more. -/
def digestBytes (bytes : List UInt8) : UInt64 :=
  let size := bytes.length
  let last (count : Nat) := wordOf (bytes.drop (size - count))
  let byteAt (index : Nat) : UInt64 := (bytes.getD index 0).toUInt64
  let lanes :=
    if size = 0 then Lanes.initial
    else if size < 4 then
      Lanes.initial.xor (byteAt 0) (byteAt (size - 1) * 256 ||| byteAt (size / 2))
    else if size < 8 then Lanes.initial.xor (wordOf (bytes.take 4)) (last 4)
    else if size ≤ 16 then Lanes.initial.xor (wordOf (bytes.take 8)) (last 8)
    else
      let tail := bytes.drop (size - 16)
      (Lanes.initial.absorbBlocks bytes ((size - 1) / 16)).xor
        (wordOf (tail.take 8)) (wordOf (tail.drop 8))
  foldedProduct lanes.first lanes.second ^^^ UInt64.ofNat size

/-- The final hash: the state rotated left by 26 bits. -/
def finish (state : UInt64) : UInt64 :=
  (state <<< 26) ||| (state >>> 38)

/-- The low 24 bits of a hash as six hexadecimal digits. -/
def sixDigits (hash : UInt64) : String :=
  String.ofList (Text.padZeros 6 (Text.hexDigits (hash.toNat % 0x1000000)))

/-- The digest of a number. -/
def ofNumber (number : UInt64) : String :=
  sixDigits (finish (absorb 0 number))

/-- The digest of a text: its bytes, then a byte that no text contains. -/
def ofText (text : String) : String :=
  sixDigits (finish (absorb (absorb 0 (digestBytes text.toUTF8.toList)) 0xff))

/-- The target name of a source variable of a function. -/
def resolve (functionNumber : UInt64) (name : String) : String :=
  match name.toList with
  | '_' :: '_' :: _ => name
  | '@' :: kept => String.ofList kept
  | _ => "_" ++ ofNumber functionNumber ++ "_" ++ ofText name

end Transpiler.LocalName
