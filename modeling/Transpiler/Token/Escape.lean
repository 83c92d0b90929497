import Transpiler.Text.Radix

/-!
Contract: escape sequences in string and bytes literals.

Both kinds of literal know the one-letter escapes, octal escapes of one to three
digits and `\x` with two hexadecimal digits. Strings also know `\u` and `\U`. A
backslash that begins no escape stands for itself. Reading goes from left to right
and stops at the first escape that has no value.
-/

namespace Transpiler

/-- Why an escape has no value. -/
inductive EscapeError where
  /-- Fewer hexadecimal digits follow than the escape needs. -/
  | truncated (escape : Char) (digits : Nat)
  /-- The value is no character. -/
  | invalidCodePoint (escape : Char) (value : Nat)
  /-- Characters cannot be given by name. -/
  | namedCharacter
  /-- The value is no byte. -/
  | byteOutOfRange (value : Nat)
deriving DecidableEq, Repr

def EscapeError.message : EscapeError → String
  | .truncated escape digits =>
      "truncated `\\" ++ String.singleton escape ++ "` escape: expected " ++ toString digits
        ++ " hex digits"
  | .invalidCodePoint escape value =>
      "`\\" ++ String.singleton escape ++ "` escape value 0x"
        ++ String.ofList (Text.hexDigits value) ++ " is not a valid character"
  | .namedCharacter => "`\\N\x7b...\x7d` named escapes are not supported"
  | .byteOutOfRange value =>
      "octal escape value 0o" ++ String.ofList (Text.radixDigits 8 value)
        ++ " does not fit in a byte"

namespace Escape

/-- The character that a one-letter escape stands for. -/
def oneLetter? : Char → Option Char
  | 'n' => some '\n'
  | 'r' => some '\r'
  | 't' => some '\t'
  | 'a' => some '\x07'
  | 'b' => some '\x08'
  | 'f' => some '\x0c'
  | 'v' => some '\x0b'
  | '\\' => some '\\'
  | '"' => some '"'
  | '\'' => some '\''
  | _ => none

/-- What an escape stands for, and how many of the characters after its letter belong
to it. -/
structure Reading (α : Type) where
  values : List α
  used : Nat
deriving DecidableEq, Repr

/-- The digits of an octal escape after its first digit: at most two. -/
def moreOctalDigits (following : List Char) : List Char :=
  (following.take 2).takeWhile (Text.isRadixDigit 8)

/-- The value of a given number of hexadecimal digits. -/
def hexValue (escape : Char) (count : Nat) (following : List Char) : Except EscapeError Nat :=
  let digits := following.take count
  if digits.length = count && digits.all (Text.isRadixDigit 16) then
    .ok (Text.positionalValue 16 digits)
  else .error (.truncated escape count)

/-- A code point as a character. -/
def character (escape : Char) (value : Nat) : Except EscapeError Char :=
  if value.isValidChar then .ok (Char.ofNat value)
  else .error (.invalidCodePoint escape value)

/-- A value as a byte. -/
def byte (value : Nat) : Except EscapeError UInt8 :=
  if value < 256 then .ok (UInt8.ofNat value) else .error (.byteOutOfRange value)

/-- An escape in a string, given its letter and the text after it. -/
def readInString (escape : Char) (following : List Char) : Except EscapeError (Reading Char) :=
  let hex (count : Nat) : Except EscapeError (Reading Char) := do
    let value ← hexValue escape count following
    return ⟨[← character escape value], count⟩
  match oneLetter? escape with
  | some resolved => .ok ⟨[resolved], 0⟩
  | none =>
      if Text.isRadixDigit 8 escape then do
        let more := moreOctalDigits following
        let value := Text.positionalValue 8 (escape :: more)
        return ⟨[← character escape value], more.length⟩
      else if escape == 'x' then hex 2
      else if escape == 'u' then hex 4
      else if escape == 'U' then hex 8
      else if escape == 'N' then .error .namedCharacter
      else .ok ⟨['\\', escape], 0⟩

/-- The byte of an ASCII character. -/
def asciiByte (character : Char) : UInt8 :=
  UInt8.ofNat character.toNat

/-- An escape in a bytes literal, given its letter and the text after it. -/
def readInBytes (escape : Char) (following : List Char) : Except EscapeError (Reading UInt8) :=
  match oneLetter? escape with
  | some resolved => .ok ⟨[asciiByte resolved], 0⟩
  | none =>
      if Text.isRadixDigit 8 escape then do
        let more := moreOctalDigits following
        let value := Text.positionalValue 8 (escape :: more)
        return ⟨[← byte value], more.length⟩
      else if escape == 'x' then do
        let value ← hexValue escape 2 following
        return ⟨[← byte value], 2⟩
      else .ok ⟨[asciiByte '\\', asciiByte escape], 0⟩

/-- The values of a literal's contents, after `covered` characters that belong to the
escape before. -/
def decodeFrom {α : Type} (plain : Char → α)
    (read : Char → List Char → Except EscapeError (Reading α)) (covered : Nat) :
    List Char → Except EscapeError (List α)
  | [] => .ok []
  | first :: rest =>
      match covered with
      | left + 1 => decodeFrom plain read left rest
      | 0 =>
          if first == '\\' then
            match rest with
            | [] => .ok [plain '\\']
            | escape :: following => do
                let reading ← read escape following
                let more ← decodeFrom plain read (reading.used + 1) (escape :: following)
                return reading.values ++ more
          else do
            let more ← decodeFrom plain read 0 rest
            return plain first :: more

/-- The text of a string literal's contents. -/
def decodeString (body : List Char) : Except EscapeError (List Char) :=
  decodeFrom id readInString 0 body

/-- The bytes of an ASCII bytes literal's contents. -/
def decodeBytes (body : List Char) : Except EscapeError (List UInt8) :=
  decodeFrom asciiByte readInBytes 0 body

end Escape
end Transpiler
