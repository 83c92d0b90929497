import Transpiler.Text.Radix

/-!
Contract: the statuses of a failed run and the line that announces one.
-/

namespace Transpiler

/-- The classes of failure that end a run. -/
inductive AbortCode where
  | unknown
  | unsupportedFeature
  | malformedConstruct
  | sourceError
deriving DecidableEq, Repr

namespace AbortCode

/-- The 32-bit status of a class. -/
def value : AbortCode → Nat
  | .unknown => 0xffffffff
  | .unsupportedFeature => 0x111eed42
  | .malformedConstruct => 0x111eed43
  | .sourceError => 0x111eed01

/-- The status as a signed number, as processes report it. -/
def exitStatus (code : AbortCode) : Int :=
  if code.value < 0x80000000 then code.value else (code.value : Int) - 0x100000000

def text (code : AbortCode) : String :=
  "0x" ++ String.ofList (Text.hexDigits code.value)

/-- The line that announces a failure; an empty message is replaced by a general one. -/
def announce (code : AbortCode) (message : String) : String :=
  "[Error " ++ code.text ++ "] "
    ++ (if message.isEmpty then "An unknown error occured." else message)

end AbortCode
end Transpiler
