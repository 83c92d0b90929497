import Transpiler.Command.Run

/-!
Contract: the program as a process.

Connects runs to the real file system, the terminal and the exit status; everything else
is decided elsewhere.
-/

namespace Transpiler

/-- The system's number for an error and its words for it. -/
def systemCause? : IO.Error → Option (Nat × String)
  | .noFileOrDirectory _ code details | .interrupted _ code details => some (code.toNat, details)
  | .alreadyExists _ code details | .invalidArgument _ code details
  | .permissionDenied _ code details | .resourceExhausted _ code details
  | .inappropriateType _ code details | .noSuchThing _ code details => some (code.toNat, details)
  | .otherError code details | .resourceBusy code details | .resourceVanished code details
  | .unsupportedOperation code details | .hardwareFault code details
  | .unsatisfiedConstraints code details | .illegalOperation code details
  | .protocolError code details | .timeExpired code details => some (code.toNat, details)
  | .unexpectedEof | .userError _ => none

/-- An error number without its sign: some layers report it as a negative 32-bit number. -/
def unsignedErrorNumber (code : Nat) : Nat :=
  if code < 0x80000000 then code else 0x100000000 - code

/-- The cause of a failed file operation. -/
def FileError.ofSystem (error : IO.Error) : FileError :=
  match (systemCause? error).map fun (code, details) => (unsignedErrorNumber code, details) with
  | some (2, _) => .notFound
  | some (20, _) => .notDirectory
  | some (21, _) => .isDirectory
  | some (36, _) => .nameTooLong
  | some (code, details) => .other (details ++ " (os error " ++ toString code ++ ")")
  | none => .other (toString error)

/-- The real file system as a place where a run keeps its files. -/
def systemStorage : Storage IO where
  read path := do
    try
      return .ok (← IO.FS.readBinFile path)
    catch error => return .error (.ofSystem error)
  write path contents := do
    try
      IO.FS.writeBinFile path contents
      return .ok ()
    catch error => return .error (.ofSystem error)

end Transpiler

def main (arguments : List String) : IO UInt32 := do
  let errorStream ← IO.getStderr
  let useColors := Transpiler.ColorMode.auto.useColors (← errorStream.isTty)
  let result ← Transpiler.runProcess Transpiler.systemStorage useColors arguments
  errorStream.putStr result.standardError
  (← IO.getStdout).putStr result.standardOutput
  return UInt32.ofNat result.systemStatus
