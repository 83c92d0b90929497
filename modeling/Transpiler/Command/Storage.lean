/-!
Contract: what a run needs from the place where files are kept.
-/

namespace Transpiler

/-- Why a file cannot be read or written. -/
inductive FileError where
  | notFound
  | isDirectory
  | notDirectory
  /-- A name or the whole path is longer than the system allows. -/
  | nameTooLong
  /-- The path holds a NUL character. -/
  | nulInPath
  /-- The contents are not UTF-8 text. -/
  | invalidText
  /-- Any other cause, in the words of the system. -/
  | other (text : String)
deriving DecidableEq, Repr

def FileError.message : FileError → String
  | .notFound => "No such file or directory (os error 2)"
  | .isDirectory => "Is a directory (os error 21)"
  | .notDirectory => "Not a directory (os error 20)"
  | .nameTooLong => "File name too long (os error 36)"
  | .nulInPath => "file name contained an unexpected NUL byte"
  | .invalidText => "stream did not contain valid UTF-8"
  | .other text => text

/-- A place where files are kept, with its effects. Writing stores the whole contents or
fails without a change. -/
structure Storage (m : Type → Type) where
  read : String → m (Except FileError ByteArray)
  write : String → ByteArray → m (Except FileError Unit)

end Transpiler
