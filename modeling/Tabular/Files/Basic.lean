/-!
# Files

What reading a file by its path gives: its bytes, or the reason why not.
-/

namespace Tabular

inductive ReadError
  | notFound
  | isDirectory
  | notDirectory
  | nameTooLong
  | nulInName
  | other (reason : String)
deriving DecidableEq

def ReadError.message : ReadError → String
  | .notFound => "No such file or directory (os error 2)"
  | .isDirectory => "Is a directory (os error 21)"
  | .notDirectory => "Not a directory (os error 20)"
  | .nameTooLong => "File name too long (os error 36)"
  | .nulInName => "file name contained an unexpected NUL byte"
  | .other reason => reason

/-- The outcome of reading each path. -/
abbrev Files := String → Except ReadError (List UInt8)

end Tabular
