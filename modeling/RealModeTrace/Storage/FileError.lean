/-!
# File errors

Why a file could not be read or written, with the wording of the operating system.
-/

namespace RealModeTrace

/-- A reason why a file operation fails. -/
inductive FileError
  /-- A component of the path does not exist. -/
  | notFound
  /-- A component other than the last is not a directory. -/
  | notADirectory
  /-- The path leads to a directory. -/
  | isADirectory
  /-- The device takes no more bytes. -/
  | noSpaceLeft
  /-- A component or the path is too long. -/
  | nameTooLong
  /-- The path holds the character NUL. -/
  | nulInName
  /-- The bytes read are not UTF-8. -/
  | notUtf8
  deriving DecidableEq, Repr

/-- The wording of a file error. -/
def FileError.message : FileError → String
  | .notFound => "No such file or directory (os error 2)"
  | .notADirectory => "Not a directory (os error 20)"
  | .isADirectory => "Is a directory (os error 21)"
  | .noSpaceLeft => "No space left on device (os error 28)"
  | .nameTooLong => "File name too long (os error 36)"
  | .nulInName => "file name contained an unexpected NUL byte"
  | .notUtf8 => "stream did not contain valid UTF-8"

end RealModeTrace
