/-!
# Device errors

What a file system or another device can answer instead of doing what it was asked for.  The
messages are those of the system, with its number where it has one.
-/

set_option autoImplicit false

namespace OpcodeTable

/-- The ways in which a device refuses. -/
inductive DeviceError where
  | notFound
  | notADirectory
  | isADirectory
  | noSpace
  | nameTooLong
  | nulInPath
  | invalidUtf8
  | noProgress
  | outOfMemory
  /-- A refusal with a wording of its own. -/
  | other (text : String)
deriving DecidableEq, Repr

/-- The wording of a refusal. -/
def DeviceError.message : DeviceError → String
  | .notFound => "No such file or directory (os error 2)"
  | .notADirectory => "Not a directory (os error 20)"
  | .isADirectory => "Is a directory (os error 21)"
  | .noSpace => "No space left on device (os error 28)"
  | .nameTooLong => "File name too long (os error 36)"
  | .nulInPath => "file name contained an unexpected NUL byte"
  | .invalidUtf8 => "stream did not contain valid UTF-8"
  | .noProgress => "failed to write whole buffer"
  | .outOfMemory => "out of memory"
  | .other text => text

end OpcodeTable
