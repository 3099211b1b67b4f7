import OpcodeTable.Device
import OpcodeTable.Json.Fault

/-!
# What can go wrong

Every way in which a conversion, or reading a converted table back, can fail.  A device's refusal
is first known without the file it concerns; `Error.onFile` adds the file.
-/

set_option autoImplicit false

namespace OpcodeTable

/-- The ways in which a job can fail. -/
inductive Error where
  /-- A device refused. -/
  | device (cause : DeviceError)
  /-- A device refused while this file was read or written. -/
  | file (path : String) (cause : DeviceError)
  /-- A text is no JSON of the expected shape. -/
  | malformed (fault : Json.Located)
  /-- An entry of a table is no object. -/
  | entryNotObject (key : String)
  | missingField (index : Nat) (field : String)
  /-- A numeral field holds something else, as described. -/
  | badNumeral (index : Nat) (field : String) (found : String)
  /-- Two records have one key. -/
  | duplicateKey (index : Nat) (key : String) (earlier : Nat)
  /-- A table does not hold as many entries as it should. -/
  | wrongCount (expected : Nat) (found : Nat)
deriving DecidableEq, Repr

namespace Error

/-- What is said of a table's entry that is no object. -/
def notObjectText (key : String) : String :=
  "entry '" ++ key ++ "' is not an object"

/-- The message of an error. -/
def message : Error → String
  | .device cause => "I/O error: " ++ cause.message
  | .file path cause => "I/O error on '" ++ path ++ "': " ++ cause.message
  | .malformed fault => "JSON parse error: " ++ fault.text
  | .entryNotObject key => "JSON parse error: " ++ notObjectText key
  | .missingField index field =>
    "record " ++ toString index ++ ": missing field '" ++ field ++ "'"
  | .badNumeral index field found =>
    "record " ++ toString index ++ ": field '" ++ field
      ++ "' must be a string of at least 2 characters, found " ++ found
  | .duplicateKey index key earlier =>
    "record " ++ toString index ++ ": key '" ++ key ++ "' already produced by record "
      ++ toString earlier
  | .wrongCount expected found =>
    "output verification failed: expected " ++ toString expected ++ " entries, found "
      ++ toString found

/-- The message of what lies behind an error. -/
def cause? : Error → Option String
  | .device cause | .file _ cause => some cause.message
  | .malformed fault => some fault.text
  | .entryNotObject key => some (notObjectText key)
  | _ => none

/-- Says which file a device's refusal concerns. -/
def onFile (path : String) : Error → Error
  | .device cause => .file path cause
  | error => error

end Error

end OpcodeTable
