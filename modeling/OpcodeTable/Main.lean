import OpcodeTable.Tool

/-!
# The executable

Carries the tool's program out on the real machine.
-/

set_option autoImplicit false

namespace OpcodeTable
namespace Executable

/-- Whether an error number is the given one, with or without a minus sign. -/
def isNumber (code number : UInt32) : Bool :=
  code = number || code = 0 - number

/-- The refusal that an error of the system stands for. -/
def deviceError (error : IO.Error) : DeviceError :=
  match error with
  | .noFileOrDirectory _ _ _ => .notFound
  | .inappropriateType _ code _ => if isNumber code 21 then .isADirectory else .notADirectory
  | .resourceExhausted _ code _ =>
    if isNumber code 28 then .noSpace else .other (toString error)
  | .invalidArgument _ code _ =>
    if isNumber code 36 then .nameTooLong else .other (toString error)
  | error => .other (toString error)

/-- Takes the answer of the system. -/
def attempt {α : Type} (action : IO α) : IO (Except DeviceError α) := do
  try
    return .ok (← action)
  catch error => return .error (deviceError error)

/-- The files that streams are connected to. -/
structure Files where
  output : Option IO.FS.Handle := none
  log : Option IO.FS.Handle := none

/-- Connects a stream to a file. -/
def Files.connect (files : Files) (stream : Stream) (handle : IO.FS.Handle) : Files :=
  match stream with
  | .output => { files with output := some handle }
  | .log => { files with log := some handle }
  | .standardOutput | .standardError => files

/-- Writes to an open file. -/
def writeTo (handle : Option IO.FS.Handle) (bytes : ByteArray) : IO Unit :=
  match handle with
  | none => return
  | some handle => do
    handle.write bytes
    handle.flush

/-- Writes to a stream. -/
def Files.write (files : Files) (stream : Stream) (bytes : ByteArray) : IO Unit :=
  match stream with
  | .output => writeTo files.output bytes
  | .log => writeTo files.log bytes
  | .standardOutput => do
    let stream ← IO.getStdout
    stream.write bytes
    stream.flush
  | .standardError => do
    let stream ← IO.getStderr
    stream.write bytes
    stream.flush

/-- Carries a program out.  What is to be shown of the log has become writes by now. -/
def carryOut {α : Type} (files : Files) : Program α → IO α
  | .done value => return value
  | .note _ next => carryOut files next
  | .read path next => do
    let answer ← attempt (IO.FS.readBinFile path)
    carryOut files (next (answer.map fun bytes => bytes.data.toList))
  | .create stream path next => do
    match ← attempt (IO.FS.Handle.mk path .write) with
    | .error cause => carryOut files (next (.error cause))
    | .ok handle => carryOut (files.connect stream handle) (next (.ok ()))
  | .write stream bytes next => do
    let answer ← attempt (files.write stream ⟨bytes.toArray⟩)
    carryOut files (next answer)

end Executable
end OpcodeTable

open OpcodeTable in
/-- Runs the tool.  The filter of the log is taken from the environment. -/
def main (words : List String) : IO UInt32 := do
  let filter ← IO.getEnv "RUST_LOG"
  let status ← Executable.carryOut {} (Tool.run filter words)
  return status.code.toUInt32
