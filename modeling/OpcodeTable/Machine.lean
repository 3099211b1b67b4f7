import OpcodeTable.Buffer
import OpcodeTable.Machine.FileSystem
import OpcodeTable.Program

/-!
# Running programs on a machine

A machine is a file system, the files that streams are connected to, what has been printed, and the
log.  `Machine.run` carries a program out on it, exchange by exchange.
-/

set_option autoImplicit false

namespace OpcodeTable

/-- An open file and how far it has been written. -/
structure Handle where
  location : Location
  offset : Nat
deriving DecidableEq, Repr

/-- A machine that a program can be run on. -/
structure Machine where
  files : FileSystem
  /-- The open output file. -/
  output : Option Handle := none
  /-- The open log file. -/
  log : Option Handle := none
  standardOutput : Buffer := {}
  standardError : Buffer := {}
  /-- The lines of the log, the last one first. -/
  journal : List Log.Event := []

namespace Machine

variable {α : Type}

/-- The lines of the log in order. -/
def events (machine : Machine) : List Log.Event :=
  machine.journal.reverse

/-- Connects a stream to a file. -/
def connect (machine : Machine) (stream : Stream) (handle : Handle) : Machine :=
  match stream with
  | .output => { machine with output := some handle }
  | .log => { machine with log := some handle }
  | .standardOutput | .standardError => machine

/-- Creates a file, or empties it, and connects a stream to it. -/
def create (machine : Machine) (stream : Stream) (path : String) :
    Except DeviceError Unit × Machine :=
  match machine.files.create path with
  | .error cause => (.error cause, machine)
  | .ok (files, location) => (.ok (), { machine with files }.connect stream ⟨location, 0⟩)

/-- Writes to the file that a stream is connected to. -/
def writeFile (machine : Machine) (stream : Stream) (handle : Option Handle)
    (bytes : List UInt8) : Except DeviceError Unit × Machine :=
  match handle with
  | none => (.error .notFound, machine)
  | some ⟨location, offset⟩ =>
    match machine.files.write location offset bytes with
    | .error cause => (.error cause, machine)
    | .ok files =>
      (.ok (), { machine with files }.connect stream ⟨location, offset + bytes.length⟩)

/-- Writes to a stream. -/
def write (machine : Machine) (stream : Stream) (bytes : List UInt8) :
    Except DeviceError Unit × Machine :=
  match stream with
  | .output => machine.writeFile .output machine.output bytes
  | .log => machine.writeFile .log machine.log bytes
  | .standardOutput =>
    (.ok (), { machine with standardOutput := machine.standardOutput.add bytes })
  | .standardError =>
    (.ok (), { machine with standardError := machine.standardError.add bytes })

/-- Runs a program. -/
def run (machine : Machine) : Program α → α × Machine
  | .done value => (value, machine)
  | .note event next => run { machine with journal := event :: machine.journal } next
  | .read path next => run machine (next (machine.files.read path))
  | .create stream path next =>
    let (answer, after) := machine.create stream path
    run after (next answer)
  | .write stream bytes next =>
    let (answer, after) := machine.write stream bytes
    run after (next answer)

end Machine

end OpcodeTable
