import OpcodeTable.Buffer
import OpcodeTable.Script
import OpcodeTable.Text.Utf8

/-!
# Programs

What a run asks of the machine it is run on: files to be read whole, files to be created or emptied
and written to, the two standard outputs, and the log.  A `Program` is the tree of all such
exchanges, so the same run can be watched on a machine that is a value and carried out on a real
one.

## What is here

* `Program` and its sequencing.
* `Program.perform`, which runs the steps of a script on the output file.  The output is held back
  in a buffer of 8 KiB, and a piece that does not fit has the buffer put down first.  A failing
  script puts down what is held back, whatever the file answers.
* `Program.logged`, which shows the lines of the log that a filter admits.
-/

set_option autoImplicit false

namespace OpcodeTable

/-- What a run can write to. -/
inductive Stream where
  | output
  | log
  | standardOutput
  | standardError
deriving DecidableEq, Repr

/-- The exchanges of a run with the machine, and its result. -/
inductive Program (α : Type) where
  /-- The run is over. -/
  | done (value : α)
  /-- Adds a line to the log. -/
  | note (event : Log.Event) (next : Program α)
  /-- Reads a file as a whole. -/
  | read (path : String) (next : Except DeviceError (List UInt8) → Program α)
  /-- Creates a file, or empties it, and connects a stream to it. -/
  | create (stream : Stream) (path : String) (next : Except DeviceError Unit → Program α)
  /-- Writes to a stream. -/
  | write (stream : Stream) (bytes : List UInt8) (next : Except DeviceError Unit → Program α)

namespace Program

variable {α β : Type}

/-- Goes on with the result of a program. -/
def bind : Program α → (α → Program β) → Program β
  | .done value, after => after value
  | .note event next, after => .note event (bind next after)
  | .read path next, after => .read path fun answer => bind (next answer) after
  | .create stream path next, after => .create stream path fun answer => bind (next answer) after
  | .write stream bytes next, after => .write stream bytes fun answer => bind (next answer) after

instance : Monad Program where
  pure := .done
  bind := bind

/-- Adds a line to the log. -/
def say (event : Log.Event) : Program Unit :=
  .note event (.done ())

/-- Writes a text to a stream, whatever the answer. -/
def print (stream : Stream) (text : String) : Program Unit :=
  .write stream (textBytes text) fun _ => .done ()

/-- How many bytes of the output are held back at most. -/
def bufferSize : Nat := 8192

/-- Writes bytes to the output, if there are any. -/
def put (bytes : List UInt8) (next : Except DeviceError Unit → Program α) : Program α :=
  if bytes = [] then next (.ok ()) else .write .output bytes next

/-- Takes the steps of a script on the output while `held` is held back, up to the first one that
is refused. -/
def perform (outcome : Except Error α) (held : Buffer) : List Step → Program (Except Error α)
  | [] => put held.bytes fun _ => .done outcome
  | .note event :: rest => .note event (perform outcome held rest)
  | .flush :: rest =>
    put held.bytes fun
      | .error cause => put held.bytes fun _ => .done (.error (.device cause))
      | .ok () => perform outcome {} rest
  | .emit text :: rest =>
    let bytes := textBytes text
    if held.size + bytes.length ≤ bufferSize ∧ bytes.length < bufferSize then
      perform outcome (held.add bytes) rest
    else
      put held.bytes fun
        | .error cause => put held.bytes fun _ => .done (.error (.device cause))
        | .ok () =>
          if bytes.length < bufferSize then perform outcome (.ofBytes bytes) rest
          else
            put bytes fun
              | .error cause => .done (.error (.device cause))
              | .ok () => perform outcome {} rest

/-- Runs a script on the output. -/
def ofScript (script : Script α) : Program (Except Error α) :=
  perform script.outcome {} script.steps

/-- Writes the lines of the log that are shown to a stream, as texts. -/
def logged (shows : Log.Event → Option String) (stream : Stream) : Program α → Program α
  | .done value => .done value
  | .note event next =>
    match shows event with
    | none => logged shows stream next
    | some text => .write stream (textBytes text) fun _ => logged shows stream next
  | .read path next => .read path fun answer => logged shows stream (next answer)
  | .create target path next => .create target path fun answer => logged shows stream (next answer)
  | .write target bytes next => .write target bytes fun answer => logged shows stream (next answer)

end Program

end OpcodeTable
