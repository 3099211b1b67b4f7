import OpcodeTable.Buffer
import OpcodeTable.Script
import OpcodeTable.Text.Utf8

/-!
# Sinks

A sink takes bytes and keeps them.  It may take only so many in all, and then refuses the next one:
of a piece that does not fit as a whole, the front that does fit is kept.  `Sink.run` runs a script
up to the first refusal.
-/

set_option autoImplicit false

namespace OpcodeTable

/-- A device in memory. -/
structure Sink where
  /-- The bytes taken so far. -/
  stored : Buffer := {}
  /-- How many more bytes are taken, if not every number. -/
  room : Option Nat := none
  /-- The answer to the first byte for which there is no room. -/
  whenFull : DeviceError := .noProgress
  /-- The answer to a flush, if it is refused. -/
  whenFlushed : Option DeviceError := none

/-- What came of running a script. -/
structure Sink.Run (α : Type) where
  result : Except Error α
  sink : Sink
  /-- The lines that the steps taken added to the log. -/
  events : List Log.Event

namespace Sink

variable {α : Type}

/-- Takes the bytes, or as many of them as fit. -/
def write (sink : Sink) (bytes : List UInt8) : Except DeviceError Unit × Sink :=
  match sink.room with
  | none => (.ok (), { sink with stored := sink.stored.add bytes })
  | some room =>
    (if bytes.length ≤ room then .ok () else .error sink.whenFull,
      { sink with stored := sink.stored.add (bytes.take room), room := some (room - bytes.length) })

/-- The answer to a flush. -/
def flush (sink : Sink) : Except DeviceError Unit :=
  match sink.whenFlushed with
  | none => .ok ()
  | some cause => .error cause

/-- What a step does to the sink. -/
def take (sink : Sink) : Step → Except DeviceError Unit × Sink
  | .note _ => (.ok (), sink)
  | .emit text => sink.write (textBytes text)
  | .flush => (sink.flush, sink)

/-- Takes steps up to the first one that is refused. -/
def perform (outcome : Except Error α) (sink : Sink) : List Step → Run α
  | [] => ⟨outcome, sink, []⟩
  | step :: rest =>
    match sink.take step with
    | (.error cause, after) => ⟨.error (.device cause), after, []⟩
    | (.ok (), after) =>
      let run := perform outcome after rest
      { run with events := step.event?.toList ++ run.events }

/-- Runs a script. -/
def run (sink : Sink) (script : Script α) : Run α :=
  sink.perform script.outcome script.steps

end Sink

end OpcodeTable
