import OpcodeTable.Sink
import OpcodeTable.TableText

/-!
# Writing a table entry by entry

An `EntryWriter` writes a table on a sink by separate calls, for values of any kind.  A caller may
go on after an entry that was refused; what has been written by then stays, and only the entries
that were taken count.
-/

set_option autoImplicit false

namespace OpcodeTable

open Json

/-- A table that is being written. -/
structure EntryWriter where
  sink : Sink
  /-- The number of entries taken. -/
  entries : Nat

namespace EntryWriter

/-- Begins a table. -/
def begin (sink : Sink) : Except Error Unit × EntryWriter :=
  let run := sink.run (Script.emit [TableText.opening])
  (run.result, ⟨run.sink, 0⟩)

/-- Writes an entry. -/
def entry (writer : EntryWriter) (key : String) (value : Value) :
    Except Error Unit × EntryWriter :=
  let run := writer.sink.run (Script.emit (TableText.entry (writer.entries = 0) key value))
  match run.result with
  | .error error => (.error error, ⟨run.sink, writer.entries⟩)
  | .ok () => (.ok (), ⟨run.sink, writer.entries + 1⟩)

/-- Ends the table. -/
def ending : Script Unit := do
  Script.emit [TableText.closing]
  Script.flush

/-- Ends the table and gives the sink back. -/
def finish (writer : EntryWriter) : Except Error Unit × Sink :=
  let run := writer.sink.run ending
  (run.result, run.sink)

end EntryWriter

end OpcodeTable
