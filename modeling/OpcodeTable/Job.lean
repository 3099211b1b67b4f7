import OpcodeTable.Conversion
import OpcodeTable.Program
import OpcodeTable.Table

/-!
# Jobs

Converting a file of records to a table file, and reading the table back.  The source is read and
understood as a whole before the output file is created, so a source that is no list of records
leaves the output as it is.
-/

set_option autoImplicit false

namespace OpcodeTable

/-- A program that may fail. -/
abbrev Attempt := ExceptT Error Program

namespace Attempt

/-- Adds a line to the log. -/
def say (event : Log.Event) : Attempt Unit :=
  ExceptT.lift (Program.say event)

/-- Reads a text file. -/
def readText (path : String) : Attempt String :=
  ExceptT.mk <| .read path fun
    | .error cause => .done (.error (.file path cause))
    | .ok bytes =>
      match textOfBytes? bytes with
      | none => .done (.error (.file path .invalidUtf8))
      | some text => .done (.ok text)

/-- Creates the output file, or empties it. -/
def createOutput (path : String) : Attempt Unit :=
  ExceptT.mk <| .create .output path fun
    | .error cause => .done (.error (.file path cause))
    | .ok () => .done (.ok ())

/-- Runs a script on the output file. -/
def runScript {α : Type} (path : String) (script : Script α) : Attempt α :=
  ExceptT.mk <| (Program.ofScript script).bind fun
    | .error error => .done (.error (error.onFile path))
    | .ok value => .done (.ok value)

/-- Reads a file of records. -/
def readRecords (path : String) : Attempt (List Record) := do
  say ⟨.info, .loading, "Loading opcode records from '" ++ path ++ "'"⟩
  let text ← readText path
  Record.parse text

/-- Converts a file of records to a table file. -/
def convert (input output : String) (options : Options) : Attempt Summary := do
  let records ← readRecords input
  say ⟨.info, .conversion, "Read " ++ toString records.length ++ " records"⟩
  createOutput output
  let summary ← runScript output (Conversion.script options records)
  say ⟨.info, .conversion,
    "Wrote " ++ toString summary.records ++ " entries to '" ++ output ++ "'"⟩
  return summary

/-- Reads a table file. -/
def readTable (path : String) : Attempt Table := do
  let text ← readText path
  Table.parse text

/-- Reads a table file, which must hold as many entries as expected. -/
def checkTable (path : String) (expected : Nat) : Attempt Table := do
  let table ← readTable path
  if table.size ≠ expected then throw (.wrongCount expected table.size)
  say ⟨.info, .table, "Verified " ++ toString table.size ++ " entries in '" ++ path ++ "'"⟩
  return table

end Attempt

/-- A conversion of one file to another, with or without reading the result back. -/
structure Job where
  input : String := "opcodes.json"
  output : String := "newcodes.json"
  options : Options := {}
  verify : Bool := false
deriving DecidableEq, Repr

/-- Does a job. -/
def Job.run (job : Job) : Attempt Summary := do
  let summary ← Attempt.convert job.input job.output job.options
  if job.verify then
    let _ ← Attempt.checkTable job.output summary.distinctKeys
  return summary

end OpcodeTable
