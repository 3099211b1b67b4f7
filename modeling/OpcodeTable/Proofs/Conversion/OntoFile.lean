import OpcodeTable.Proofs.Conversion.Faults
import OpcodeTable.Proofs.Machine
import OpcodeTable.Proofs.Output

/-!
# Converting a file onto a file

The records are read and understood as a whole before the output file is touched.  From there on
the output file is emptied and takes in what the conversion writes, and nothing else in the file
system is changed, even if the file that was read is the one that is written.

## What is here

* `FileSystem.recordsAt`, the records that a file holds.
* `Machine.run_convert_of_source_error`, `Machine.run_convert_of_create_error` and
  `Machine.run_convert_of_create`, the three ways that it can go, the last of them for a conversion
  that succeeds as well as for one that fails.
* `Conversion.convert_touches_output`, what becomes of the files.
-/

set_option autoImplicit false

namespace OpcodeTable

/-- The records that the file at a path holds. -/
def FileSystem.recordsAt (fs : FileSystem) (path : String) : Except Error (List Record) :=
  fs.textAt path >>= Record.parse

theorem FileSystem.recordsAt_eq_ok_iff {fs : FileSystem} {path : String} {records : List Record} :
    fs.recordsAt path = .ok records ↔
      ∃ bytes text, fs.read path = .ok bytes ∧ textOfBytes? bytes = some text ∧
        Record.parse text = .ok records := by
  rw [recordsAt, bind_eq_ok_iff, textAt]
  cases hread : fs.read path with
  | error cause => simp
  | ok bytes => cases htext : textOfBytes? bytes <;> simp [htext]

/-- If there are none, the file could not be read as a text, or the text is malformed. -/
theorem FileSystem.recordsAt_error {fs : FileSystem} {path : String} {error : Error}
    (h : fs.recordsAt path = .error error) :
    (∃ cause, error = .file path cause) ∨ ∃ fault, error = .malformed fault := by
  rw [recordsAt, textAt] at h
  split at h
  · next cause hread =>
    cases h
    exact .inl ⟨cause, rfl⟩
  · next bytes hread =>
    split at h
    · cases h
      exact .inl ⟨.invalidUtf8, rfl⟩
    · next text htext =>
      change Record.parse text = .error error at h
      rw [Record.parse] at h
      split at h
      · cases h
      · next fault hfault =>
        cases h
        exact .inr ⟨fault, rfl⟩

theorem FileSystem.numberedFrom_of_recordsAt {fs : FileSystem} {path : String}
    {records : List Record} (h : fs.recordsAt path = .ok records) :
    Conversion.NumberedFrom 0 records := by
  obtain ⟨-, text, -, -, hparse⟩ := recordsAt_eq_ok_iff.1 h
  exact Conversion.numberedFrom_of_parse hparse

/-- What is done with records once they are read. -/
def Attempt.writeTable (output : String) (options : Options) (records : List Record) :
    Attempt Summary := do
  createOutput output
  let summary ← runScript output (Conversion.script options records)
  say ⟨.info, .conversion,
    "Wrote " ++ toString summary.records ++ " entries to '" ++ output ++ "'"⟩
  return summary

/-- The two halves of a conversion. -/
theorem Attempt.convert_eq (input output : String) (options : Options) :
    convert input output options = (do
      let records ← readRecords input
      say ⟨.info, .conversion, "Read " ++ toString records.length ++ " records"⟩
      writeTable output options records) :=
  rfl

namespace Machine

variable {machine : Machine} {input output : String}

/-! ## Reading the records -/

/-- Reading the records leaves the files as they are. -/
theorem run_readRecords (machine : Machine) (path : String) :
    ∃ after : Machine, after.files = machine.files ∧
      machine.run (Attempt.readRecords path).run = (machine.files.recordsAt path, after) := by
  let noted : Machine :=
    { machine with
      journal :=
        ⟨.info, .loading, "Loading opcode records from '" ++ path ++ "'"⟩ :: machine.journal }
  refine ⟨noted, rfl, ?_⟩
  rw [Attempt.readRecords, run_bind_of_ok (machine.run_say _), FileSystem.recordsAt]
  have hread : noted.run (Attempt.readText path).run = (machine.files.textAt path, noted) :=
    noted.run_readText path
  cases htext : machine.files.textAt path with
  | error error =>
    rw [htext] at hread
    rw [run_bind_of_error hread]
    rfl
  | ok text =>
    rw [htext] at hread
    rw [run_bind_of_ok hread]
    rfl

/-! ## Writing the table -/

theorem run_createOutput_of_error {cause : DeviceError}
    (hcreate : machine.files.create output = .error cause) :
    machine.run (Attempt.createOutput output).run = (.error (.file output cause), machine) := by
  change machine.run (.create .output output _) = _
  simp only [run, create, hcreate]

/-- Unless the output is a device, it is an empty file once it is opened. -/
theorem run_createOutput {created : FileSystem} {location : Location}
    (hcreate : machine.files.create output = .ok (created, location))
    (hdevice : ¬machine.files.IsDevice location) :
    ∃ after : Machine, after.Outputs machine.files location [] ∧
      machine.run (Attempt.createOutput output).run = (.ok (), after) := by
  obtain ⟨-, hempty⟩ := FileSystem.namesFile_of_create hcreate
  refine ⟨{ machine with files := created, output := some ⟨location, 0⟩ },
    ⟨hempty hdevice, rfl⟩, ?_⟩
  change machine.run (.create .output output _) = _
  simp only [run, create, hcreate]
  rfl

/-- A script is run on the output file, which takes in all that it writes. -/
theorem Outputs.run_runScript {α : Type} {before : FileSystem} {location : Location}
    {written : List UInt8} (h : machine.Outputs before location written) (path : String)
    (script : Script α) :
    ∃ after : Machine, after.Outputs before location (written ++ script.bytes) ∧
      machine.run (Attempt.runScript path script).run =
        (script.outcome.mapError (Error.onFile path), after) := by
  obtain ⟨after, hafter, hrun⟩ := h.run_ofScript script
  refine ⟨after, hafter, ?_⟩
  change machine.run ((Program.ofScript script).bind _) = _
  rw [run_bind, hrun]
  cases script.outcome <;> rfl

/-- The output file holds what the conversion writes, and the result is that of the conversion. -/
theorem run_writeTable {records : List Record} (hnumbered : Conversion.NumberedFrom 0 records)
    {created : FileSystem} {location : Location}
    (hcreate : machine.files.create output = .ok (created, location))
    (hdevice : ¬machine.files.IsDevice location) (options : Options) :
    ∃ after : Machine,
      after.files = machine.files.put location (.file (Conversion.script options records).bytes) ∧
      machine.run (Attempt.writeTable output options records).run =
        ((Conversion.script options records).outcome, after) := by
  obtain ⟨opened, hopened, hcreated⟩ := run_createOutput hcreate hdevice
  obtain ⟨after, hafter, hscript⟩ :=
    hopened.run_runScript output (Conversion.script options records)
  rw [List.nil_append] at hafter
  rw [Attempt.writeTable, run_bind_of_ok hcreated]
  cases houtcome : (Conversion.script options records).outcome with
  | error error =>
    have hfile := Conversion.onFile_eq_of_error hnumbered houtcome output
    rw [houtcome, Except.mapError, hfile] at hscript
    exact ⟨after, hafter.files, run_bind_of_error hscript _⟩
  | ok summary =>
    rw [houtcome, Except.mapError] at hscript
    refine ⟨_, ?_, (run_bind_of_ok hscript _).trans (run_bind_of_ok (after.run_say _) _)⟩
    exact hafter.files

/-! ## The whole conversion -/

/-- If there are no records, nothing is done. -/
theorem run_convert_of_source_error {error : Error}
    (hsource : machine.files.recordsAt input = .error error) (output : String)
    (options : Options) :
    ∃ after : Machine, after.files = machine.files ∧
      machine.run (Attempt.convert input output options).run = (.error error, after) := by
  obtain ⟨after, hfiles, hread⟩ := machine.run_readRecords input
  rw [hsource] at hread
  exact ⟨after, hfiles, run_bind_of_error hread _⟩

/-- Once the records are read, the conversion comes to writing their table. -/
theorem run_convert_of_source {records : List Record}
    (hsource : machine.files.recordsAt input = .ok records) (output : String)
    (options : Options) :
    ∃ after : Machine, after.files = machine.files ∧
      machine.run (Attempt.convert input output options).run =
        after.run (Attempt.writeTable output options records).run := by
  obtain ⟨read, hfiles, hread⟩ := machine.run_readRecords input
  rw [hsource] at hread
  rw [Attempt.convert_eq]
  refine ⟨_, ?_, (run_bind_of_ok hread _).trans (run_bind_of_ok (read.run_say _) _)⟩
  exact hfiles

/-- If the output cannot be opened, nothing is done. -/
theorem run_convert_of_create_error {records : List Record} {cause : DeviceError}
    (hsource : machine.files.recordsAt input = .ok records)
    (hcreate : machine.files.create output = .error cause) (options : Options) :
    ∃ after : Machine, after.files = machine.files ∧
      machine.run (Attempt.convert input output options).run =
        (.error (.file output cause), after) := by
  obtain ⟨read, hfiles, hrun⟩ := run_convert_of_source hsource output options
  rw [← hfiles] at hcreate
  exact ⟨read, hfiles, hrun.trans (run_bind_of_error (run_createOutput_of_error hcreate) _)⟩

/-- If it can, it takes in the table, or as much of it as the conversion gets to. -/
theorem run_convert_of_create {records : List Record} {created : FileSystem} {location : Location}
    (hsource : machine.files.recordsAt input = .ok records)
    (hcreate : machine.files.create output = .ok (created, location))
    (hdevice : ¬machine.files.IsDevice location) (options : Options) :
    ∃ after : Machine,
      after.files = machine.files.put location (.file (Conversion.script options records).bytes) ∧
      machine.run (Attempt.convert input output options).run =
        ((Conversion.script options records).outcome, after) := by
  obtain ⟨read, hfiles, hrun⟩ := run_convert_of_source hsource output options
  rw [← hfiles] at hcreate hdevice
  obtain ⟨after, hafter, hwrite⟩ := run_writeTable
    (FileSystem.numberedFrom_of_recordsAt hsource) hcreate hdevice options
  rw [hfiles] at hafter
  exact ⟨after, hafter, hrun.trans hwrite⟩

end Machine

namespace Conversion

/-- **A conversion touches its output and nothing else, and not before the source is known to be
good.**  If the source cannot be read, is no text or holds no records, or if the output cannot be
opened, all files are as before.  Otherwise, whether the conversion succeeds or not, the output
holds what an endless sink would hold, whatever was there before.  Every path that leads elsewhere
reads as before, and at every other location there is what was there before.  The records that are
converted are those that the source held at the beginning, even if the source is the output. -/
theorem convert_touches_output (machine : Machine) (input output : String) (options : Options) :
    let run := machine.run (Attempt.convert input output options).run
    ((∃ cause, machine.files.read input = .error cause) ∨
        (∃ bytes, machine.files.read input = .ok bytes ∧ textOfBytes? bytes = none) ∨
        (∃ bytes text error, machine.files.read input = .ok bytes ∧
          textOfBytes? bytes = some text ∧ Record.parse text = .error error) ∨
        (∃ cause, machine.files.create output = .error cause) →
      (∃ error, run.1 = .error error) ∧ run.2.files = machine.files) ∧
    ∀ bytes text records created location,
      machine.files.read input = .ok bytes → textOfBytes? bytes = some text →
      Record.parse text = .ok records → machine.files.create output = .ok (created, location) →
      ¬machine.files.IsDevice location →
      let endless := ({} : Sink).run (script options records)
      run.1 = endless.result ∧
        run.2.files.read output = .ok endless.sink.stored.bytes ∧
        (∀ path there, machine.files.locate path = .ok there → there ≠ location →
          run.2.files.read path = machine.files.read path) ∧
        run.2.files.node location = some (.file endless.sink.stored.bytes) ∧
        (∀ other, other ≠ location → run.2.files.node other = machine.files.node other) ∧
        run.2.files.workingDirectory = machine.files.workingDirectory := by
  intro run
  refine ⟨fun hrefused => ?_, fun bytes text records created location hread htext hparse hcreate
    hdevice => ?_⟩
  · -- a source that holds no records is refused whatever the output is
    cases hsource : machine.files.recordsAt input with
    | error error =>
      obtain ⟨after, hfiles, hrun⟩ := Machine.run_convert_of_source_error hsource output options
      exact ⟨⟨error, congrArg Prod.fst hrun⟩, (congrArg (·.2.files) hrun).trans hfiles⟩
    | ok records =>
      obtain ⟨bytes, text, hread, htext, hparse⟩ := FileSystem.recordsAt_eq_ok_iff.1 hsource
      obtain ⟨cause, hcreate⟩ : ∃ cause, machine.files.create output = .error cause := by
        rcases hrefused with ⟨_, h⟩ | ⟨_, h, hnone⟩ | ⟨_, _, _, h, hsome, herror⟩ | h
        · rw [hread] at h
          cases h
        · rw [hread] at h
          cases h
          rw [htext] at hnone
          cases hnone
        · rw [hread] at h
          cases h
          rw [htext] at hsome
          cases hsome
          rw [hparse] at herror
          cases herror
        · exact h
      obtain ⟨after, hfiles, hrun⟩ :=
        Machine.run_convert_of_create_error hsource hcreate options
      exact ⟨⟨_, congrArg Prod.fst hrun⟩, (congrArg (·.2.files) hrun).trans hfiles⟩
  · have hsource : machine.files.recordsAt input = .ok records :=
      FileSystem.recordsAt_eq_ok_iff.2 ⟨bytes, text, hread, htext, hparse⟩
    obtain ⟨hresult, hstored⟩ := Sink.run_endless (flushesLast_script options records)
    obtain ⟨hnames, -⟩ := FileSystem.namesFile_of_create hcreate
    obtain ⟨after, hafter, hrun⟩ :=
      Machine.run_convert_of_create hsource hcreate hdevice options
    have hfiles : run.2.files =
        machine.files.put location (.file (script options records).bytes) :=
      (congrArg (·.2.files) hrun).trans hafter
    intro endless
    rw [hfiles, hresult, hstored]
    refine ⟨congrArg Prod.fst hrun, hnames.read_put _, fun path there hpath hthere => ?_,
      FileSystem.node_put_self _ _ _, fun other hother => ?_,
      FileSystem.workingDirectory_put _ _ _⟩
    · exact FileSystem.read_put_of_ne hnames.node _ hpath hthere
    · rw [FileSystem.node_put, if_neg hother]

/-- Two records, the second of which has no opcode. -/
def halfKeyedRecords : String :=
  "[\x7b\"opcode\":\"0x0a\",\"x\":1\x7d,\x7b\"x\":2\x7d]"

/-- A text that is longer than what is written of them, and no list of records. -/
def formerText : String :=
  "\x7b\"what\":\"was there before\"\x7d"

/-- A machine with a file of each. -/
def halfKeyedMachine : Machine where
  files :=
    { nodes := [([], .directory), (["t"], .file (textBytes halfKeyedRecords)),
        (["u"], .file (textBytes formerText))]
      workingDirectory := [] }

theorem read_halfKeyedRecords :
    halfKeyedMachine.files.read "t" = .ok (textBytes halfKeyedRecords) :=
  FileSystem.read_of_isName _ (by decide)

theorem read_formerText : halfKeyedMachine.files.read "u" = .ok (textBytes formerText) :=
  FileSystem.read_of_isName _ (by decide)

theorem parse_formerText : ∃ error, Record.parse formerText = .error error := by
  have hnone : (Record.parse formerText).toOption = none := by
    decide +kernel
  cases hparse : Record.parse formerText with
  | error error => exact ⟨error, rfl⟩
  | ok records =>
    rw [hparse] at hnone
    cases hnone

/-- The first record is written to an endless sink, and then the second one fails. -/
theorem run_halfKeyedRecords : ∃ records, Record.parse halfKeyedRecords = .ok records ∧
    let endless := ({} : Sink).run (script {} records)
    endless.result = .error (.missingField 1 "opcode") ∧
      endless.sink.stored.bytes = textBytes "\x7b\"0x0a\":\x7b\"x\":1\x7d" := by
  have hrun : (Record.parse halfKeyedRecords).toOption.map (fun records =>
      let endless := ({} : Sink).run (script {} records)
      (endless.result, endless.sink.stored.bytes)) =
        some (.error (.missingField 1 "opcode"), textBytes "\x7b\"0x0a\":\x7b\"x\":1\x7d") := by
    decide +kernel
  cases hparse : Record.parse halfKeyedRecords with
  | error error =>
    rw [hparse] at hrun
    cases hrun
  | ok records =>
    rw [hparse] at hrun
    obtain ⟨hresult, hbytes⟩ := Prod.ext_iff.1 (Option.some_inj.1 hrun)
    exact ⟨records, rfl, hresult, hbytes⟩

/-- The records are converted onto the longer file and onto their own, and each time the other file
is as before.  The longer file is not converted at all. -/
theorem convert_touches_output_halfKeyedMachine :
    let onto := fun input output => halfKeyedMachine.run (Attempt.convert input output {}).run
    let written := textBytes "\x7b\"0x0a\":\x7b\"x\":1\x7d"
    (∃ records, halfKeyedMachine.files.read "t" = .ok (textBytes halfKeyedRecords) ∧
      textOfBytes? (textBytes halfKeyedRecords) = some halfKeyedRecords ∧
      Record.parse halfKeyedRecords = .ok records) ∧
    ((onto "t" "u").1 = .error (.missingField 1 "opcode") ∧
      (onto "t" "u").2.files.read "u" = .ok written ∧
      (onto "t" "u").2.files.node ["t"] = some (.file (textBytes halfKeyedRecords))) ∧
    ((onto "t" "t").1 = .error (.missingField 1 "opcode") ∧
      (onto "t" "t").2.files.read "t" = .ok written ∧
      (onto "t" "t").2.files.node ["u"] = some (.file (textBytes formerText))) ∧
    (∃ error, (onto "u" "t").1 = .error error) ∧
      (onto "u" "t").2.files = halfKeyedMachine.files := by
  intro onto written
  obtain ⟨records, hparse, hfails, hwritten⟩ := run_halfKeyedRecords
  obtain ⟨error, hformer⟩ := parse_formerText
  have htext := textOfBytes?_textBytes halfKeyedRecords
  obtain ⟨hresult, hread, -, -, hkept, -⟩ :=
    (convert_touches_output halfKeyedMachine "t" "u" {}).2 _ _ records _ ["u"]
      read_halfKeyedRecords htext hparse (FileSystem.create_of_isName _ (by decide))
      (FileSystem.not_isDevice_of_file rfl)
  obtain ⟨hsame, hreread, -, -, hbeside, -⟩ :=
    (convert_touches_output halfKeyedMachine "t" "t" {}).2 _ _ records _ ["t"]
      read_halfKeyedRecords htext hparse (FileSystem.create_of_isName _ (by decide))
      (FileSystem.not_isDevice_of_file rfl)
  have hrefused := (convert_touches_output halfKeyedMachine "u" "t" {}).1 <| .inr <| .inr <| .inl
    ⟨_, _, error, read_formerText, textOfBytes?_textBytes _, hformer⟩
  rw [hfails] at hresult hsame
  rw [hwritten] at hread hreread
  exact ⟨⟨records, read_halfKeyedRecords, htext, hparse⟩,
    ⟨hresult, hread, hkept ["t"] (by decide)⟩, ⟨hsame, hreread, hbeside ["u"] (by decide)⟩,
    hrefused⟩

end Conversion

end OpcodeTable
