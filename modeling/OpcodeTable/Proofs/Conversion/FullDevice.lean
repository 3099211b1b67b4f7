import OpcodeTable.Proofs.Conversion.OntoFile
import OpcodeTable.Proofs.Conversion.ReadBack

/-!
# Converting onto a device that takes nothing

A device that takes nothing can be opened, and refuses the first byte that it is given.  That byte
comes late: as long as all that has been written fits into the buffer, nothing is put down, and a
record that stops the conversion by then is what is reported.  Otherwise the buffer is put down
because a piece no longer fits, or because the table is finished, and the refusal is what is
reported.  So it is the number of bytes that decides, not the pieces in which they come.

## What is here

* `Machine.OutputFull`, an output that refuses everything, and what becomes of one write.
* `Machine.OutputFull.run_perform_of_fits` and `Machine.OutputFull.run_perform_of_overflow`, by
  induction on the steps, for any bytes held back.
* `Machine.OutputFull.run_ofScript` for a script as a whole.
* `Conversion.convert_onto_full_device`, what is reported.
-/

set_option autoImplicit false

namespace OpcodeTable

/-- What becomes of a script on a device that takes nothing: it fails for its own reason as long as
all that it writes fits into the buffer, and because of the device otherwise. -/
def Script.onFullDevice {α : Type} (script : Script α) : Except Error α :=
  match script.outcome with
  | .ok _ => .error (.device .noSpace)
  | .error error =>
    if script.bytes.length ≤ Program.bufferSize then .error error else .error (.device .noSpace)

/-- The opening bracket is the first that a conversion writes. -/
theorem Conversion.steps_script (options : Options) (records : List Record) :
    ∃ others, (script options records).steps = .emit TableText.opening :: others := by
  rw [script, Script.bind_of_ok rfl]
  exact ⟨_, rfl⟩

namespace Machine

/-- What is written to the output is given to the full device. -/
def OutputFull (machine : Machine) : Prop :=
  ∃ handle, machine.output = some handle ∧
    machine.files.node handle.location = some .fullDevice

namespace OutputFull

variable {α : Type} {machine : Machine}

/-- A line of the log is no output. -/
theorem note (h : machine.OutputFull) (event : Log.Event) :
    OutputFull { machine with journal := event :: machine.journal } :=
  h

theorem write_eq (h : machine.OutputFull) (bytes : List UInt8) :
    machine.write .output bytes = (.error .noSpace, machine) := by
  obtain ⟨⟨location, offset⟩, houtput, hfull⟩ := h
  simp only [write, writeFile, houtput, FileSystem.write, hfull]

/-- What is put down is refused, if it is anything at all. -/
theorem run_put (h : machine.OutputFull) {bytes : List UInt8} (hbytes : bytes ≠ [])
    (next : Except DeviceError Unit → Program α) :
    machine.run (Program.put bytes next) = machine.run (next (.error .noSpace)) := by
  rw [Program.put, if_neg hbytes, run, h.write_eq]

/-- A refusal that is not looked at changes nothing. -/
theorem run_put_const (h : machine.OutputFull) (bytes : List UInt8) (program : Program α) :
    machine.run (Program.put bytes fun _ => program) = machine.run program := by
  by_cases hbytes : bytes = []
  · rw [Program.put, if_pos hbytes]
  · exact h.run_put hbytes _

variable (outcome : Except Error α) {held : Buffer} {steps : List Step}

/-- While all that is written fits into the buffer, it is held back. -/
theorem run_perform_of_fits (h : machine.OutputFull) (hheld : held.bytes ≠ [])
    (hsteps : .flush ∉ steps)
    (hfits : held.size + (steps.flatMap Step.bytes).length ≤ Program.bufferSize)
    (rest : List Step) :
    ∃ after : Machine, after.OutputFull ∧ after.files = machine.files ∧
      machine.run (Program.perform outcome held (steps ++ rest)) =
        after.run (Program.perform outcome (held.add (steps.flatMap Step.bytes)) rest) := by
  induction steps generalizing machine held with
  | nil => exact ⟨machine, h, rfl, by rw [List.flatMap_nil, Buffer.add]; rfl⟩
  | cons step steps ih =>
    rw [List.mem_cons, not_or] at hsteps
    rw [List.flatMap_cons, List.length_append] at hfits
    cases step with
    | flush => exact absurd rfl hsteps.1
    | note event =>
      exact ih (h.note event) hheld hsteps.2 (by simpa [Step.bytes] using hfits)
    | emit text =>
      rw [Step.bytes] at hfits
      have hsize : 0 < held.size := by
        rw [Buffer.size_eq_length]
        exact List.length_pos_iff.2 hheld
      -- something is held back, so a piece that still fits is shorter than the buffer
      have hkept : held.size + (textBytes text).length ≤ Program.bufferSize ∧
          (textBytes text).length < Program.bufferSize := by omega
      have hadd : (held.add (textBytes text)).add (steps.flatMap Step.bytes) =
          held.add (textBytes text ++ steps.flatMap Step.bytes) := by
        simp [Buffer.add]
      have hmore : (held.add (textBytes text)).bytes ≠ [] := by
        simp [hheld]
      rw [List.cons_append, Program.perform, if_pos hkept, List.flatMap_cons, Step.bytes, ← hadd]
      refine ih h hmore hsteps.2 ?_
      rw [Buffer.size_eq_length, Buffer.bytes_add, List.length_append, ← Buffer.size_eq_length]
      omega

/-- The first piece that does not fit has the buffer put down, which is refused. -/
theorem run_perform_of_overflow (h : machine.OutputFull) (hheld : held.bytes ≠ [])
    (hsteps : .flush ∉ steps)
    (hlong : Program.bufferSize < held.size + (steps.flatMap Step.bytes).length)
    (hshort : held.size ≤ Program.bufferSize) (rest : List Step) :
    ∃ after : Machine, after.files = machine.files ∧
      machine.run (Program.perform outcome held (steps ++ rest)) =
        (.error (.device .noSpace), after) := by
  induction steps generalizing machine held with
  | nil =>
    rw [List.flatMap_nil, List.length_nil] at hlong
    omega
  | cons step steps ih =>
    rw [List.mem_cons, not_or] at hsteps
    rw [List.flatMap_cons, List.length_append] at hlong
    cases step with
    | flush => exact absurd rfl hsteps.1
    | note event =>
      exact ih (h.note event) hheld hsteps.2 (by simpa [Step.bytes] using hlong) hshort
    | emit text =>
      rw [Step.bytes] at hlong
      rw [List.cons_append, Program.perform]
      split
      · next hkept =>
        have hsize : (held.add (textBytes text)).size = held.size + (textBytes text).length := by
          rw [Buffer.size_eq_length, Buffer.bytes_add, List.length_append, ← Buffer.size_eq_length]
        exact ih h (by simp [hheld]) hsteps.2 (by omega) (by omega)
      · refine ⟨machine, rfl, ?_⟩
        rw [h.run_put hheld]
        exact h.run_put_const held.bytes _

/-- A script that begins with a piece shorter than the buffer is run to its end on the full
device. -/
theorem run_ofScript (h : machine.OutputFull) {script : Script α} (hflush : script.FlushesLast)
    {first : String} {others : List Step} (hfirst : script.steps = .emit first :: others)
    (hsome : textBytes first ≠ []) (hshort : (textBytes first).length < Program.bufferSize) :
    ∃ after : Machine, after.files = machine.files ∧
      machine.run (Program.ofScript script) = (script.onFullDevice, after) := by
  obtain ⟨steps, hsteps, heq⟩ := hflush
  obtain ⟨more, rfl⟩ : ∃ more, steps = .emit first :: more := by
    cases steps with
    | nil =>
      rw [heq, List.nil_append] at hfirst
      cases houtcome : script.outcome <;> simp [houtcome, Script.flushAfter] at hfirst
    | cons step more =>
      rw [heq, List.cons_append] at hfirst
      exact ⟨more, by rw [(List.cons.inj hfirst).1]⟩
  rw [List.mem_cons, not_or] at hsteps
  -- the first piece is held back, and from there on something always is
  have hheld : (({} : Buffer).add (textBytes first)).bytes ≠ [] := by simpa using hsome
  have hsize : (({} : Buffer).add (textBytes first)).size = (textBytes first).length := by
    rw [Buffer.size_eq_length, Buffer.bytes_add, Buffer.bytes_empty, List.nil_append]
  have hempty : ({} : Buffer).size = 0 := rfl
  have hkept : ({} : Buffer).size + (textBytes first).length ≤ Program.bufferSize ∧
      (textBytes first).length < Program.bufferSize := by omega
  have hbytes : script.bytes.length =
      (textBytes first).length + (more.flatMap Step.bytes).length := by
    rw [Script.FlushesLast.bytes_eq heq, List.flatMap_cons, Step.bytes, List.length_append]
  have hrun : machine.run (Program.ofScript script) = machine.run (Program.perform script.outcome
      (({} : Buffer).add (textBytes first)) (more ++ Script.flushAfter script.outcome)) := by
    rw [Program.ofScript, heq, List.cons_append, Program.perform, if_pos hkept]
  rw [hrun, Script.onFullDevice]
  by_cases hfits : script.bytes.length ≤ Program.bufferSize
  · obtain ⟨after, hafter, hfiles, hperform⟩ := h.run_perform_of_fits script.outcome
      hheld hsteps.2 (by omega) (Script.flushAfter script.outcome)
    refine ⟨after, hfiles, hperform.trans ?_⟩
    cases script.outcome with
    | error error =>
      rw [Script.flushAfter, Program.perform, hafter.run_put_const]
      simp only [run, if_pos hfits]
    | ok value =>
      rw [Script.flushAfter, Program.perform, hafter.run_put (by simp [hsome])]
      exact hafter.run_put_const _ _
  · obtain ⟨after, hfiles, hperform⟩ := h.run_perform_of_overflow script.outcome
      hheld hsteps.2 (by omega) (by omega) (Script.flushAfter script.outcome)
    refine ⟨after, hfiles, hperform.trans ?_⟩
    cases script.outcome with
    | error error => simp only [if_neg hfits]
    | ok value => rfl

end OutputFull

variable {machine : Machine} {input output : String}

/-- The full device can be opened, which changes nothing. -/
theorem run_createOutput_of_full {created : FileSystem} {location : Location}
    (hcreate : machine.files.create output = .ok (created, location))
    (hfull : machine.files.node location = some .fullDevice) :
    ∃ after : Machine, after.OutputFull ∧ after.files = machine.files ∧
      machine.run (Attempt.createOutput output).run = (.ok (), after) := by
  have hcreated : created = machine.files := by
    obtain ⟨-, ⟨-, hcreated⟩ | ⟨hdevice, -⟩⟩ := FileSystem.created_of_create hcreate
    · exact hcreated
    · exact absurd (.inr hfull) hdevice
  refine ⟨{ machine with files := created, output := some ⟨location, 0⟩ },
    ⟨_, rfl, hcreated ▸ hfull⟩, hcreated, ?_⟩
  change machine.run (.create .output output _) = _
  simp only [run, create, hcreate]
  rfl

/-- On the full device a conversion comes to what its script comes to, with the file named. -/
theorem run_convert_of_full {records : List Record} {created : FileSystem} {location : Location}
    (hsource : machine.files.recordsAt input = .ok records)
    (hcreate : machine.files.create output = .ok (created, location))
    (hfull : machine.files.node location = some .fullDevice) (options : Options) :
    ∃ after : Machine, after.files = machine.files ∧
      machine.run (Attempt.convert input output options).run =
        ((Conversion.script options records).onFullDevice.mapError (Error.onFile output), after) := by
  obtain ⟨read, hfiles, hrun⟩ := run_convert_of_source hsource output options
  rw [← hfiles] at hcreate hfull
  obtain ⟨opened, hopened, hopenedFiles, hcreated⟩ := run_createOutput_of_full hcreate hfull
  obtain ⟨others, hfirst⟩ := Conversion.steps_script options records
  obtain ⟨after, hafter, hscript⟩ := hopened.run_ofScript
    (Conversion.flushesLast_script options records) hfirst (by decide) (by decide)
  have hwrite : opened.run (Attempt.runScript output (Conversion.script options records)).run =
      ((Conversion.script options records).onFullDevice.mapError (Error.onFile output), after) := by
    change opened.run ((Program.ofScript _).bind _) = _
    rw [run_bind, hscript]
    cases (Conversion.script options records).onFullDevice <;> rfl
  refine ⟨after, (hafter.trans hopenedFiles).trans hfiles, hrun.trans ?_⟩
  rw [Attempt.writeTable, run_bind_of_ok hcreated]
  obtain ⟨error, herror⟩ : ∃ error,
      (Conversion.script options records).onFullDevice = .error error := by
    rw [Script.onFullDevice]
    split
    · exact ⟨_, rfl⟩
    · split <;> exact ⟨_, rfl⟩
  rw [herror] at hwrite ⊢
  exact run_bind_of_error hwrite _

end Machine

namespace Conversion

/-- **The full device is never written to without notice.**  The records are converted onto a device
that can be opened but takes no byte, and compared with a conversion onto an endless sink.  The
conversion never succeeds, and no file is changed.  It fails with the device's refusal, and names
the output, whenever the conversion itself would succeed, however short the table is, and whenever
more is written than the buffer holds.  It fails as the conversion itself does if and only if that
fails before it has written more than the buffer holds. -/
theorem convert_onto_full_device {machine : Machine} {input output : String}
    {records : List Record} {created : FileSystem} {location : Location}
    (hsource : machine.files.recordsAt input = .ok records)
    (hcreate : machine.files.create output = .ok (created, location))
    (hfull : machine.files.node location = some .fullDevice) (options : Options) :
    let endless := ({} : Sink).run (script options records)
    let written := endless.sink.stored.bytes
    let run := machine.run (Attempt.convert input output options).run
    (∀ summary, run.1 ≠ .ok summary) ∧ run.2.files = machine.files ∧
      ((∃ summary, endless.result = .ok summary) ∨ 8192 < written.length →
        run.1 = .error (.file output .noSpace)) ∧
      (run.1 = endless.result ↔
        (∃ error, endless.result = .error error) ∧ written.length ≤ 8192) := by
  intro endless written run
  obtain ⟨hresult, hstored⟩ := Sink.run_endless (flushesLast_script options records)
  have hwritten : written = (script options records).bytes := hstored
  have hendless : endless.result = (script options records).outcome := hresult
  obtain ⟨after, hfiles, hrun⟩ := Machine.run_convert_of_full hsource hcreate hfull options
  have hrun : run = _ := hrun
  rw [hrun, hendless, hwritten]
  dsimp only
  rw [Script.onFullDevice]
  cases houtcome : (script options records).outcome with
  | ok summary =>
    exact ⟨by simp [Except.mapError], hfiles, fun _ => rfl, by simp [Except.mapError]⟩
  | error error =>
    have hnumbered := FileSystem.numberedFrom_of_recordsAt hsource
    have hown := onFile_eq_of_error hnumbered houtcome output
    have hother : error ≠ .file output .noSpace := by
      rintro rfl
      rcases blames_or_duplicate hnumbered houtcome with ⟨place, hblames⟩ | ⟨_, _, _, h⟩
      · exact hblames
      · cases h
    dsimp only
    split
    · next hfits =>
      simp only [Program.bufferSize] at hfits
      refine ⟨by simp [Except.mapError], hfiles, fun h => ?_, ?_⟩
      · rcases h with ⟨_, h⟩ | hlong
        · cases h
        · omega
      · simp [Except.mapError, hown, hfits]
    · next hlong =>
      simp only [Program.bufferSize] at hlong
      refine ⟨by simp [Except.mapError], hfiles, fun _ => rfl, ?_⟩
      simp [Except.mapError, Error.onFile, hlong, Ne.symm hother]

/-- One record, which has a key. -/
def lonelyRecord : String :=
  "[\x7b\"opcode\":\"0x0a\"\x7d]"

/-- A machine with this file, and a full device beside it. -/
def fullMachine : Machine where
  files :=
    { nodes := [([], .directory), (["t"], .file (textBytes lonelyRecord)), (["u"], .fullDevice)]
      workingDirectory := [] }

theorem read_fullMachine : fullMachine.files.read "t" = .ok (textBytes lonelyRecord) :=
  FileSystem.read_of_isName _ (by decide)

theorem create_fullMachine :
    fullMachine.files.create "u" = .ok (fullMachine.files, ["u"]) :=
  FileSystem.create_of_isName _ (by decide)

theorem recordsAt_fullMachine : ∃ records,
    fullMachine.files.recordsAt "t" = .ok records ∧
      (script {} records).outcome = .ok ⟨1, 1⟩ := by
  have hscript : (Record.parse lonelyRecord >>= fun records =>
      (script {} records).outcome).toOption = some ⟨1, 1⟩ := by
    decide +kernel
  obtain ⟨records, hparse, houtcome⟩ := bind_eq_ok_iff.1 (eq_ok_of_toOption hscript)
  exact ⟨records, FileSystem.recordsAt_eq_ok_iff.2
    ⟨_, _, read_fullMachine, textOfBytes?_textBytes _, hparse⟩, houtcome⟩

/-- A table of a few bytes is not lost without notice either. -/
theorem convert_fullMachine :
    ∃ records, fullMachine.files.recordsAt "t" = .ok records ∧
      fullMachine.files.create "u" = .ok (fullMachine.files, ["u"]) ∧
      fullMachine.files.node ["u"] = some .fullDevice ∧
      (({} : Sink).run (script {} records)).result = .ok ⟨1, 1⟩ ∧
      (fullMachine.run (Attempt.convert "t" "u" {}).run).1 = .error (.file "u" .noSpace) := by
  obtain ⟨records, hsource, houtcome⟩ := recordsAt_fullMachine
  have hresult := (Sink.run_endless (flushesLast_script {} records)).1.trans houtcome
  obtain ⟨-, -, hrefused, -⟩ :=
    convert_onto_full_device hsource create_fullMachine rfl {}
  exact ⟨records, hsource, create_fullMachine, rfl, hresult, hrefused (.inl ⟨_, hresult⟩)⟩

end Conversion
end OpcodeTable
