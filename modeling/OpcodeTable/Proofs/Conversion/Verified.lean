import OpcodeTable.Proofs.Conversion.BrokenOff
import OpcodeTable.Proofs.Conversion.OntoFile

/-!
# Verifying what was written

A conversion counts the different keys while it writes, and a check counts the entries of the table
that it reads back.  The two meet at the table of all entries: the conversion writes its text and
counts its keys, and the reader gives back each of its keys once.  So a check that follows a
conversion passes, and it changes nothing.

## What is here

* `Machine.error_of_convert`, all that a conversion of files can fail with.
* `Machine.check_of_convert`, by which a check passes after a conversion.
* `Job.verify_changes_nothing`, jobs with and without a check.
-/

set_option autoImplicit false

namespace OpcodeTable

open Json

/-- A path leads to a device. -/
def FileSystem.NamesDevice (fs : FileSystem) (path : String) : Prop :=
  ∃ location, fs.locate path = .ok location ∧ fs.IsDevice location

namespace Machine

variable {machine after : Machine} {input output : String} {options : Options}

/-- A conversion ends in one of three ways: there are no records, the output cannot be opened, or
the script of the records is run on it. -/
theorem convert_cases (hdevice : ¬machine.files.NamesDevice output)
    {result : Except Error Summary}
    (h : machine.run (Attempt.convert input output options).run = (result, after)) :
    (∃ error, machine.files.recordsAt input = .error error ∧ result = .error error) ∨
      (∃ cause, machine.files.create output = .error cause ∧
        result = .error (.file output cause)) ∨
      ∃ text records, machine.files.textAt input = .ok text ∧ Record.parse text = .ok records ∧
        result = (Conversion.script options records).outcome ∧
        after.files.read output = .ok (Conversion.script options records).bytes := by
  cases hsource : machine.files.recordsAt input with
  | error error =>
    obtain ⟨left, -, hrun⟩ := run_convert_of_source_error hsource output options
    cases h.symm.trans hrun
    exact .inl ⟨error, rfl, rfl⟩
  | ok records =>
    refine .inr ?_
    cases hcreate : machine.files.create output with
    | error cause =>
      obtain ⟨left, -, hrun⟩ := run_convert_of_create_error hsource hcreate options
      cases h.symm.trans hrun
      exact .inl ⟨cause, rfl, rfl⟩
    | ok opened =>
      obtain ⟨created, location⟩ := opened
      obtain ⟨hnames, -⟩ := FileSystem.namesFile_of_create hcreate
      have hregular : ¬machine.files.IsDevice location :=
        fun h => hdevice ⟨location, hnames.locate, h⟩
      obtain ⟨left, hfiles, hrun⟩ := run_convert_of_create hsource hcreate hregular options
      cases h.symm.trans hrun
      obtain ⟨text, htext, hparse⟩ := bind_eq_ok_iff.1 hsource
      exact .inr ⟨text, records, htext, hparse, rfl, hfiles ▸ hnames.read_put _⟩

/-- A conversion fails because of the source, because the output cannot be opened, or because of a
record. -/
theorem error_of_convert (hdevice : ¬machine.files.NamesDevice output) {error : Error}
    (h : machine.run (Attempt.convert input output options).run = (.error error, after)) :
    machine.files.recordsAt input = .error error ∨ (∃ cause, error = .file output cause) ∨
      (∃ place, error.Blames place) ∨
      ∃ index key earlier, error = .duplicateKey index key earlier := by
  rcases convert_cases hdevice h with ⟨_, hsource, ⟨⟩⟩ | ⟨cause, -, ⟨⟩⟩ |
    ⟨text, records, -, hparse, houtcome, -⟩
  · exact .inl hsource
  · exact .inr (.inl ⟨cause, rfl⟩)
  · exact .inr (.inr
      (Conversion.blames_or_duplicate (Conversion.numberedFrom_of_parse hparse) houtcome.symm))

/-- A conversion that succeeds leaves a table with as many entries as it has counted keys. -/
theorem check_of_convert (hdevice : ¬machine.files.NamesDevice output)
    {summary : Summary}
    (h : machine.run (Attempt.convert input output options).run = (.ok summary, after)) :
    ∃ (table : Table) (checked : Machine), checked.files = after.files ∧
      after.run (Attempt.checkTable output summary.distinctKeys).run = (.ok table, checked) := by
  rcases convert_cases hdevice h with ⟨_, _, ⟨⟩⟩ | ⟨_, _, ⟨⟩⟩ |
    ⟨text, records, -, hparse, houtcome, hread⟩
  obtain ⟨entries, hkeyed, rfl, hbytes⟩ :=
    Conversion.exists_keyed_of_ok (Conversion.numberedFrom_of_parse hparse) houtcome.symm
  obtain ⟨table, htable, hkeys, -⟩ := Conversion.exists_table_of_keyed hparse hkeyed
  have hsize : (entries.map Prod.fst).eraseDups.length = table.size := by
    rw [← hkeys, Table.keys, Members.names, List.length_map, Table.size]
  rw [hbytes] at hread
  obtain ⟨checked, hfiles, hrun⟩ := run_checkTable_of_text hread (textOfBytes?_textBytes _) htable
  rw [hsize]
  exact ⟨table, checked, hfiles, hrun⟩

end Machine

namespace Job

variable {machine after : Machine} {job : Job}

/-- A job fails with its conversion. -/
theorem run_of_convert_error {error : Error}
    (h : machine.run (Attempt.convert job.input job.output job.options).run =
      (.error error, after)) (verify : Bool) :
    machine.run ({ job with verify } : Job).run.run = (.error error, after) :=
  Machine.run_bind_of_error h _

/-- Without a check it succeeds with its conversion. -/
theorem run_of_convert_ok {summary : Summary}
    (h : machine.run (Attempt.convert job.input job.output job.options).run =
      (.ok summary, after)) :
    machine.run ({ job with verify := false } : Job).run.run = (.ok summary, after) :=
  (Machine.run_bind_of_ok h _).trans rfl

/-- With a check that passes, the result is still that of the conversion. -/
theorem run_of_check {summary : Summary}
    (h : machine.run (Attempt.convert job.input job.output job.options).run =
      (.ok summary, after)) {table : Table} {checked : Machine}
    (hcheck : after.run (Attempt.checkTable job.output summary.distinctKeys).run =
      (.ok table, checked)) :
    machine.run ({ job with verify := true } : Job).run.run = (.ok summary, checked) :=
  (Machine.run_bind_of_ok h _).trans ((Machine.run_bind_of_ok hcheck _).trans rfl)

/-- **Checking what was written changes nothing.**  Unless the output is a device, a job has the
same result and leaves the same files with a check as without one: whenever the conversion succeeds,
under either rule for duplicates and even onto its own source, the check passes.  So no job fails
with what a check finds wrong, and if it fails with a malformed text, that is the source.  The
floating-point numbers in the payloads may be read back as others, but each is read as a number. -/
theorem verify_changes_nothing {machine : Machine} {job : Job}
    (hdevice : ¬machine.files.NamesDevice job.output) :
    let verified := machine.run ({ job with verify := true } : Job).run.run
    let unverified := machine.run ({ job with verify := false } : Job).run.run
    verified.1 = unverified.1 ∧ verified.2.files = unverified.2.files ∧
      (∀ summary after,
        machine.run (Attempt.convert job.input job.output job.options).run = (.ok summary, after) →
        ∃ table, (after.run (Attempt.checkTable job.output summary.distinctKeys).run).1 =
          .ok table) ∧
      ∀ error, verified.1 = .error error →
        (∀ expected found, error ≠ .wrongCount expected found) ∧
        (∀ key, error ≠ .entryNotObject key) ∧
        ∀ fault, error = .malformed fault →
          machine.files.recordsAt job.input = .error (.malformed fault) := by
  intro verified unverified
  cases hconvert : machine.run (Attempt.convert job.input job.output job.options).run with
  | mk result after =>
    cases result with
    | error error =>
      have hverified : verified = _ := run_of_convert_error hconvert true
      have hunverified : unverified = _ := run_of_convert_error hconvert false
      rw [hverified, hunverified]
      refine ⟨rfl, rfl, by simp, ?_⟩
      rintro _ ⟨⟩
      rcases Machine.error_of_convert hdevice hconvert with hsource | ⟨cause, rfl⟩ |
        ⟨place, hblames⟩ | ⟨index, key, earlier, rfl⟩
      · rcases FileSystem.recordsAt_error hsource with ⟨cause, rfl⟩ | ⟨fault, rfl⟩
        · simp
        · simp [hsource]
      · simp
      · cases error with
        | missingField | badNumeral => simp
        | _ => exact hblames.elim
      · simp
    | ok summary =>
      obtain ⟨table, checked, hfiles, hcheck⟩ :=
        Machine.check_of_convert hdevice hconvert
      have hverified : verified = _ := run_of_check hconvert hcheck
      have hunverified : unverified = _ := run_of_convert_ok hconvert
      rw [hverified, hunverified]
      refine ⟨rfl, hfiles, ?_, by simp⟩
      rintro _ _ ⟨⟩
      exact ⟨table, by rw [hcheck]⟩

/-- Converts three records onto the file that they are in. -/
def overridingJob : Job where
  input := "t"
  output := "t"
  options := Conversion.overridingOptions

/-- The machine with this file. -/
def overridingMachine : Machine :=
  Conversion.machineOf (textBytes Conversion.overridingRecords)

theorem locate_overridingMachine : overridingMachine.files.locate "t" = .ok ["t"] :=
  FileSystem.locate_of_isName _ (by decide)

theorem not_namesDevice_overridingMachine :
    ¬overridingMachine.files.NamesDevice overridingJob.output := by
  rintro ⟨location, hlocate, hdevice⟩
  cases hlocate.symm.trans locate_overridingMachine
  exact FileSystem.not_isDevice_of_file rfl hdevice

theorem textAt_overridingMachine :
    overridingMachine.files.textAt "t" = .ok Conversion.overridingRecords := by
  rw [FileSystem.textAt, overridingMachine, Conversion.read_machineOf]
  dsimp only
  rw [textOfBytes?_textBytes]

/-- The conversion succeeds: there are three records and two keys. -/
theorem convert_overridingJob : ∃ after,
    overridingMachine.run (Attempt.convert overridingJob.input overridingJob.output
      overridingJob.options).run = (.ok ⟨3, 2⟩, after) := by
  have hscript : (Record.parse Conversion.overridingRecords >>= fun records =>
      (Conversion.script Conversion.overridingOptions records).outcome).toOption =
        some ⟨3, 2⟩ := by
    decide +kernel
  obtain ⟨records, hparse, houtcome⟩ :=
    bind_eq_ok_iff.1 (Conversion.eq_ok_of_toOption hscript)
  have hsource : overridingMachine.files.recordsAt "t" = .ok records :=
    bind_eq_ok_iff.2 ⟨_, textAt_overridingMachine, hparse⟩
  have hcreate : overridingMachine.files.create "t" =
      .ok (overridingMachine.files.put ["t"] (.file []), ["t"]) :=
    FileSystem.create_of_isName _ (by decide)
  obtain ⟨after, -, hrun⟩ := Machine.run_convert_of_create hsource hcreate
    (fun h => not_namesDevice_overridingMachine ⟨_, locate_overridingMachine, h⟩)
    Conversion.overridingOptions
  exact ⟨after, houtcome ▸ hrun⟩

theorem verify_changes_nothing_overridingJob :
    let verified := overridingMachine.run ({ overridingJob with verify := true } : Job).run.run
    let unverified := overridingMachine.run ({ overridingJob with verify := false } : Job).run.run
    ¬overridingMachine.files.NamesDevice overridingJob.output ∧
      unverified.1 = .ok ⟨3, 2⟩ ∧
      verified.1 = unverified.1 ∧ verified.2.files = unverified.2.files ∧
      ∃ after table, (after.run (Attempt.checkTable overridingJob.output 2).run).1 = .ok table ∧
        overridingMachine.run (Attempt.convert overridingJob.input overridingJob.output
          overridingJob.options).run = (.ok ⟨3, 2⟩, after) := by
  obtain ⟨hresult, hfiles, hcheck, -⟩ :=
    verify_changes_nothing not_namesDevice_overridingMachine
  obtain ⟨after, hconvert⟩ := convert_overridingJob
  obtain ⟨table, htable⟩ := hcheck _ _ hconvert
  exact ⟨not_namesDevice_overridingMachine, congrArg Prod.fst (run_of_convert_ok hconvert), hresult,
    hfiles, after, table, htable, hconvert⟩

end Job

end OpcodeTable
