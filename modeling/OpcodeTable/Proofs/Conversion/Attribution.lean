import OpcodeTable.Proofs.CanFail
import OpcodeTable.Proofs.Conversion.Faults
import OpcodeTable.Proofs.Conversion.OntoFile
import OpcodeTable.Proofs.Conversion.ReadBack
import OpcodeTable.Proofs.RecordEntry

/-!
# What the errors of a job tell

An error names what is at fault: a file, a record and its field, or two records.  What it names is
looked up here.  A device that refuses is never reported without its file, which is the source while
it is read and the output at any later time.  What an error says of a record is true of the record
at that place of the source.

## What is here

* `Error.TrueOf`, by which an error says something true of records, and
  `Conversion.trueOf_of_outcome`, that the errors of a conversion do.
* `Attempt.CanFail.writeTable`, how writing a table fails, whatever the devices answer.
* `Job.error_attributed`, the errors of a whole job.
-/

set_option autoImplicit false

namespace OpcodeTable

open Json

/-- The error says something true of the records: the record at the place that it names lacks the
field, or holds something else than a numeral there, which is described; or the records at both
places have the key, and may not. -/
def Error.TrueOf (error : Error) (options : Options) (records : List Record) : Prop :=
  match error with
  | .missingField index field =>
    field = options.opcodeField ∧
      ∃ h : index < records.length, field ∉ records[index].fields.names
  | .badNumeral index field found =>
    (field = options.opcodeField ∨ field = options.prefixField) ∧
      ∃ (h : index < records.length) (value : Value), (field, value) ∈ records[index].fields ∧
        ¬value.IsNumeral ∧ found = descriptionOf value
  | .duplicateKey index key earlier =>
    options.duplicates = .reject ∧ earlier < index ∧ index < records.length ∧
      Conversion.KeyAt options records earlier key ∧ Conversion.KeyAt options records index key
  | _ => False

/-- The error names what is at fault in a job on these files. -/
def Error.AttributedTo (error : Error) (job : Job) (fs : FileSystem) : Prop :=
  match error with
  | .device _ => False
  | .file path cause =>
    fs.textAt job.input = .error (.file path cause) ∧ path = job.input ∨
      (∃ text, fs.textAt job.input = .ok text) ∧ path = job.output
  | .malformed fault =>
    fs.recordsAt job.input = .error (.malformed fault) ∨
      (∃ records, fs.recordsAt job.input = .ok records) ∧ job.verify = true
  | .entryNotObject _ | .wrongCount _ _ =>
    (∃ records, fs.recordsAt job.input = .ok records) ∧ job.verify = true
  | .missingField _ _ | .badNumeral _ _ _ | .duplicateKey _ _ _ =>
    ∃ records, fs.recordsAt job.input = .ok records ∧ error.TrueOf job.options records

theorem Error.TrueOf.attributedTo {error : Error} {job : Job} {fs : FileSystem}
    {records : List Record} (h : error.TrueOf job.options records)
    (hsource : fs.recordsAt job.input = .ok records) : error.AttributedTo job fs := by
  cases error with
  | missingField | badNumeral | duplicateKey => exact ⟨records, hsource, h⟩
  | _ => exact h.elim

theorem FileSystem.textAt_error {fs : FileSystem} {path : String} {error : Error}
    (h : fs.textAt path = .error error) : ∃ cause, error = .file path cause := by
  rw [textAt] at h
  split at h
  · next cause _ =>
    cases h
    exact ⟨cause, rfl⟩
  · split at h
    · cases h
      exact ⟨.invalidUtf8, rfl⟩
    · cases h

namespace Conversion

variable {options : Options} {records : List Record}

/-- What is wrong with a record is said of its place. -/
theorem trueOf_of_keyed (hnumbered : NumberedFrom 0 records) {place : Nat} {record : Record}
    (hrecord : records[place]? = some record) (hnames : record.fields.names.Nodup) {error : Error}
    (h : record.keyed options = .error error) : error.TrueOf options records := by
  obtain ⟨hlt, rfl⟩ := List.getElem?_eq_some_iff.1 hrecord
  have hindex : records[place].index = place := by simpa using hnumbered place _ hrecord
  obtain ⟨result, hresult⟩ := Record.exists_yields hnames options
  rw [hresult.keyed_eq hnames] at h
  subst h
  cases hresult with
  | opcodeMissing hnone =>
    rw [hindex]
    exact ⟨rfl, hlt, hnone⟩
  | opcodeBad hmem hopcode =>
    rw [hindex]
    exact ⟨.inl rfl, hlt, _, hmem, hopcode, rfl⟩
  | prefixBad hmem hopcode hother hprefixed hvalue =>
    rw [hindex]
    exact ⟨.inr rfl, hlt, _, hprefixed, hvalue, rfl⟩

/-- A conversion that fails says why. -/
theorem trueOf_of_outcome (hnumbered : NumberedFrom 0 records)
    (hnames : ∀ record ∈ records, record.fields.names.Nodup) {error : Error}
    (h : (script options records).outcome = .error error) : error.TrueOf options records := by
  by_cases hstops : ∃ place, Stops options records place
  · obtain ⟨place, hplace⟩ := hstops
    obtain ⟨first, hfirst, hbefore⟩ := exists_first_stop hplace
    obtain ⟨_, -, -, record, hrecord, hresult⟩ := script_of_stops hnumbered hfirst hbefore
    rw [h] at hresult
    split at hresult
    · next other hother =>
      cases hresult
      exact trueOf_of_keyed hnumbered hrecord (hnames record (List.mem_of_getElem? hrecord)) hother
    · next key payload hkey =>
      obtain ⟨hrule, earlier, hless, herror, hat⟩ := hresult
      cases herror
      exact ⟨hrule, hless, (List.getElem?_eq_some_iff.1 hrecord).1, (hat earlier hless).2 rfl,
        record, payload, hrecord, hkey⟩
  · obtain ⟨_, -, houtcome, -⟩ :=
      script_of_not_stops hnumbered fun place hplace => hstops ⟨place, hplace⟩
    rw [houtcome] at h
    cases h

end Conversion

/-- Writing a table fails because of the output, or because of the records. -/
theorem Attempt.CanFail.writeTable {output : String} {options : Options} {records : List Record}
    (hnumbered : Conversion.NumberedFrom 0 records) {error : Error}
    (h : (Attempt.writeTable output options records).CanFail error) :
    (∃ cause, error = .file output cause) ∨
      (Conversion.script options records).outcome = .error error := by
  rcases of_bind h with h | ⟨_, h⟩
  · exact .inl h.createOutput
  · rcases of_bind h with h | ⟨_, h⟩
    · rcases h.runScript with h | ⟨own, hown, rfl⟩
      · exact .inl h
      · rw [Conversion.onFile_eq_of_error hnumbered hown]
        exact .inr hown
    · rcases of_bind h with h | ⟨_, h⟩
      · exact absurd h say
      · exact absurd h done

namespace Job

variable {machine : Machine} {job : Job} {error : Error}

/-- A job fails if its source does, and with it. -/
theorem run_of_source_error (h : machine.files.recordsAt job.input = .error error) :
    (machine.run job.run.run).1 = .error error ∧
      (machine.run job.run.run).2.files = machine.files := by
  obtain ⟨after, hfiles, hrun⟩ :=
    Machine.run_convert_of_source_error h job.output job.options
  have hjob : machine.run job.run.run = (.error error, after) := Machine.run_bind_of_error hrun _
  rw [hjob]
  exact ⟨rfl, hfiles⟩

theorem attributedTo_of_source_error {fs : FileSystem}
    (h : fs.recordsAt job.input = .error error) : error.AttributedTo job fs := by
  cases htext : fs.textAt job.input with
  | error other =>
    obtain ⟨cause, rfl⟩ := FileSystem.textAt_error htext
    rw [FileSystem.recordsAt, htext] at h
    cases h
    exact .inl ⟨htext, rfl⟩
  | ok text =>
    rcases FileSystem.recordsAt_error h with ⟨cause, rfl⟩ | ⟨fault, rfl⟩
    · rw [FileSystem.recordsAt, htext] at h
      change Record.parse text = _ at h
      rw [Record.parse] at h
      split at h <;> cases h
    · exact .inl h

/-- If the source does not fail, writing the table does or reading it back. -/
theorem canFail_of_source {records : List Record}
    (hsource : machine.files.recordsAt job.input = .ok records)
    (h : (machine.run job.run.run).1 = .error error) :
    (Attempt.writeTable job.output job.options records).CanFail error ∨
      job.verify = true ∧ ∃ expected, (Attempt.checkTable job.output expected).CanFail error := by
  obtain ⟨read, -, hconvert⟩ := Machine.run_convert_of_source hsource job.output job.options
  have hcan := read.canReturn_run (Attempt.writeTable job.output job.options records).run
  cases hwritten : read.run (Attempt.writeTable job.output job.options records).run with
  | mk result written =>
    rw [hwritten] at hcan hconvert
    cases result with
    | error other =>
      have hjob : machine.run job.run.run = (.error other, written) :=
        Machine.run_bind_of_error hconvert _
      rw [hjob] at h
      cases h
      exact .inl hcan
    | ok summary =>
      have hjob : machine.run job.run.run = _ := Machine.run_bind_of_ok hconvert _
      rw [hjob] at h
      have hrest : Attempt.CanFail _ error := h ▸ written.canReturn_run _
      dsimp only at hrest
      split at hrest
      · next hverify =>
        refine .inr ⟨hverify, summary.distinctKeys, ?_⟩
        rcases hrest.of_bind with hcheck | ⟨_, hdone⟩
        · exact hcheck
        · exact absurd hdone Attempt.CanFail.done
      · exact absurd hrest Attempt.CanFail.done

/-- **Every error of a job can be attributed.**  If the source cannot be read as a text, that is
reported with the path of the source, and no file is changed.  An error that names a file names the
source in this case only, and the output in every other case; a refusal is never reported without
its file.  An error that names a record or two names places of the source, and what it says of the
records there is true.  All other errors are about the source as a text of records, or about the
output as a table, which is then to be checked. -/
theorem error_attributed (machine : Machine) (job : Job) :
    let run := machine.run job.run.run
    (∀ error, machine.files.textAt job.input = .error error →
      (∃ cause, error = .file job.input cause) ∧ run.1 = .error error ∧
        run.2.files = machine.files) ∧
    ∀ error, run.1 = .error error → error.AttributedTo job machine.files := by
  intro run
  refine ⟨fun error htext => ?_, fun error h => ?_⟩
  · have hsource : machine.files.recordsAt job.input = .error error := by
      rw [FileSystem.recordsAt, htext]
      rfl
    exact ⟨FileSystem.textAt_error htext, run_of_source_error hsource⟩
  · cases hsource : machine.files.recordsAt job.input with
    | error cause =>
      cases h.symm.trans (run_of_source_error hsource).1
      exact attributedTo_of_source_error hsource
    | ok records =>
      obtain ⟨text, htext, hparse⟩ := bind_eq_ok_iff.1 hsource
      have hnames : ∀ record ∈ records, record.fields.names.Nodup := fun record hrecord =>
        (Conversion.readable_of_parse hparse record hrecord).names_nodup
      have hnumbered := Conversion.numberedFrom_of_parse hparse
      rcases canFail_of_source hsource h with hwrite | ⟨hverify, expected, hcheck⟩
      · rcases hwrite.writeTable hnumbered with ⟨cause, rfl⟩ | houtcome
        · exact .inr ⟨⟨text, htext⟩, rfl⟩
        · exact (Conversion.trueOf_of_outcome hnumbered hnames houtcome).attributedTo hsource
      · rcases hcheck.checkTable with ⟨cause, rfl⟩ | ⟨fault, rfl⟩ | ⟨key, rfl⟩ | ⟨found, rfl⟩
        · exact .inr ⟨⟨text, htext⟩, rfl⟩
        · exact .inr ⟨⟨records, hsource⟩, hverify⟩
        · exact ⟨⟨records, hsource⟩, hverify⟩
        · exact ⟨⟨records, hsource⟩, hverify⟩

end Job
end OpcodeTable
