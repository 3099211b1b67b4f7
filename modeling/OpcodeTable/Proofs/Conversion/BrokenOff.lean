import OpcodeTable.Proofs.Conversion.ReadBack
import OpcodeTable.Proofs.FileSystem
import OpcodeTable.Proofs.Json.Nesting
import OpcodeTable.Proofs.Machine

/-!
# An output that is broken off

A conversion that fails leaves something on the sink, unless it was the flush that failed.  It is
the front of a table's text, and never all of it: if a record is at fault, the last bracket is
missing, and if the sink was full, so is everything behind some byte.  In a text that is broken off
a bracket is open, so whatever reads a table notices, and bytes that break off within a character
are no text at all.

## What is here

* `Conversion.exists_front_of_error`, what reached the sink.
* `Conversion.parse_of_broken_off`, what the reader of tables makes of it.
* `Conversion.not_table_of_broken_off`, the two together, for texts and for files.
-/

set_option autoImplicit false

namespace OpcodeTable
namespace Conversion

open Json

/-- The text of the table of entries. -/
def tableText (entries : List (String × Fields)) : String :=
  Value.text (.object (entries.map entryMember))

/-- What a script writes is the front of a table's text, and not all of it if the script fails. -/
theorem exists_front (options : Options) {records : List Record}
    (hnumbered : NumberedFrom 0 records) :
    ∃ entries, (script options records).bytes <+: textBytes (tableText entries) ∧
      ∀ error, (script options records).outcome = .error error →
        (script options records).bytes ≠ textBytes (tableText entries) := by
  cases houtcome : (script options records).outcome with
  | ok summary =>
    obtain ⟨entries, -, -, hbytes⟩ := exists_keyed_of_ok hnumbered houtcome
    refine ⟨entries, ?_, fun error herror => nomatch herror⟩
    rw [hbytes, tableText_eq]
    exact List.prefix_rfl
  | error error =>
    obtain ⟨entries, hbytes⟩ := exists_body_of_error hnumbered houtcome
    have hclosed : textBytes (tableText entries) =
        (script options records).bytes ++ textBytes TableText.closing := by
      rw [hbytes, tableText, ← tableText_eq, textBytes_append]
    refine ⟨entries, ?_, fun _ _ heq => ?_⟩
    · rw [hclosed]
      exact List.prefix_append ..
    · rw [hclosed] at heq
      have hnone : textBytes TableText.closing = [] := List.self_eq_append_right.1 heq
      exact absurd hnone (by decide)

/-- Unless the flush was refused, a run that fails leaves the front of a table's text on the sink,
and not all of it. -/
theorem exists_front_of_error {options : Options} {records : List Record}
    (hnumbered : NumberedFrom 0 records) {sink : Sink} (hempty : sink.stored.bytes = [])
    {error : Error} (hresult : (sink.run (script options records)).result = .error error)
    (hrefused : sink.refused? (script options records).steps ≠ some .flush) :
    ∃ entries, (sink.run (script options records)).sink.stored.bytes <+:
        textBytes (tableText entries) ∧
      (sink.run (script options records)).sink.stored.bytes ≠ textBytes (tableText entries) := by
  have hscript := flushesLast_script options records
  obtain ⟨entries, hfront, hopen⟩ := exists_front options hnumbered
  refine ⟨entries, ?_⟩
  by_cases hfits : sink.Fits (script options records).bytes.length
  · obtain ⟨hsettled, hstored⟩ := Sink.run_of_fits hscript hfits
    rw [hempty, List.nil_append] at hstored
    rw [hstored]
    rw [hsettled] at hresult
    cases houtcome : (script options records).outcome with
    | error other => exact ⟨hfront, hopen other houtcome⟩
    | ok summary =>
      cases hflush : sink.flush with
      | error cause => exact absurd (Sink.refused?_of_fits hscript hfits houtcome hflush) hrefused
      | ok done =>
        rw [houtcome, Sink.settle, hflush] at hresult
        cases hresult
  · obtain ⟨room, hroom, hlt⟩ : ∃ room, sink.room = some room ∧
        room < (script options records).bytes.length := by
      simpa [Sink.Fits] using hfits
    obtain ⟨-, hstored⟩ := Sink.run_of_not_fits hscript hroom hlt
    rw [hempty, List.nil_append] at hstored
    rw [hstored]
    refine ⟨(List.take_prefix ..).trans hfront, fun heq => ?_⟩
    have hlength := congrArg List.length heq
    have hle := hfront.length_le
    rw [List.length_take] at hlength
    omega

/-- A text whose bytes are the front of those of a table, and not all of them, is no table. -/
theorem parse_of_broken_off {entries : List (String × Fields)} {text : String}
    (hfront : textBytes text <+: textBytes (tableText entries))
    (hbroken : textBytes text ≠ textBytes (tableText entries)) :
    ∃ fault, Table.parse text = .error (.malformed fault) := by
  rw [Table.parse]
  split
  · next fault hfault => exact ⟨fault, rfl⟩
  · next members hmembers =>
    refine absurd (readObject_eq_ok_iff.1 hmembers)
      (not_documentText_of_broken_off ValueText.balanced
        (isPrefix_toList_of_textBytes hfront) fun heq => hbroken ?_)
    rw [String.toList_inj.1 heq]
    rfl

/-- **An output that is broken off is never taken for a table.**  If a conversion fails, and not
because the sink refused to flush, then what reached the sink is either no text, or a text that is
malformed as a table.  A file that holds it is neither read nor passes a check as a table, however
many entries are expected of it. -/
theorem not_table_of_broken_off {options : Options} {objects : List Fields} {room : Option Nat}
    {whenFull : DeviceError} {whenFlushed : Option DeviceError} {error : Error}
    (hresult : (Sink.run { room, whenFull, whenFlushed }
      (script options (Record.ofFields objects))).result = .error error)
    (hrefused : Sink.refused? { room, whenFull, whenFlushed }
      (script options (Record.ofFields objects)).steps ≠ some .flush) :
    let bytes := (Sink.run { room, whenFull, whenFlushed }
      (script options (Record.ofFields objects))).sink.stored.bytes
    (∀ text, textOfBytes? bytes = some text →
      ∃ fault, Table.parse text = .error (.malformed fault)) ∧
    ∀ (machine : Machine) (path : String), machine.files.read path = .ok bytes →
      (∃ cause, (machine.run (Attempt.readTable path).run).1 = .error cause) ∧
      ∀ expected, ∃ cause, (machine.run (Attempt.checkTable path expected).run).1 = .error cause := by
  intro bytes
  obtain ⟨entries, (hfront : bytes <+: _), (hbroken : bytes ≠ _)⟩ :=
    exists_front_of_error (numberedFrom_ofFields objects) rfl hresult hrefused
  have hparse : ∀ text, textOfBytes? bytes = some text →
      ∃ fault, Table.parse text = .error (.malformed fault) := by
    intro text htext
    rw [eq_textBytes_of_textOfBytes? htext] at hfront hbroken
    exact parse_of_broken_off hfront hbroken
  refine ⟨hparse, fun machine path hread => ?_⟩
  obtain ⟨cause, hcause⟩ :
      ∃ cause, machine.run (Attempt.readTable path).run = (.error cause, machine) := by
    cases htext : textOfBytes? bytes with
    | none => exact ⟨_, Machine.run_readTable_of_bytes hread htext⟩
    | some text =>
      obtain ⟨fault, hfault⟩ := hparse text htext
      exact ⟨.malformed fault, by rw [Machine.run_readTable_of_text hread htext, hfault]⟩
  exact ⟨⟨cause, by rw [hcause]⟩, fun expected =>
    ⟨cause, by rw [Machine.run_checkTable_of_error hcause expected]⟩⟩

/-- The fields of a record. -/
def cutFields : Fields :=
  [("opcode", .string "0x0a"), ("a", .string "é")]

/-- A conversion of that record, for which there is not enough room. -/
def cutRun : Sink.Run Summary :=
  Sink.run { room := some 12 } (script {} (Record.ofFields [cutFields]))

/-- A machine with one file. -/
def machineOf (bytes : List UInt8) : Machine where
  files := { nodes := [([], .directory), (["t"], .file bytes)], workingDirectory := [] }

theorem read_machineOf (bytes : List UInt8) : (machineOf bytes).files.read "t" = .ok bytes :=
  FileSystem.read_of_isName _ (by decide)

theorem not_table_of_cutRun :
    cutRun.result = .error (.device .noProgress) ∧
      Sink.refused? { room := some 12 } (script {} (Record.ofFields [cutFields])).steps ≠
        some .flush ∧
      textOfBytes? cutRun.sink.stored.bytes = some "\x7b\"0x0a\":\x7b\"a\"" ∧
      (∃ fault, Table.parse "\x7b\"0x0a\":\x7b\"a\"" = .error (.malformed fault)) ∧
      (machineOf cutRun.sink.stored.bytes).files.read "t" = .ok cutRun.sink.stored.bytes ∧
      (∃ cause, ((machineOf cutRun.sink.stored.bytes).run (Attempt.readTable "t").run).1 =
        .error cause) ∧
      ∀ expected, ∃ cause,
        ((machineOf cutRun.sink.stored.bytes).run (Attempt.checkTable "t" expected).run).1 =
          .error cause := by
  have hresult : cutRun.result = .error (.device .noProgress) := rfl
  have hrefused : Sink.refused? { room := some 12 }
      (script {} (Record.ofFields [cutFields])).steps ≠ some .flush := by
    decide +kernel
  have htext : textOfBytes? cutRun.sink.stored.bytes = some "\x7b\"0x0a\":\x7b\"a\"" := by
    decide +kernel
  have hread := read_machineOf cutRun.sink.stored.bytes
  obtain ⟨hparse, hfile⟩ := not_table_of_broken_off hresult hrefused
  exact ⟨hresult, hrefused, htext, hparse _ htext, hread, hfile _ _ hread⟩

end Conversion
end OpcodeTable
