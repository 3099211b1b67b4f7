import OpcodeTable.Proofs.Conversion.Progress
import OpcodeTable.Proofs.Sink

/-!
# Converting onto a sink that fails

A conversion flushes once, after the closing bracket, and only if it gets that far.  So what it
leaves on a sink that fails is settled by the number of bytes that the sink takes: the front of
what an endless sink would hold, and the sink's own refusal as the result if anything is missing.
-/

set_option autoImplicit false

namespace OpcodeTable
namespace Conversion

open Script

/-- Entries are written without flushing. -/
theorem takes_entries (options : Options) (progress : Progress) (records : List Record) :
    (entries options progress records).Takes (· ≠ .flush) := by
  have hnote : ∀ event, Step.note event ≠ .flush := fun _ h => by cases h
  have hemit : ∀ text, Step.emit text ≠ .flush := fun _ h => by cases h
  induction records generalizing progress with
  | nil => exact takes_pure progress
  | cons record rest ih =>
    rw [entries, entry_eq]
    refine Takes.bind ?_ ih
    refine ((takes_toEntry options record).mono fun _ h => h.ne_flush).bind fun keyed => ?_
    refine ((takes_checkOwner options progress record keyed.1).mono fun _ h => h.ne_flush).bind
      fun _ => (takes_note _ (hnote _)).bind fun _ => (takes_emit _ hemit).bind fun _ => ?_
    exact takes_pure _

/-- A conversion flushes at its end and nowhere else. -/
theorem flushesLast_script (options : Options) (records : List Record) :
    (script options records).FlushesLast := by
  have hemit : ∀ text, Step.emit text ≠ .flush := fun _ h => by cases h
  have hbody : Takes (· ≠ .flush) (do
      emit [TableText.opening]
      let progress ← entries options .start records
      emit [TableText.closing]
      return progress) :=
    (takes_emit _ hemit).bind fun _ => (takes_entries options .start records).bind
      fun progress => (takes_emit _ hemit).bind fun _ => takes_pure progress
  have hscript := flushesLast_of_takes hbody Progress.summary
  rw [script]
  simpa only [bind_assoc, pure_bind] using hscript

/-- **A failing sink cuts a conversion short and does nothing else to it.**  If there is room for
all that an endless sink would hold, the sink holds it and the result is the same.  If there is
not, the sink is full of the front of it and the result is the sink's own refusal, whatever the
records behind the cut are like.  A refused flush turns a success into that refusal and leaves an
earlier failure as it is. -/
theorem run_on_failing_sink (options : Options) (records : List Record) :
    let endless := ({} : Sink).run (script options records)
    let bytes := endless.sink.stored.bytes
    (∀ (room : Nat) (whenFull : DeviceError),
      let run := ({ room := some room, whenFull } : Sink).run (script options records)
      (bytes.length ≤ room → run.result = endless.result ∧ run.sink.stored.bytes = bytes) ∧
      (room < bytes.length →
        run.result = .error (.device whenFull) ∧ run.sink.stored.bytes = bytes.take room)) ∧
    ∀ cause : DeviceError,
      let run := ({ whenFlushed := some cause } : Sink).run (script options records)
      run.sink.stored.bytes = bytes ∧
        run.result = match endless.result with
          | .ok _ => .error (.device cause)
          | .error error => .error error := by
  intro endless bytes
  have hscript := flushesLast_script options records
  have hendless : endless.result = (script options records).outcome :=
    (Sink.run_endless hscript).1
  have hbytes : bytes = (script options records).bytes := (Sink.run_endless hscript).2
  rw [hendless, hbytes]
  refine ⟨fun room whenFull => ⟨fun hle => ?_, fun hlt => ?_⟩, fun cause => ?_⟩
  · have hfits : Sink.Fits { room := some room, whenFull } (script options records).bytes.length :=
      fun other hother => by cases hother; exact hle
    obtain ⟨hcut, hkept⟩ := Sink.run_of_fits hscript hfits
    refine ⟨?_, hkept⟩
    rw [hcut]
    cases (script options records).outcome <;> rfl
  · exact Sink.run_of_not_fits hscript rfl hlt
  · have hfits : Sink.Fits { whenFlushed := some cause } (script options records).bytes.length :=
      fun other hother => by cases hother
    obtain ⟨hcut, hkept⟩ := Sink.run_of_fits hscript hfits
    refine ⟨hkept, ?_⟩
    rw [hcut]
    cases (script options records).outcome <;> rfl

end Conversion
end OpcodeTable
