import OpcodeTable.Proofs.Script
import OpcodeTable.Sink

/-!
# Running scripts on sinks that may refuse

How much of a script a sink takes in is a matter of numbers only.  While what is written fits, every
step but a flush succeeds and the sink keeps the bytes; at the first byte that does not fit the
run ends with the sink's own refusal, and the sink keeps exactly as many bytes as it has room for,
wherever in a step that byte stands.

## What is here

* `Sink.perform_append_of_fits` and `Sink.perform_append_of_not_fits` say this of lists of steps,
  by induction from what one step does (`Sink.take_of_fits`, `Sink.take_of_not_fits`).
* `Sink.run_of_fits` and `Sink.run_of_not_fits` say it of scripts that flush last, and
  `Sink.run_endless` what a sink that never refuses makes of them.
* `Sink.refused?` tells at which step a run was refused.
-/

set_option autoImplicit false

namespace OpcodeTable
namespace Sink

variable {α : Type} {sink : Sink}

/-- The sink has room for so many bytes. -/
def Fits (sink : Sink) (size : Nat) : Prop :=
  ∀ room, sink.room = some room → size ≤ room

/-- The sink with bytes taken in, all of which fit. -/
def keep (sink : Sink) (bytes : List UInt8) : Sink :=
  { sink with stored := sink.stored.add bytes, room := sink.room.map (· - bytes.length) }

@[simp] theorem bytes_keep (sink : Sink) (bytes : List UInt8) :
    (sink.keep bytes).stored.bytes = sink.stored.bytes ++ bytes :=
  Buffer.bytes_add _ _

@[simp] theorem flush_keep (sink : Sink) (bytes : List UInt8) :
    (sink.keep bytes).flush = sink.flush := rfl

@[simp] theorem keep_nil (sink : Sink) : sink.keep [] = sink := by
  have hroom : sink.room.map (· - 0) = sink.room := by simp
  rw [keep, List.length_nil, hroom]
  rfl

theorem keep_keep (sink : Sink) (first second : List UInt8) :
    (sink.keep first).keep second = sink.keep (first ++ second) := by
  simp [keep, Buffer.add, Option.map_map, Function.comp_def, Nat.sub_sub]

theorem Fits.of_append {first second : List UInt8} (h : sink.Fits (first ++ second).length) :
    sink.Fits first.length ∧ (sink.keep first).Fits second.length := by
  refine ⟨fun room hroom => ?_, fun room hroom => ?_⟩
  · have := h room hroom
    rw [List.length_append] at this
    omega
  · obtain ⟨before, hbefore, rfl⟩ := Option.map_eq_some_iff.1 hroom
    have := h before hbefore
    rw [List.length_append] at this
    omega

/-! ## One step -/

/-- A step that fits is taken in as a whole. -/
theorem take_of_fits {step : Step} (hstep : step ≠ .flush) (h : sink.Fits step.bytes.length) :
    sink.take step = (.ok (), sink.keep step.bytes) := by
  cases step with
  | note event => rw [take, Step.bytes, keep_nil]
  | flush => exact absurd rfl hstep
  | emit text =>
    rw [take, write, Step.bytes, keep]
    cases hroom : sink.room with
    | none => rfl
    | some room =>
      have hle : (textBytes text).length ≤ room := h room hroom
      simp [hle, List.take_of_length_le hle]

/-- Of a step that does not fit, the front that does fit is taken in. -/
theorem take_of_not_fits {step : Step} {room : Nat} (hroom : sink.room = some room)
    (h : room < step.bytes.length) :
    ∃ after, sink.take step = (.error sink.whenFull, after) ∧
      after.stored.bytes = sink.stored.bytes ++ step.bytes.take room := by
  cases step with
  | note event => exact absurd h (Nat.not_lt_zero room)
  | flush => exact absurd h (Nat.not_lt_zero room)
  | emit text =>
    rw [Step.bytes] at h ⊢
    simp only [take, write, hroom, if_neg (Nat.not_le.2 h)]
    exact ⟨_, rfl, Buffer.bytes_add _ _⟩

/-! ## Many steps -/

/-- The step at which a run ends because the sink refuses it, if there is one. -/
def refused? (sink : Sink) : List Step → Option Step
  | [] => none
  | step :: rest =>
    match sink.take step with
    | (.error _, _) => some step
    | (.ok (), after) => refused? after rest

variable {outcome : Except Error α} {steps : List Step}

/-- Steps that fit are taken in, and the run goes on with what follows them. -/
theorem perform_append_of_fits (outcome : Except Error α) (hsteps : .flush ∉ steps)
    (h : sink.Fits (steps.flatMap Step.bytes).length) (rest : List Step) :
    let after := sink.keep (steps.flatMap Step.bytes)
    (sink.perform outcome (steps ++ rest)).result = (after.perform outcome rest).result ∧
      (sink.perform outcome (steps ++ rest)).sink = (after.perform outcome rest).sink ∧
      sink.refused? (steps ++ rest) = after.refused? rest := by
  induction steps generalizing sink with
  | nil => simp
  | cons step steps ih =>
    rw [List.mem_cons, not_or] at hsteps
    rw [List.flatMap_cons] at h ⊢
    obtain ⟨hfirst, hothers⟩ := h.of_append
    have htake := take_of_fits (Ne.symm hsteps.1) hfirst
    have hrest := ih hsteps.2 hothers
    rw [keep_keep] at hrest
    simpa only [List.cons_append, perform, refused?, htake] using hrest

/-- Steps that do not fit end the run with the sink's refusal, once there is no room left. -/
theorem perform_append_of_not_fits (hsteps : .flush ∉ steps) {room : Nat}
    (hroom : sink.room = some room) (h : room < (steps.flatMap Step.bytes).length)
    (rest : List Step) :
    (sink.perform outcome (steps ++ rest)).result = .error (.device sink.whenFull) ∧
      (sink.perform outcome (steps ++ rest)).sink.stored.bytes =
        sink.stored.bytes ++ (steps.flatMap Step.bytes).take room := by
  induction steps generalizing sink room with
  | nil => exact absurd h (Nat.not_lt_zero room)
  | cons step steps ih =>
    rw [List.mem_cons, not_or] at hsteps
    rw [List.flatMap_cons] at h ⊢
    rcases Nat.lt_or_ge room step.bytes.length with hlt | hle
    · obtain ⟨after, htake, hafter⟩ := take_of_not_fits hroom hlt
      rw [List.cons_append, perform, htake, List.take_append_of_le_length (Nat.le_of_lt hlt)]
      exact ⟨rfl, hafter⟩
    · have hfits : sink.Fits step.bytes.length := by
        intro room' hroom'
        rw [hroom, Option.some_inj] at hroom'
        omega
      have htake := take_of_fits (Ne.symm hsteps.1) hfits
      have hkeep : (sink.keep step.bytes).room = some (room - step.bytes.length) := by
        simp [keep, hroom]
      obtain ⟨hresult, hstored⟩ := ih hsteps.2 hkeep (by rw [List.length_append] at h; omega)
      rw [List.cons_append, perform, htake, List.take_append, List.take_of_length_le hle]
      rw [bytes_keep, List.append_assoc] at hstored
      exact ⟨hresult, hstored⟩

/-! ## Scripts -/

/-- What comes of a script that was taken in as a whole: a success needs the flush as well. -/
def settle (sink : Sink) : Except Error α → Except Error α
  | .error error => .error error
  | .ok value =>
    match sink.flush with
    | .error cause => .error (.device cause)
    | .ok () => .ok value

variable {script : Script α}

theorem run_of_fits (hscript : script.FlushesLast) (h : sink.Fits script.bytes.length) :
    (sink.run script).result = sink.settle script.outcome ∧
      (sink.run script).sink.stored.bytes = sink.stored.bytes ++ script.bytes := by
  obtain ⟨steps, hsteps, heq⟩ := hscript
  rw [Script.FlushesLast.bytes_eq heq] at h ⊢
  obtain ⟨hresult, hsink, -⟩ := perform_append_of_fits script.outcome hsteps h
    (Script.flushAfter script.outcome)
  rw [run, heq, hresult, hsink]
  cases script.outcome with
  | error error => simp [Script.flushAfter, perform, settle]
  | ok value =>
    simp only [Script.flushAfter, perform, take, flush_keep, settle]
    cases sink.flush with
    | error cause => simp
    | ok done => simp

theorem run_of_not_fits (hscript : script.FlushesLast) {room : Nat}
    (hroom : sink.room = some room) (h : room < script.bytes.length) :
    (sink.run script).result = .error (.device sink.whenFull) ∧
      (sink.run script).sink.stored.bytes = sink.stored.bytes ++ script.bytes.take room := by
  obtain ⟨steps, hsteps, heq⟩ := hscript
  rw [Script.FlushesLast.bytes_eq heq] at h ⊢
  rw [run, heq]
  exact perform_append_of_not_fits hsteps hroom h _

/-- If it was taken in as a whole and would have succeeded, it can only be the flush that is
refused. -/
theorem refused?_of_fits (hscript : script.FlushesLast) (h : sink.Fits script.bytes.length)
    {value : α} (hvalue : script.outcome = .ok value) {cause : DeviceError}
    (hflush : sink.flush = .error cause) : sink.refused? script.steps = some .flush := by
  obtain ⟨steps, hsteps, heq⟩ := hscript
  rw [Script.FlushesLast.bytes_eq heq] at h
  obtain ⟨-, -, hrefused⟩ := perform_append_of_fits script.outcome hsteps h
    (Script.flushAfter script.outcome)
  rw [heq, hrefused, hvalue]
  simp only [Script.flushAfter, refused?, take, flush_keep, hflush]

/-- An endless sink lets a script through as it is. -/
theorem run_endless (hscript : script.FlushesLast) :
    (({} : Sink).run script).result = script.outcome ∧
      (({} : Sink).run script).sink.stored.bytes = script.bytes := by
  have hfits : Fits {} script.bytes.length := fun room hroom => by cases hroom
  obtain ⟨hresult, hstored⟩ := run_of_fits hscript hfits
  refine ⟨?_, hstored⟩
  rw [hresult]
  cases script.outcome <;> rfl

end Sink
end OpcodeTable
