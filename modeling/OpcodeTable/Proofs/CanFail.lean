import OpcodeTable.Proofs.Machine

/-!
# What an attempt can fail with

A program is answered by the machine it is run on, and devices may refuse at any time and for any
reason.  Here nothing is known of the answers: a program can return what it returns for some of
them.  So what is shown of an attempt that fails holds on every machine, and would hold on machines
whose devices break down in the middle.

## What is here

* `Program.CanReturn`, what a program can return, and `Machine.canReturn_run`, that whatever comes
  of a run is among it.
* `Attempt.CanFail`, what an attempt can fail with, and `Attempt.CanFail.of_bind` for attempts in
  two parts.
* `Attempt.CanFail.runScript`, by induction on the steps: a script on the output file fails for its
  own reason or because of that file.
* `Attempt.CanFail.readTable` and `Attempt.CanFail.checkTable`, the ways in which reading a table
  back fails.
-/

set_option autoImplicit false

namespace OpcodeTable

variable {α β : Type}

/-- A program can return a value if there are answers for which it does. -/
inductive Program.CanReturn : Program α → α → Prop
  | done (value : α) : CanReturn (.done value) value
  | note {event : Log.Event} {next : Program α} {value : α} (h : CanReturn next value) :
    CanReturn (.note event next) value
  | read {path : String} {next : Except DeviceError (List UInt8) → Program α} {value : α}
    (answer : Except DeviceError (List UInt8)) (h : CanReturn (next answer) value) :
    CanReturn (.read path next) value
  | create {stream : Stream} {path : String} {next : Except DeviceError Unit → Program α}
    {value : α} (answer : Except DeviceError Unit) (h : CanReturn (next answer) value) :
    CanReturn (.create stream path next) value
  | write {stream : Stream} {bytes : List UInt8} {next : Except DeviceError Unit → Program α}
    {value : α} (answer : Except DeviceError Unit) (h : CanReturn (next answer) value) :
    CanReturn (.write stream bytes next) value

/-- A machine gives some answers. -/
theorem Machine.canReturn_run (machine : Machine) (program : Program α) :
    program.CanReturn (machine.run program).1 := by
  induction program generalizing machine with
  | done value => exact .done value
  | note event rest ih => exact .note (ih _)
  | read path rest ih => exact .read _ (ih _ machine)
  | create stream path rest ih => exact .create _ (ih _ _)
  | write stream bytes rest ih => exact .write _ (ih _ _)

namespace Program.CanReturn

/-- What two programs in a row return is returned by the second one. -/
theorem of_bind {program : Program α} {next : α → Program β} {value : β}
    (h : (program.bind next).CanReturn value) :
    ∃ first, program.CanReturn first ∧ (next first).CanReturn value := by
  induction program with
  | done first => exact ⟨first, .done first, h⟩
  | note event rest ih =>
    cases h with
    | note h =>
      obtain ⟨first, hfirst, hnext⟩ := ih h
      exact ⟨first, .note hfirst, hnext⟩
  | read path rest ih =>
    cases h with
    | read answer h =>
      obtain ⟨first, hfirst, hnext⟩ := ih answer h
      exact ⟨first, .read answer hfirst, hnext⟩
  | create stream path rest ih =>
    cases h with
    | create answer h =>
      obtain ⟨first, hfirst, hnext⟩ := ih answer h
      exact ⟨first, .create answer hfirst, hnext⟩
  | write stream bytes rest ih =>
    cases h with
    | write answer h =>
      obtain ⟨first, hfirst, hnext⟩ := ih answer h
      exact ⟨first, .write answer hfirst, hnext⟩

/-- Putting bytes down is answered, too. -/
theorem of_put {bytes : List UInt8} {next : Except DeviceError Unit → Program α} {value : α}
    (h : (put bytes next).CanReturn value) : ∃ answer, (next answer).CanReturn value := by
  rw [put] at h
  split at h
  · exact ⟨_, h⟩
  · cases h with
    | write answer h => exact ⟨answer, h⟩

/-- Steps on the output end as they should, or a device refuses. -/
theorem of_perform {outcome : Except Error α} {held : Buffer} {steps : List Step}
    {result : Except Error α} (h : (perform outcome held steps).CanReturn result) :
    result = outcome ∨ ∃ cause, result = .error (.device cause) := by
  -- what is held back is put down again before a refusal is reported, with no look at the answer
  have hrefused : ∀ {bytes : List UInt8} {cause : DeviceError},
      (put bytes fun _ => Program.done (.error (.device cause))).CanReturn result →
      ∃ cause, result = .error (.device cause) := by
    intro bytes cause h
    obtain ⟨answer, h⟩ := of_put h
    cases h
    exact ⟨cause, rfl⟩
  induction steps generalizing held with
  | nil =>
    rw [perform] at h
    obtain ⟨answer, h⟩ := of_put h
    cases h
    exact .inl rfl
  | cons step rest ih =>
    cases step with
    | note event =>
      cases h with
      | note h => exact ih h
    | flush =>
      rw [perform] at h
      obtain ⟨answer, h⟩ := of_put h
      cases answer with
      | error cause => exact .inr (hrefused h)
      | ok done => exact ih h
    | emit text =>
      rw [perform] at h
      split at h
      · exact ih h
      · obtain ⟨answer, h⟩ := of_put h
        cases answer with
        | error cause => exact .inr (hrefused h)
        | ok done =>
          dsimp only at h
          split at h
          · exact ih h
          · obtain ⟨answer, h⟩ := of_put h
            cases answer with
            | error cause =>
              cases h
              exact .inr ⟨cause, rfl⟩
            | ok done => exact ih h

end Program.CanReturn

/-- A text that is no table is malformed, or it has an entry that is no object. -/
theorem Table.error_of_parse {text : String} {error : Error} (h : parse text = .error error) :
    (∃ fault, error = .malformed fault) ∨ ∃ key, error = .entryNotObject key := by
  rw [parse] at h
  split at h
  · next fault hfault =>
    cases h
    exact .inl ⟨fault, rfl⟩
  · split at h
    · next key hkey =>
      cases h
      exact .inr ⟨key, rfl⟩
    · cases h

namespace Attempt

/-- An attempt can fail with an error. -/
def CanFail (attempt : Attempt α) (error : Error) : Prop :=
  attempt.run.CanReturn (.error error)

namespace CanFail

variable {path : String} {error : Error}

/-- An attempt in two parts fails with one of them. -/
theorem of_bind {first : Attempt α} {next : α → Attempt β} (h : (first >>= next).CanFail error) :
    first.CanFail error ∨ ∃ value, (next value).CanFail error := by
  have hrun : (Program.bind first.run (ExceptT.bindCont next)).CanReturn (.error error) := h
  obtain ⟨result, hresult, h⟩ := hrun.of_bind
  cases result with
  | error other =>
    cases h
    exact .inl hresult
  | ok value => exact .inr ⟨value, h⟩

/-- A line of the log is always taken. -/
theorem say {event : Log.Event} : ¬(Attempt.say event).CanFail error := by
  rintro (_ | h)
  cases h

theorem done {value : α} : ¬CanFail (pure value) error := by
  intro h
  cases h

theorem readText (h : (Attempt.readText path).CanFail error) :
    ∃ cause, error = .file path cause := by
  cases h with
  | read answer h =>
    cases answer with
    | error cause =>
      cases h
      exact ⟨cause, rfl⟩
    | ok bytes =>
      dsimp only at h
      split at h
      · cases h
        exact ⟨.invalidUtf8, rfl⟩
      · cases h

theorem createOutput (h : (Attempt.createOutput path).CanFail error) :
    ∃ cause, error = .file path cause := by
  cases h with
  | create answer h =>
    cases answer with
    | error cause =>
      cases h
      exact ⟨cause, rfl⟩
    | ok done => cases h

/-- A script on the output file fails with an error of its own or because of the file. -/
theorem runScript {script : Script α} (h : (Attempt.runScript path script).CanFail error) :
    (∃ cause, error = .file path cause) ∨
      ∃ own, script.outcome = .error own ∧ error = own.onFile path := by
  obtain ⟨result, hresult, h⟩ := Program.CanReturn.of_bind h
  cases result with
  | ok value => cases h
  | error other =>
    cases h
    rcases Program.CanReturn.of_perform hresult with howner | ⟨cause, hcause⟩
    · exact .inr ⟨other, howner.symm, rfl⟩
    · cases hcause
      exact .inl ⟨cause, rfl⟩

/-- What is known before a run fails as it does. -/
theorem lift {result : Except Error α} (h : CanFail (liftM result) error) :
    result = .error error := by
  cases result with
  | error other =>
    cases h
    rfl
  | ok value => cases h

/-- The ways in which reading a table can fail. -/
theorem readTable (h : (Attempt.readTable path).CanFail error) :
    (∃ cause, error = .file path cause) ∨ (∃ fault, error = .malformed fault) ∨
      ∃ key, error = .entryNotObject key := by
  rcases of_bind h with h | ⟨text, h⟩
  · exact .inl (readText h)
  · exact .inr (Table.error_of_parse (lift h))

/-- The ways in which checking one can fail. -/
theorem checkTable {expected : Nat} (h : (Attempt.checkTable path expected).CanFail error) :
    (∃ cause, error = .file path cause) ∨ (∃ fault, error = .malformed fault) ∨
      (∃ key, error = .entryNotObject key) ∨ ∃ found, error = .wrongCount expected found := by
  rcases of_bind h with h | ⟨table, h⟩
  · rcases readTable h with h | h | h
    · exact .inl h
    · exact .inr (.inl h)
    · exact .inr (.inr (.inl h))
  · refine .inr (.inr (.inr ?_))
    dsimp only at h
    split at h
    · cases h
      exact ⟨table.size, rfl⟩
    · rcases of_bind h with h | ⟨_, h⟩
      · exact absurd h say
      · exact absurd h done

end CanFail
end Attempt
end OpcodeTable
