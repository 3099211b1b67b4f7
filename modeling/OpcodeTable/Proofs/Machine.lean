import OpcodeTable.Job
import OpcodeTable.Machine

/-!
# What comes of attempts on a machine

An attempt is run step by step, but what comes of it can be put together from what comes of its
parts: the second part is run on the machine that the first one leaves behind, unless that one
fails.

## What is here

* `Machine.run_bind` for programs, by induction on the exchanges, and `Machine.run_bind_of_ok` and
  `Machine.run_bind_of_error` for attempts.
* `FileSystem.textAt`, the text that a file holds, and `Machine.run_readText`, that it is what is
  read of the file.
* `Machine.run_readTable_of_text` and `Machine.run_readTable_of_bytes`, what reading a table from
  its file comes to.
* `Machine.run_checkTable_of_text` and `Machine.run_checkTable_of_error`, what checking one comes to.
-/

set_option autoImplicit false

namespace OpcodeTable

/-- The text of the file that a path names. -/
def FileSystem.textAt (fs : FileSystem) (path : String) : Except Error String :=
  match fs.read path with
  | .error cause => .error (.file path cause)
  | .ok bytes =>
    match textOfBytes? bytes with
    | none => .error (.file path .invalidUtf8)
    | some text => .ok text

namespace Machine

variable {α β : Type}

theorem run_bind (machine : Machine) (program : Program α) (next : α → Program β) :
    machine.run (program.bind next) =
      (machine.run program).2.run (next (machine.run program).1) := by
  -- each exchange leaves a machine behind, and the rest of the program starts from that one
  induction program generalizing machine with
  | done value => rfl
  | note event rest ih => exact ih _
  | read path rest ih => exact ih _ machine
  | create stream path rest ih => exact ih _ _
  | write stream bytes rest ih => exact ih _ _

/-- An attempt goes on from where its first part has succeeded. -/
theorem run_bind_of_ok {machine after : Machine} {first : Attempt α} {value : α}
    (h : machine.run first.run = (.ok value, after)) (next : α → Attempt β) :
    machine.run (first >>= next).run = after.run (next value).run := by
  change machine.run (Program.bind first.run (ExceptT.bindCont next)) = _
  rw [run_bind, h]
  rfl

/-- It fails with its first part. -/
theorem run_bind_of_error {machine after : Machine} {first : Attempt α} {error : Error}
    (h : machine.run first.run = (.error error, after)) (next : α → Attempt β) :
    machine.run (first >>= next).run = (.error error, after) := by
  change machine.run (Program.bind first.run (ExceptT.bindCont next)) = _
  rw [run_bind, h]
  rfl

/-- A line of the log is all that a note leaves. -/
theorem run_say (machine : Machine) (event : Log.Event) :
    machine.run (Attempt.say event).run =
      (.ok (), { machine with journal := event :: machine.journal }) :=
  rfl

/-! ## Reading a text -/

theorem run_readText (machine : Machine) (path : String) :
    machine.run (Attempt.readText path).run = (machine.files.textAt path, machine) := by
  change machine.run (.read path _) = _
  rw [run, FileSystem.textAt]
  cases machine.files.read path with
  | error cause => rfl
  | ok bytes => cases h : textOfBytes? bytes <;> simp only [h, run]

/-! ## Reading a table -/

/-- A file that holds a text is read as the table that the text is. -/
theorem run_readTable_of_text {machine : Machine} {path text : String} {bytes : List UInt8}
    (hread : machine.files.read path = .ok bytes) (htext : textOfBytes? bytes = some text) :
    machine.run (Attempt.readTable path).run = (Table.parse text, machine) := by
  have hfirst := machine.run_readText path
  simp only [FileSystem.textAt, hread, htext] at hfirst
  rw [Attempt.readTable, run_bind_of_ok hfirst]
  rfl

/-- A file that holds no text is not read. -/
theorem run_readTable_of_bytes {machine : Machine} {path : String} {bytes : List UInt8}
    (hread : machine.files.read path = .ok bytes) (hbytes : textOfBytes? bytes = none) :
    machine.run (Attempt.readTable path).run = (.error (.file path .invalidUtf8), machine) := by
  refine run_bind_of_error ?_ _
  change machine.run (.read path _) = _
  simp only [run, hread, hbytes]

/-- A file that holds the text of a table passes the check for as many entries as there are. -/
theorem run_checkTable_of_text {machine : Machine} {path text : String} {bytes : List UInt8}
    {table : Table} (hread : machine.files.read path = .ok bytes)
    (htext : textOfBytes? bytes = some text) (hparse : Table.parse text = .ok table) :
    ∃ after : Machine, after.files = machine.files ∧
      machine.run (Attempt.checkTable path table.size).run = (.ok table, after) := by
  have htable := run_readTable_of_text hread htext
  rw [hparse] at htable
  rw [Attempt.checkTable, run_bind_of_ok htable]
  dsimp only
  rw [if_neg (not_not_intro rfl)]
  exact ⟨_, by rfl, run_bind_of_ok (machine.run_say _) _⟩

/-- A table that is not read is not checked either. -/
theorem run_checkTable_of_error {machine after : Machine} {path : String} {error : Error}
    (h : machine.run (Attempt.readTable path).run = (.error error, after)) (expected : Nat) :
    machine.run (Attempt.checkTable path expected).run = (.error error, after) :=
  run_bind_of_error h _

end Machine
end OpcodeTable
