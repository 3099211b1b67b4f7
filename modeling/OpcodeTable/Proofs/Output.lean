import OpcodeTable.Machine
import OpcodeTable.Proofs.FileSystem
import OpcodeTable.Proofs.Script

/-!
# What a script leaves in the output file

A program does not write its output piece by piece but holds some of it back.  What is held back
and what is in the file already are, one behind the other, what the script has written so far, and
whichever way the script ends, in a success or in a failure, nothing stays held back.  So a file
that takes all that is written to it holds the bytes of the script in the end.

## What is here

* `Machine.Outputs`, which says what the output file holds, and `Machine.Outputs.run_put`, by which
  a write adds to it.
* `Machine.Outputs.run_perform`, by induction on the steps of a script, for any bytes held back.
* `Machine.Outputs.run_ofScript` for a script as a whole.
-/

set_option autoImplicit false

namespace OpcodeTable
namespace Machine

/-- The output file is at this location, it has been written up to the last of these bytes, and the
file system is otherwise as it was. -/
structure Outputs (machine : Machine) (before : FileSystem) (location : Location)
    (bytes : List UInt8) : Prop where
  files : machine.files = before.put location (.file bytes)
  output : machine.output = some ⟨location, bytes.length⟩

variable {α : Type} {machine : Machine} {before : FileSystem} {location : Location}
  {written : List UInt8}

/-- A line of the log is no output. -/
theorem Outputs.note (h : machine.Outputs before location written) (event : Log.Event) :
    Outputs { machine with journal := event :: machine.journal } before location written :=
  ⟨h.files, h.output⟩

/-- Bytes are put behind those that have been written. -/
theorem Outputs.run_put (h : machine.Outputs before location written) (bytes : List UInt8)
    (next : Except DeviceError Unit → Program α) :
    ∃ after : Machine, after.Outputs before location (written ++ bytes) ∧
      machine.run (Program.put bytes next) = after.run (next (.ok ())) := by
  by_cases hnone : bytes = []
  · refine ⟨machine, by rwa [hnone, List.append_nil], ?_⟩
    rw [Program.put, if_pos hnone]
  · let after : Machine :=
      { machine with
        files := before.put location (.file (written ++ bytes))
        output := some ⟨location, written.length + bytes.length⟩ }
    have hwrite : machine.write .output bytes = (.ok (), after) := by
      have hend := FileSystem.write_end (before.node_put_self location (.file written)) bytes
      rw [FileSystem.put_put] at hend
      simp only [write, writeFile, h.output, h.files, hend]
      rfl
    refine ⟨after, ⟨rfl, by rw [List.length_append]⟩, ?_⟩
    rw [Program.put, if_neg hnone, run, hwrite]

/-- What is held back goes first, and then what the steps write. -/
theorem Outputs.run_perform (h : machine.Outputs before location written)
    (outcome : Except Error α) (held : Buffer) (steps : List Step) :
    ∃ after : Machine, after.Outputs before location
        (written ++ held.bytes ++ steps.flatMap Step.bytes) ∧
      machine.run (Program.perform outcome held steps) = (outcome, after) := by
  -- neither what is in the file nor what is held back is fixed: a step moves bytes between them
  induction steps generalizing machine written held with
  | nil =>
    obtain ⟨after, hafter, hrun⟩ := h.run_put held.bytes fun _ => .done outcome
    refine ⟨after, ?_, hrun⟩
    rwa [List.flatMap_nil, List.append_nil]
  | cons step rest ih =>
    rw [List.flatMap_cons]
    cases step with
    | note event =>
      obtain ⟨after, hafter, hrun⟩ := ih (h.note event) held
      exact ⟨after, hafter, hrun⟩
    | flush =>
      obtain ⟨middle, hmiddle, hput⟩ := h.run_put held.bytes _
      obtain ⟨after, hafter, hrun⟩ := ih hmiddle {}
      refine ⟨after, ?_, hput.trans hrun⟩
      rwa [Buffer.bytes_empty, List.append_nil] at hafter
    | emit text =>
      have hsplit : written ++ held.bytes ++ (textBytes text ++ rest.flatMap Step.bytes) =
          written ++ (held.bytes ++ textBytes text) ++ rest.flatMap Step.bytes := by
        simp only [List.append_assoc]
      rw [Step.bytes, hsplit, Program.perform]
      split
      · obtain ⟨after, hafter, hrun⟩ := ih h (held.add (textBytes text))
        rw [Buffer.bytes_add] at hafter
        exact ⟨after, hafter, hrun⟩
      · obtain ⟨middle, hmiddle, hput⟩ := h.run_put held.bytes _
        rw [hput]
        dsimp only
        split
        · obtain ⟨after, hafter, hrun⟩ := ih hmiddle (.ofBytes (textBytes text))
          rw [Buffer.bytes_ofBytes, List.append_assoc written] at hafter
          exact ⟨after, hafter, hrun⟩
        · obtain ⟨next, hnext, hputText⟩ := hmiddle.run_put (textBytes text) _
          rw [hputText]
          obtain ⟨after, hafter, hrun⟩ := ih hnext {}
          rw [Buffer.bytes_empty, List.append_nil, List.append_assoc written] at hafter
          exact ⟨after, hafter, hrun⟩

/-- A script is run to its end, and all that it writes gets into the file. -/
theorem Outputs.run_ofScript (h : machine.Outputs before location written) (script : Script α) :
    ∃ after : Machine, after.Outputs before location (written ++ script.bytes) ∧
      machine.run (Program.ofScript script) = (script.outcome, after) := by
  obtain ⟨after, hafter, hrun⟩ := h.run_perform script.outcome {} script.steps
  rw [Buffer.bytes_empty, List.append_nil] at hafter
  exact ⟨after, hafter, hrun⟩

end Machine
end OpcodeTable
