import OpcodeTable.Proofs.HiddenFile
import OpcodeTable.Proofs.Machine

/-!
# Showing the log changes nothing else

A program whose log is shown is run beside the same program whose log is not.  The machine of the
first run follows that of the second one: they are the same but for where the log goes to, the
standard error stream or a file of its own.  Every exchange of the program is then answered alike
in both runs, so the two take the same course, and the lines that the second run adds to its
journal are those that the first one shows.

## What is here

* `Program.Works`, the exchanges of a program that does its work with some files and leaves the
  standard streams and the log alone, and `Job.works` for a job.
* `Program.logged_bind`, by which the log of a sequence is shown part by part.
* `Machine.Shows`, what is shown so far, and `Machine.Follows`, the invariant, with a lemma for each
  exchange.
* `Machine.Follows.run_logged`, by induction on the exchanges, for a run.
-/

set_option autoImplicit false

namespace OpcodeTable

/-! ## Programs that leave the log alone -/

namespace Program

variable {α β : Type} {paths : List String}

/-- The program reads and creates files at these paths only, and writes to the output only. -/
def Works (paths : List String) : Program α → Prop
  | .done _ => True
  | .note _ next => next.Works paths
  | .read path next => path ∈ paths ∧ ∀ answer, (next answer).Works paths
  | .create stream path next =>
    stream = .output ∧ path ∈ paths ∧ ∀ answer, (next answer).Works paths
  | .write stream _ next => stream = .output ∧ ∀ answer, (next answer).Works paths

theorem Works.bind {program : Program α} (h : program.Works paths) {next : α → Program β}
    (hnext : ∀ value, (next value).Works paths) : (program.bind next).Works paths := by
  induction program with
  | done value => exact hnext value
  | note event rest ih => exact ih h
  | read path rest ih => exact ⟨h.1, fun answer => ih answer (h.2 answer)⟩
  | create stream path rest ih => exact ⟨h.1, h.2.1, fun answer => ih answer (h.2.2 answer)⟩
  | write stream bytes rest ih => exact ⟨h.1, fun answer => ih answer (h.2 answer)⟩

theorem works_put (bytes : List UInt8) {next : Except DeviceError Unit → Program α}
    (h : ∀ answer, (next answer).Works paths) : (put bytes next).Works paths := by
  rw [put]
  split
  · exact h _
  · exact ⟨rfl, h⟩

theorem works_perform (outcome : Except Error α) (held : Buffer) (steps : List Step) :
    (perform outcome held steps).Works paths := by
  induction steps generalizing held with
  | nil => exact works_put _ fun _ => trivial
  | cons step rest ih =>
    cases step with
    | note event => exact ih held
    | flush =>
      refine works_put _ fun answer => ?_
      cases answer with
      | error cause => exact works_put _ fun _ => trivial
      | ok done => exact ih {}
    | emit text =>
      rw [perform]
      split
      · exact ih _
      · refine works_put _ fun answer => ?_
        cases answer with
        | error cause => exact works_put _ fun _ => trivial
        | ok done =>
          dsimp only
          split
          · exact ih _
          · refine works_put _ fun answer => ?_
            cases answer with
            | error cause => trivial
            | ok done => exact ih {}

/-- The log of a sequence is the log of its parts. -/
theorem logged_bind (shows : Log.Event → Option String) (stream : Stream) (program : Program α)
    (next : α → Program β) :
    (program.bind next).logged shows stream =
      (program.logged shows stream).bind fun value => (next value).logged shows stream := by
  induction program with
  | done value => rfl
  | note event rest ih =>
    rw [bind, logged, logged]
    cases shows event with
    | none => exact ih
    | some text => exact congrArg _ (funext fun _ => ih)
  | read path rest ih => exact congrArg _ (funext ih)
  | create target path rest ih => exact congrArg _ (funext ih)
  | write target bytes rest ih => exact congrArg _ (funext ih)

end Program

namespace Attempt

variable {α β : Type} {paths : List String}

theorem works_bind {first : Attempt α} (h : first.run.Works paths) {next : α → Attempt β}
    (hnext : ∀ value, (next value).run.Works paths) : (first >>= next).run.Works paths := by
  change (Program.bind first.run (ExceptT.bindCont next)).Works paths
  refine h.bind fun result => ?_
  cases result with
  | error error => trivial
  | ok value => exact hnext value

theorem works_say (event : Log.Event) : (say event).run.Works paths :=
  trivial

theorem works_readText {path : String} (h : path ∈ paths) : (readText path).run.Works paths := by
  refine ⟨h, fun answer => ?_⟩
  cases answer with
  | error cause => trivial
  | ok bytes =>
    dsimp only
    split <;> trivial

theorem works_readRecords {path : String} (h : path ∈ paths) :
    (readRecords path).run.Works paths := by
  refine works_bind (works_say _) fun _ => works_bind (works_readText h) fun text => ?_
  cases Record.parse text <;> trivial

theorem works_createOutput {path : String} (h : path ∈ paths) :
    (createOutput path).run.Works paths := by
  refine ⟨rfl, h, fun answer => ?_⟩
  cases answer <;> trivial

theorem works_runScript (path : String) (script : Script α) :
    (runScript path script).run.Works paths := by
  refine (Program.works_perform _ _ _).bind fun result => ?_
  cases result <;> trivial

theorem works_convert {input output : String} (hinput : input ∈ paths) (houtput : output ∈ paths)
    (options : Options) : (convert input output options).run.Works paths := by
  refine works_bind (works_readRecords hinput) fun records => works_bind (works_say _) fun _ => ?_
  refine works_bind (works_createOutput houtput) fun _ => ?_
  refine works_bind (works_runScript output _) fun summary => ?_
  exact works_bind (works_say _) fun _ => trivial

theorem works_checkTable {path : String} (h : path ∈ paths) (expected : Nat) :
    (checkTable path expected).run.Works paths := by
  have hread : (readTable path).run.Works paths := by
    refine works_bind (works_readText h) fun text => ?_
    cases Table.parse text <;> trivial
  refine works_bind hread fun table => ?_
  dsimp only
  split
  · trivial
  · exact works_bind (works_say _) fun _ => trivial

end Attempt

/-- A job does its work with its input and its output. -/
theorem Job.works (job : Job) : job.run.run.Works [job.input, job.output] := by
  refine Attempt.works_bind (Attempt.works_convert (by simp) (by simp) _) fun summary => ?_
  dsimp only
  split
  · exact Attempt.works_bind (Attempt.works_checkTable (by simp) _) fun _ => trivial
  · trivial

/-! ## A machine that shows the log beside one that does not -/

namespace Machine

variable {α : Type} {shown plain : Machine} {shows : Log.Event → Option String}
  {file : Option Location} {printed lines last : List UInt8}

/-- The bytes of the lines that are shown of these events. -/
def shownBytes (shows : Log.Event → Option String) (events : List Log.Event) : List UInt8 :=
  (events.filterMap shows).flatMap textBytes

/-- The stream on which the log is shown, with or without a file of its own. -/
def logStream : Option Location → Stream
  | none => .standardError
  | some _ => .log

/-- The lines are what has been shown of the log so far, on the standard error stream between what
was printed there before and what was printed last, or in the file at the location.  A device keeps
nothing. -/
def Shows (machine : Machine) (printed lines last : List UInt8) : Option Location → Prop
  | none => machine.standardError.bytes = printed ++ lines ++ last
  | some location =>
    machine.standardError.bytes = printed ++ last ∧
      ∃ offset, machine.log = some ⟨location, offset⟩ ∧
        (machine.files.node location = some (.file lines) ∧ offset = lines.length ∨
          machine.files.IsDevice location)

/-- The first machine has shown what there is to be shown of the second one's log, and nothing else
tells the two apart. -/
structure Follows (shown plain : Machine) (shows : Log.Event → Option String)
    (file : Option Location) (printed last : List UInt8) : Prop where
  files : plain.files.SameBut shown.files file
  output : shown.output = plain.output
  apart (handle : Handle) : plain.output = some handle → file ≠ some handle.location
  log : shown.Shows printed (shownBytes shows plain.events) last file

theorem Shows.of_eq {machine after : Machine} (h : machine.Shows printed lines last file)
    (hlog : after.log = machine.log) (herror : after.standardError = machine.standardError)
    (hnode : ∀ location, file = some location →
      after.files.node location = machine.files.node location) :
    after.Shows printed lines last file := by
  cases file with
  | none =>
    rw [Shows, herror]
    exact h
  | some location =>
    rw [Shows, herror, hlog, FileSystem.IsDevice, hnode location rfl]
    exact h

theorem run_create (machine : Machine) (stream : Stream) (path : String)
    (next : Except DeviceError Unit → Program α) :
    machine.run (.create stream path next) =
      (machine.create stream path).2.run (next (machine.create stream path).1) :=
  rfl

theorem run_write (machine : Machine) (stream : Stream) (bytes : List UInt8)
    (next : Except DeviceError Unit → Program α) :
    machine.run (.write stream bytes next) =
      (machine.write stream bytes).2.run (next (machine.write stream bytes).1) :=
  rfl

theorem bytes_write_standardError (machine : Machine) (bytes : List UInt8) :
    (machine.write .standardError bytes).2.standardError.bytes =
      machine.standardError.bytes ++ bytes :=
  Buffer.bytes_add ..

/-- One more line is shown.  On the standard error stream nothing may have been printed behind the
lines yet. -/
theorem Shows.write {machine : Machine} (h : machine.Shows printed lines last file)
    (hlast : file = none → last = []) (bytes : List UInt8) :
    (machine.write (logStream file) bytes).2.Shows printed (lines ++ bytes) last file := by
  cases file with
  | none =>
    rw [Shows, logStream, bytes_write_standardError, h, hlast rfl]
    simp only [List.append_nil, List.append_assoc]
  | some location =>
    obtain ⟨hprinted, offset, hlog, hkept⟩ := h
    rw [logStream, Machine.write, hlog, writeFile]
    obtain ⟨hnode, rfl⟩ | hnull | hfull := hkept
    · rw [FileSystem.write_end hnode]
      refine ⟨hprinted, _, rfl, .inl ⟨FileSystem.node_put_self .., ?_⟩⟩
      rw [List.length_append]
    · simp only [FileSystem.write, hnull]
      exact ⟨hprinted, _, rfl, .inr (.inl hnull)⟩
    · simp only [FileSystem.write, hfull]
      exact ⟨hprinted, offset, hlog, .inr (.inr hfull)⟩

theorem changed_writeFile (machine : Machine) (stream : Stream) (handle : Handle)
    (bytes : List UInt8) :
    machine.files.Changed handle.location
      (machine.writeFile stream (some handle) bytes).2.files := by
  rw [writeFile]
  cases hwrite : machine.files.write handle.location handle.offset bytes with
  | error cause => exact .same
  | ok written =>
    have hchanged := FileSystem.changed_of_write hwrite
    cases stream <;> exact hchanged

theorem output_write_log (machine : Machine) (bytes : List UInt8) :
    (machine.write .log bytes).2.output = machine.output := by
  rw [Machine.write, writeFile.eq_def]
  cases machine.log with
  | none => rfl
  | some handle =>
    dsimp only
    cases machine.files.write handle.location handle.offset bytes <;> rfl

/-- Creating a file changes the file system at one location at most. -/
theorem changed_create (machine : Machine) (stream : Stream) (path : String) :
    ∃ location, machine.files.Changed location (machine.create stream path).2.files := by
  rw [Machine.create]
  cases hcreate : machine.files.create path with
  | error cause => exact ⟨[], .same⟩
  | ok result =>
    have hchanged := FileSystem.changed_of_create hcreate
    cases stream <;> exact ⟨result.2, hchanged⟩

/-- Writing to a stream changes the file system at one location at most. -/
theorem changed_write (machine : Machine) (stream : Stream) (bytes : List UInt8) :
    ∃ location, machine.files.Changed location (machine.write stream bytes).2.files := by
  rw [Machine.write.eq_def]
  cases stream with
  | output =>
    cases machine.output with
    | none => exact ⟨[], .same⟩
    | some handle => exact ⟨_, machine.changed_writeFile .output handle bytes⟩
  | log =>
    cases machine.log with
    | none => exact ⟨[], .same⟩
    | some handle => exact ⟨_, machine.changed_writeFile .log handle bytes⟩
  | standardOutput => exact ⟨[], .same⟩
  | standardError => exact ⟨[], .same⟩

/-- No run makes a device. -/
theorem isDevice_of_run (machine : Machine) (program : Program α) {location : Location}
    (h : (machine.run program).2.files.IsDevice location) : machine.files.IsDevice location := by
  induction program generalizing machine with
  | done value => exact h
  | note event next ih => exact ih { machine with journal := event :: machine.journal } h
  | read path next ih => exact ih _ machine h
  | create stream path next ih =>
    obtain ⟨there, hchanged⟩ := machine.changed_create stream path
    exact hchanged.isDevice (ih _ _ h)
  | write stream bytes next ih =>
    obtain ⟨there, hchanged⟩ := machine.changed_write stream bytes
    exact hchanged.isDevice (ih _ _ h)

namespace Follows

theorem read_eq (h : shown.Follows plain shows file printed last) {path : String}
    (havoids : plain.files.Avoids file path) : shown.files.read path = plain.files.read path :=
  (h.files.read_eq havoids).symm

/-- The output file is created in both runs, or in neither for the same reason. -/
theorem create (h : shown.Follows plain shows file printed last) {path : String}
    (havoids : plain.files.Avoids file path) :
    (shown.create .output path).1 = (plain.create .output path).1 ∧
      (shown.create .output path).2.Follows (plain.create .output path).2 shows file printed
        last := by
  rw [Machine.create, Machine.create]
  obtain ⟨cause, hplain, hshown⟩ | ⟨created, made, location, hplain, hshown, hfiles, hother⟩ :=
    h.files.create havoids
  · rw [hplain, hshown]
    exact ⟨rfl, h⟩
  · rw [hplain, hshown]
    refine ⟨rfl, hfiles, rfl, fun handle hhandle => ?_, h.log.of_eq rfl rfl ?_⟩
    · cases hhandle
      exact hother
    · rintro there rfl
      exact (FileSystem.changed_of_create hshown).node_of_ne fun heq => hother (heq ▸ rfl)

/-- The output is written in both runs, or refused for the same reason. -/
theorem write (h : shown.Follows plain shows file printed last) (bytes : List UInt8) :
    (shown.write .output bytes).1 = (plain.write .output bytes).1 ∧
      (shown.write .output bytes).2.Follows (plain.write .output bytes).2 shows file printed
        last := by
  rw [Machine.write, Machine.write, h.output]
  cases houtput : plain.output with
  | none => exact ⟨rfl, h⟩
  | some handle =>
    have hother := h.apart handle houtput
    obtain ⟨location, offset⟩ := handle
    rw [writeFile, writeFile]
    obtain ⟨cause, hplain, hshown⟩ | ⟨written, made, hplain, hshown, hfiles⟩ :=
      h.files.write hother offset bytes
    · rw [hplain, hshown]
      exact ⟨rfl, h⟩
    · rw [hplain, hshown]
      refine ⟨rfl, hfiles, rfl, fun handle hhandle => ?_, h.log.of_eq rfl rfl ?_⟩
      · cases hhandle
        exact hother
      · rintro there rfl
        exact (FileSystem.changed_of_write hshown).node_of_ne fun heq => hother (heq ▸ rfl)

/-- Something is printed in both runs. -/
theorem print (h : shown.Follows plain shows file printed last) (bytes : List UInt8) :
    (shown.write .standardError bytes).2.Follows (plain.write .standardError bytes).2 shows file
      printed (last ++ bytes) := by
  refine ⟨h.files, h.output, h.apart, ?_⟩
  have hlog := h.log
  cases file with
  | none =>
    rw [Shows, bytes_write_standardError, hlog, List.append_assoc]
    rfl
  | some location =>
    obtain ⟨hprinted, hkept⟩ := hlog
    refine ⟨?_, hkept⟩
    rw [bytes_write_standardError, hprinted, List.append_assoc]

theorem note_of_none (h : shown.Follows plain shows file printed last) {event : Log.Event}
    (hshows : shows event = none) :
    shown.Follows { plain with journal := event :: plain.journal } shows file printed last := by
  refine ⟨h.files, h.output, h.apart, ?_⟩
  have hlines : shownBytes shows (event :: plain.journal).reverse =
      shownBytes shows plain.events := by
    simp [shownBytes, hshows, events]
  rw [events, hlines]
  exact h.log

/-- A line is shown in the one run, and nothing happens in the other one. -/
theorem note_of_some (h : shown.Follows plain shows file printed last)
    (hlast : file = none → last = []) {event : Log.Event} {text : String}
    (hshows : shows event = some text) :
    (shown.write (logStream file) (textBytes text)).2.Follows
      { plain with journal := event :: plain.journal } shows file printed last := by
  have hlines : shownBytes shows (event :: plain.journal).reverse =
      shownBytes shows plain.events ++ textBytes text := by
    simp [shownBytes, hshows, events]
  have hlog := h.log.write hlast (textBytes text)
  rw [← hlines] at hlog
  cases file with
  | none => exact ⟨h.files, h.output, h.apart, hlog⟩
  | some location =>
    obtain ⟨-, offset, hhandle, -⟩ := h.log
    have hchanged := shown.changed_writeFile .log ⟨location, offset⟩ (textBytes text)
    rw [← hhandle] at hchanged
    exact ⟨h.files.changed hchanged, (shown.output_write_log _).trans h.output, h.apart, hlog⟩

/-- **Showing the log leaves the course of a run as it is.**  The program comes to the same result,
and the machine still follows the other one. -/
theorem run_logged {program : Program α} {paths : List String} (hworks : program.Works paths)
    (h : shown.Follows plain shows file printed last) (hlast : file = none → last = [])
    (havoids : ∀ path ∈ paths, plain.files.Avoids file path) :
    (shown.run (program.logged shows (logStream file))).1 = (plain.run program).1 ∧
      (shown.run (program.logged shows (logStream file))).2.Follows (plain.run program).2 shows
        file printed last := by
  -- neither of the machines is fixed: each exchange changes both
  induction program generalizing shown plain with
  | done value => exact ⟨rfl, h⟩
  | note event next ih =>
    rw [Program.logged, run]
    cases hshows : shows event with
    | none => exact ih hworks (h.note_of_none hshows) havoids
    | some text => exact ih hworks (h.note_of_some hlast hshows) havoids
  | read path next ih =>
    rw [Program.logged, run, run, h.read_eq (havoids path hworks.1)]
    exact ih _ (hworks.2 _) h havoids
  | create stream path next ih =>
    obtain ⟨rfl, hpath, hnext⟩ := hworks
    obtain ⟨hanswer, hfollows⟩ := h.create (havoids path hpath)
    obtain ⟨there, hchanged⟩ := plain.changed_create .output path
    rw [Program.logged, run_create, run_create, hanswer]
    exact ih _ (hnext _) hfollows fun other hother =>
      hchanged.sameDirectories.avoids (havoids other hother)
  | write stream bytes next ih =>
    obtain ⟨rfl, hnext⟩ := hworks
    obtain ⟨hanswer, hfollows⟩ := h.write bytes
    obtain ⟨there, hchanged⟩ := plain.changed_write .output bytes
    rw [Program.logged, run_write, run_write, hanswer]
    exact ih _ (hnext _) hfollows fun other hother =>
      hchanged.sameDirectories.avoids (havoids other hother)

end Follows

end Machine
end OpcodeTable
