import OpcodeTable.Proofs.LogFilter
import OpcodeTable.Proofs.Logged
import OpcodeTable.Proofs.Script
import OpcodeTable.Tool

/-!
# The log never influences the work

The filter of the log is known before anything else is done, and nothing that is done depends on
it.  Every run of the tool with the same files and the same words takes the same course, whatever
is shown of the log on the way: it ends with the same status, leaves the same in every file but that
of the log, and reports the same error or none.  What is shown are the lines of one and the same
log that the filter admits.

This needs the log file to be neither the input nor the output, since it is emptied at the
beginning and written to all the time.

## What is here

* `Tool.course`, what a run does, from which the filter is missing.
* `Tool.run_work`, the job done and reported on beside its course, and `Tool.taken_course` for a run
  as a whole.
* `Tool.log_never_influences_work`, which compares runs with different filters.
-/

set_option autoImplicit false

namespace OpcodeTable
namespace Tool

open CommandLine

variable {files : FileSystem} {words : List String}

/-! ## The course of a run -/

/-- The machine on which the job is begun: the log file, if there is to be one, has been created. -/
def opened (files : FileSystem) : Option String → Except DeviceError Machine
  | none => .ok { files }
  | some path =>
    match files.create path with
    | .error cause => .error cause
    | .ok (created, location) => .ok { files := created, log := some ⟨location, 0⟩ }

/-- What is said of a failure, if there is one. -/
def failure? {α : Type} : Except Error α → Option String
  | .ok _ => none
  | .error error => some error.message

/-- What is said of a log that cannot be set up. -/
def setUpText (cause : DeviceError) : String :=
  "unable to set up logging: " ++ cause.message

/-- The line in which an error is reported, if there is one. -/
def errorLine : Option String → String
  | none => ""
  | some message => "Error: " ++ message ++ "\n"

theorem errorLine_setUpText (cause : DeviceError) :
    errorLine (some (setUpText cause)) =
      "Error: unable to set up logging: " ++ cause.message ++ "\n" := by
  have hfront : "Error: " ++ "unable to set up logging: " =
      "Error: unable to set up logging: " := by
    decide
  have hline (message : String) : "Error: " ++ ("unable to set up logging: " ++ message) ++ "\n" =
      "Error: unable to set up logging: " ++ message ++ "\n" := by
    rw [← String.append_assoc, hfront]
  exact hline cause.message

/-- What a run does besides showing its log. -/
structure Course where
  status : ExitStatus
  /-- What the files are in the end, but for that of the log. -/
  files : FileSystem
  /-- Where the log is kept, if it is kept in a file. -/
  logFile : Option Location := none
  /-- What is said of the error by which the run fails, if there is one. -/
  failure : Option String := none
  /-- All lines of the log. -/
  events : List Log.Event := []

/-- The course of a run: the job is done on a machine on which none of the log is shown. -/
def course (files : FileSystem) (words : List String) : Course :=
  match Arguments.parse words with
  | .error refusal => { status := (Machine.run { files } (decline refusal)).1, files }
  | .ok arguments =>
    match opened files arguments.logPath with
    | .error cause => { status := .failure, files, failure := some (setUpText cause) }
    | .ok machine =>
      let (status, after) := machine.run (work arguments)
      { status
        files := after.files
        logFile := machine.log.map (·.location)
        failure := failure? (machine.run arguments.job.run.run).1
        events := after.events }

/-! ## What is printed before the log -/

/-- The filter in force, and what in its text is not understood. -/
def filterOf (filterText : Option String) : Log.Filter × List Log.Filter.Problem :=
  filterText.elim (Log.Filter.standard, []) Log.Filter.parse

/-- The warnings of what in a filter is not understood. -/
def warnings (problems : List Log.Filter.Problem) : String :=
  String.join (problems.map fun problem => "warning: " ++ problem.message ++ ", ignoring it\n")

/-- What is printed on the standard error stream of a command line that asks for no job. -/
def refusalText : Refusal → String
  | .help | .version => ""
  | refusal => misuseText refusal

/-- What is printed on the standard error stream before anything is done. -/
def preamble (filterText : Option String) (words : List String) : String :=
  match Arguments.parse words with
  | .error refusal => refusalText refusal
  | .ok _ => warnings (filterOf filterText).2

theorem run_warn (machine : Machine) (problems : List Log.Filter.Problem) :
    ∃ printed : Buffer,
      printed.bytes = machine.standardError.bytes ++ textBytes (warnings problems) ∧
        machine.run (warn problems) = ((), { machine with standardError := printed }) := by
  induction problems generalizing machine with
  | nil => exact ⟨machine.standardError, (List.append_nil _).symm, rfl⟩
  | cons problem rest ih =>
    let line := textBytes ("warning: " ++ problem.message ++ ", ignoring it\n")
    obtain ⟨printed, hprinted, hrun⟩ :=
      ih { machine with standardError := machine.standardError.add line }
    refine ⟨printed, ?_, hrun⟩
    rw [hprinted, Buffer.bytes_add, warnings, warnings, List.map_cons, String.join_cons,
      textBytes_append, List.append_assoc]

theorem run_print (machine : Machine) (text : String) (status : ExitStatus) :
    machine.run (do Program.print .standardError text; return status) =
      (status, { machine with standardError := machine.standardError.add (textBytes text) }) :=
  rfl

theorem run_print_standardOutput (machine : Machine) (text : String) (status : ExitStatus) :
    machine.run (do Program.print .standardOutput text; return status) =
      (status, { machine with standardOutput := machine.standardOutput.add (textBytes text) }) :=
  rfl

theorem run_decline (machine : Machine) (refusal : Refusal) :
    (machine.run (decline refusal)).2.files = machine.files ∧
      (machine.run (decline refusal)).2.standardError.bytes =
        machine.standardError.bytes ++ textBytes (refusalText refusal) := by
  by_cases hanswered : refusal = .help ∨ refusal = .version
  · obtain rfl | rfl := hanswered
    all_goals
      rw [decline, refusalText, run_print_standardOutput]
      exact ⟨rfl, (List.append_nil _).symm⟩
  · rw [not_or] at hanswered
    rw [decline, refusalText, run_print]
    · exact ⟨rfl, Buffer.bytes_add ..⟩
    · exact hanswered.1
    · exact hanswered.2
    · exact hanswered.2
    · exact hanswered.1

/-! ## The lines of the log -/

/-- A line of the log as it is shown. -/
def lineText (event : Log.Event) : String :=
  Log.plainText (event.text ++ "\n")

/-- The lines that a filter leaves of the log of a run. -/
def Course.lines (course : Course) (filterText : Option String) : List String :=
  (course.events.filter (filterOf filterText).1.admits).map lineText

theorem shownBytes_shown (filter : Log.Filter) (events : List Log.Event) :
    Machine.shownBytes (shown filter) events =
      textBytes (String.join ((events.filter filter.admits).map lineText)) := by
  rw [Machine.shownBytes, textBytes_join]
  congr 1
  induction events with
  | nil => rfl
  | cons event rest ih =>
    cases hadmits : filter.admits event with
    | false =>
      have hnone : shown filter event = none := by
        rw [shown, hadmits]
        rfl
      rw [List.filterMap_cons_none hnone, List.filter_cons_of_neg (by simp [hadmits]), ih]
    | true =>
      have hsome : shown filter event = some (lineText event) := by
        rw [shown, hadmits]
        rfl
      rw [List.filterMap_cons_some hsome, List.filter_cons_of_pos hadmits, List.map_cons, ih]

/-- A run with the given files, words and filter. -/
def ran (files : FileSystem) (words : List String) (filterText : Option String) :
    ExitStatus × Machine :=
  Machine.run { files } (run filterText words)

/-- The log file, if there is to be one, is neither the input nor the output. -/
def LogApart (files : FileSystem) (words : List String) : Prop :=
  ∀ arguments path location, Arguments.parse words = .ok arguments →
    arguments.logPath = some path → files.locate path = .ok location →
    files.locate arguments.job.input ≠ .ok location ∧
      files.locate arguments.job.output ≠ .ok location

/-- A run takes a course: it ends alike, leaves the files alike, and reports the same error, if any.
The lines of the log are shown in the log file, or else between what is printed first and the
report of the error. -/
structure Course.Taken (course : Course) (front : String) (lines : List String)
    (run : ExitStatus × Machine) : Prop where
  status : run.1 = course.status
  files (location : Location) : course.logFile ≠ some location →
    run.2.files.node location = course.files.node location
  standardError : run.2.standardError.bytes =
    textBytes (front ++ (if course.logFile.isNone then String.join lines else "") ++
      errorLine course.failure)
  logFile (location : Location) : course.logFile = some location →
    run.2.files.node location = some (.file (textBytes (String.join lines))) ∨
      run.2.files.IsDevice location

/-! ## A run beside its course -/

/-- What is left to do when the job is done. -/
def report (arguments : Arguments) : Except Error Summary → Program ExitStatus
  | .ok _ => .done .success
  | .error error =>
    .write .standardError (textBytes (errorLine (some error.message))) fun _ =>
      if arguments.logPath.isSome then .note ⟨.error, .tool, error.message⟩ (.done .failure)
      else .done .failure

theorem work_eq (arguments : Arguments) :
    work arguments = arguments.job.run.run.bind (report arguments) := by
  refine congrArg (arguments.job.run.run.bind ·) (funext fun result => ?_)
  cases result with
  | ok summary => rfl
  | error error =>
    dsimp only [report]
    split <;> rfl

section

open Machine

variable {shown plain : Machine} {shows : Log.Event → Option String} {file : Option Location}
  {printed : List UInt8} {arguments : Arguments}

theorem run_report (h : shown.Follows plain shows file printed [])
    (hfile : file.isSome = arguments.logPath.isSome) (result : Except Error Summary) :
    (shown.run ((report arguments result).logged shows (logStream file))).1 =
        (plain.run (report arguments result)).1 ∧
      (shown.run ((report arguments result).logged shows (logStream file))).2.Follows
        (plain.run (report arguments result)).2 shows file printed
        (textBytes (errorLine (failure? result))) := by
  cases result with
  | ok summary => exact ⟨rfl, h⟩
  | error error =>
    have hprinted := h.print (textBytes (errorLine (some error.message)))
    rw [report, ← hfile]
    cases file with
    | none => exact ⟨rfl, hprinted⟩
    | some location =>
      let last : Program ExitStatus := .note ⟨.error, .tool, error.message⟩ (.done .failure)
      have hworks : last.Works [] := trivial
      have hlast := hprinted.run_logged hworks nofun (List.forall_mem_nil _)
      exact hlast

/-- The job is done and reported on alike, whatever is shown of the log. -/
theorem run_work (h : shown.Follows plain shows file printed [])
    (hfile : file.isSome = arguments.logPath.isSome)
    (havoids : ∀ path ∈ [arguments.job.input, arguments.job.output],
      plain.files.Avoids file path) :
    (shown.run ((work arguments).logged shows (logStream file))).1 =
        (plain.run (work arguments)).1 ∧
      (shown.run ((work arguments).logged shows (logStream file))).2.Follows
        (plain.run (work arguments)).2 shows file printed
        (textBytes (errorLine (failure? (plain.run arguments.job.run.run).1))) := by
  obtain ⟨hresult, hfollows⟩ := h.run_logged arguments.job.works (fun _ => rfl) havoids
  rw [work_eq, Program.logged_bind, run_bind, run_bind, hresult]
  exact run_report hfollows hfile _

end

theorem opened_eq_ok {logPath : Option String} {machine : Machine}
    (h : opened files logPath = .ok machine) :
    logPath = none ∧ machine = { files } ∨
      ∃ path created location, logPath = some path ∧
        files.create path = .ok (created, location) ∧
        machine = { files := created, log := some ⟨location, 0⟩ } := by
  cases logPath with
  | none =>
    cases h
    exact .inl ⟨rfl, rfl⟩
  | some path =>
    rw [opened] at h
    cases hcreate : files.create path with
    | error cause =>
      rw [hcreate] at h
      cases h
    | ok result =>
      rw [hcreate] at h
      cases h
      exact .inr ⟨path, _, _, rfl, hcreate, rfl⟩

theorem isSome_log_of_opened {logPath : Option String} {machine : Machine}
    (h : opened files logPath = .ok machine) :
    (machine.log.map (·.location)).isSome = logPath.isSome := by
  obtain ⟨rfl, rfl⟩ | ⟨path, created, location, rfl, -, rfl⟩ := opened_eq_ok h <;> rfl

/-- Once the log file has been created, neither the input nor the output has become it. -/
theorem avoids_of_opened (hapart : LogApart files words) {arguments : Arguments}
    (hparse : Arguments.parse words = .ok arguments) {machine : Machine}
    (h : opened files arguments.logPath = .ok machine) :
    ∀ path ∈ [arguments.job.input, arguments.job.output],
      machine.files.Avoids (machine.log.map (·.location)) path := by
  obtain ⟨-, rfl⟩ | ⟨path, created, location, hpath, hcreate, rfl⟩ := opened_eq_ok h
  · exact fun _ _ => nofun
  · have hsame := (FileSystem.changed_of_create hcreate).sameDirectories
    have hlocate := (FileSystem.created_of_create hcreate).1.locate
    obtain ⟨hinput, houtput⟩ := hapart arguments path location hparse hpath hlocate
    intro other hother
    refine hsame.avoids ?_
    rintro there ⟨⟩
    obtain rfl | rfl : other = arguments.job.input ∨ other = arguments.job.output := by
      simpa using hother
    · exact hinput
    · exact houtput

/-- When the log has been set up, nothing of it has been shown yet. -/
theorem follows_opened {logPath : Option String} {machine : Machine}
    (h : opened files logPath = .ok machine) (printed : Buffer)
    (shows : Log.Event → Option String) :
    Machine.Follows { machine with standardError := printed } machine shows
      (machine.log.map (·.location)) printed.bytes [] := by
  obtain ⟨-, rfl⟩ | ⟨path, created, location, -, hcreate, rfl⟩ := opened_eq_ok h
  · refine ⟨.refl nofun, rfl, nofun, ?_⟩
    change printed.bytes = printed.bytes ++ [] ++ []
    rw [List.append_nil, List.append_nil]
  · have hnode : created.node location = some (.file []) ∨ created.IsDevice location := by
      obtain ⟨-, ⟨hdevice, rfl⟩ | ⟨-, rfl⟩⟩ := FileSystem.created_of_create hcreate
      · exact .inr hdevice
      · exact .inl (FileSystem.node_put_self ..)
    have hholds : created.HoldsFile location := by
      obtain h | h | h := hnode <;> exact ⟨_, h, nofun⟩
    refine ⟨.refl ?_, rfl, nofun, (List.append_nil _).symm, 0, rfl, ?_⟩
    · rintro there ⟨⟩
      exact hholds
    · exact hnode.imp_left fun h => ⟨h, rfl⟩

/-- The log set up, the job is done and reported on. -/
theorem run_start_of_opened {arguments : Arguments} {machine : Machine}
    (h : opened files arguments.logPath = .ok machine) (filter : Log.Filter) (printed : Buffer) :
    Machine.run { files, standardError := printed } (start filter arguments) =
      Machine.run { machine with standardError := printed }
        ((work arguments).logged (shown filter)
          (Machine.logStream (machine.log.map (·.location)))) := by
  obtain ⟨hpath, rfl⟩ | ⟨path, created, location, hpath, hcreate, rfl⟩ := opened_eq_ok h
  · rw [start, hpath]
    rfl
  · rw [start, hpath]
    dsimp only
    rw [Machine.run_create, Machine.create, hcreate]
    rfl

/-- Without a log nothing is done. -/
theorem run_start_of_error {arguments : Arguments} {cause : DeviceError}
    (h : opened files arguments.logPath = .error cause) (filter : Log.Filter) (printed : Buffer) :
    Machine.run { files, standardError := printed } (start filter arguments) =
      (.failure, { files, standardError :=
        printed.add (textBytes (errorLine (some (setUpText cause)))) }) := by
  cases hpath : arguments.logPath with
  | none =>
    rw [hpath] at h
    cases h
  | some path =>
    have hcreate : files.create path = .error cause := by
      rw [hpath, opened] at h
      split at h <;> cases h
      assumption
    rw [start, hpath]
    dsimp only
    rw [Machine.run_create, Machine.create, hcreate]
    dsimp only
    rw [run_print, errorLine_setUpText]

/-- A run whose machine follows that of a run without a log takes the course of that one. -/
theorem taken_of_follows {run quiet : ExitStatus × Machine} {filter : Log.Filter}
    {file : Option Location} {front : String} {failure : Option String}
    (hstatus : run.1 = quiet.1)
    (h : run.2.Follows quiet.2 (shown filter) file (textBytes front)
      (textBytes (errorLine failure))) :
    Course.Taken
      { status := quiet.1, files := quiet.2.files, logFile := file, failure,
        events := quiet.2.events }
      front ((quiet.2.events.filter filter.admits).map lineText) run := by
  have hlog := h.log
  rw [shownBytes_shown] at hlog
  refine ⟨hstatus, fun location hother => (h.files.node location hother).symm, ?_, ?_⟩
  · cases file with
    | none =>
      rw [hlog, ← textBytes_append, ← textBytes_append]
      rfl
    | some location =>
      obtain ⟨hprinted, -⟩ := hlog
      rw [hprinted, ← textBytes_append, Option.isNone_some, if_neg Bool.false_ne_true,
        String.append_empty]
  · rintro location rfl
    obtain ⟨-, offset, -, hkept⟩ := hlog
    exact hkept.imp_left And.left

/-- **Whatever the filter, a run takes the course of its files and words.** -/
theorem taken_course (hapart : LogApart files words) (filterText : Option String) :
    (course files words).Taken (preamble filterText words)
      ((course files words).lines filterText) (ran files words filterText) := by
  cases hparse : Arguments.parse words with
  | error refusal =>
    have hran : ran files words filterText = Machine.run { files } (decline refusal) := by
      rw [ran, run, hparse]
    have hcourse : course files words =
        { status := (Machine.run { files } (decline refusal)).1, files } := by
      rw [course, hparse]
    have hpreamble : preamble filterText words = refusalText refusal := by
      rw [preamble, hparse]
    obtain ⟨hfiles, herror⟩ := run_decline { files } refusal
    rw [hran, hcourse, hpreamble]
    refine ⟨rfl, fun location _ => congrArg (·.node location) hfiles, ?_, nofun⟩
    rw [herror, Option.isNone_none, if_pos rfl]
    change [] ++ textBytes (refusalText refusal) = textBytes (refusalText refusal ++ "" ++ "")
    rw [List.nil_append, String.append_empty, String.append_empty]
  | ok arguments =>
    obtain ⟨printed, hprinted, hwarn⟩ := run_warn { files } (filterOf filterText).2
    have hran : ran files words filterText =
        Machine.run { files, standardError := printed }
          (start (filterOf filterText).1 arguments) := by
      rw [ran, run, hparse]
      change Machine.run { files } (Program.bind (warn (filterOf filterText).2) _) = _
      rw [Machine.run_bind, hwarn]
      rfl
    have hpreamble : preamble filterText words = warnings (filterOf filterText).2 := by
      rw [preamble, hparse]
    have hfront : printed.bytes = textBytes (preamble filterText words) := by
      rw [hprinted, hpreamble]
      rfl
    cases hopened : opened files arguments.logPath with
    | error cause =>
      have hcourse : course files words =
          { status := .failure, files, failure := some (setUpText cause) } := by
        simp only [course, hparse, hopened]
      rw [hran, hcourse, run_start_of_error hopened]
      refine ⟨rfl, fun location _ => rfl, ?_, nofun⟩
      rw [Buffer.bytes_add, hfront, ← textBytes_append, Option.isNone_none, if_pos rfl]
      change _ = textBytes (preamble filterText words ++ "" ++ _)
      rw [String.append_empty]
    | ok machine =>
      have hcourse : course files words =
          { status := (machine.run (work arguments)).1
            files := (machine.run (work arguments)).2.files
            logFile := machine.log.map (·.location)
            failure := failure? (machine.run arguments.job.run.run).1
            events := (machine.run (work arguments)).2.events } := by
        simp only [course, hparse, hopened]
      have hfollows := follows_opened hopened printed (shown (filterOf filterText).1)
      rw [hfront] at hfollows
      obtain ⟨hstatus, hend⟩ := run_work hfollows (isSome_log_of_opened hopened)
        (avoids_of_opened hapart hparse hopened)
      rw [hran, hcourse, run_start_of_opened hopened]
      exact taken_of_follows hstatus hend

/-! ## Runs with different filters -/

/-- An error is reported if the log cannot be set up or the job fails. -/
theorem isSome_failure_course :
    (course files words).failure.isSome ↔
      ∃ arguments, Arguments.parse words = .ok arguments ∧
        ((∃ cause, opened files arguments.logPath = .error cause) ∨
          ∃ machine error, opened files arguments.logPath = .ok machine ∧
            (machine.run arguments.job.run.run).1 = .error error) := by
  cases hparse : Arguments.parse words with
  | error refusal => simp [course, hparse]
  | ok arguments =>
    cases hopened : opened files arguments.logPath with
    | error cause => simp [course, hparse, hopened]
    | ok machine =>
      cases hresult : (machine.run arguments.job.run.run).1 with
      | ok summary => simp [course, hparse, hopened, hresult, failure?]
      | error error => simp [course, hparse, hopened, hresult, failure?]

theorem status_work_of_error {machine : Machine} {arguments : Arguments} {error : Error}
    (h : (machine.run arguments.job.run.run).1 = .error error) :
    (machine.run (work arguments)).1 = .failure := by
  rw [work_eq, Machine.run_bind, h, report, Machine.run_write]
  split <;> rfl

theorem status_course_of_failure (h : (course files words).failure.isSome) :
    (course files words).status = .failure := by
  obtain ⟨arguments, hparse, ⟨cause, hopened⟩ | ⟨machine, error, hopened, herror⟩⟩ :=
    isSome_failure_course.1 h
  · simp only [course, hparse, hopened]
  · simp only [course, hparse, hopened]
    exact status_work_of_error herror

/-- Where the log file is not a device, the log is found in it. -/
theorem isDevice_of_logFile {filterText : Option String} {location : Location}
    (h : (ran files words filterText).2.files.IsDevice location) : files.IsDevice location :=
  Machine.isDevice_of_run { files } _ h

/-- Raising the filter only adds lines. -/
theorem Course.lines_sublist (course : Course) {low high : Option String}
    (h : (filterOf low).1.Raised (filterOf high).1) :
    (course.lines low).Sublist (course.lines high) :=
  (h.sublist course.events).map lineText

/-- **The log never influences the work.**  Any two runs with the same files and words, whatever
their filters, end with the same status and leave the same in every file but that of the log, which
is neither the input nor the output.  Behind what is shown of the log both report the same error on
the standard error stream, or none: one is reported exactly if the command line is understood and
the log cannot be set up or the job fails, and the exit status is 1 then.

The lines that are shown, in the log file or else on the standard error stream, are those of one log
that the filter admits.  At the level `trace` it is all of them, and raising the thresholds of a
filter only adds lines: so does a higher level in its text, by itself or among other items. -/
theorem log_never_influences_work (hapart : LogApart files words) :
    let course := course files words
    let ran := ran files words
    (∀ first second, (ran first).1.code = (ran second).1.code ∧
      ∀ location, course.logFile ≠ some location →
        (ran first).2.files.node location = (ran second).2.files.node location) ∧
    (∀ filterText, (ran filterText).2.standardError.bytes =
      textBytes (preamble filterText words ++
        (if course.logFile.isNone then String.join (course.lines filterText) else "") ++
        errorLine course.failure)) ∧
    (course.failure.isSome ↔
      ∃ arguments, Arguments.parse words = .ok arguments ∧
        ((∃ cause, opened files arguments.logPath = .error cause) ∨
          ∃ machine error, opened files arguments.logPath = .ok machine ∧
            (machine.run arguments.job.run.run).1 = .error error)) ∧
    (course.failure.isSome → ∀ filterText, (ran filterText).1.code = 1) ∧
    (∀ filterText location, course.logFile = some location → ¬files.IsDevice location →
      (ran filterText).2.files.node location =
        some (.file (textBytes (String.join (course.lines filterText))))) ∧
    (∀ filterText, course.lines filterText =
      (course.events.filter (filterOf filterText).1.admits).map lineText) ∧
    (∀ name, Log.Threshold.ofName? name = some (some .trace) →
      course.lines (some name) = course.events.map lineText) ∧
    (∀ low high, (filterOf low).1.Raised (filterOf high).1 →
      (course.lines low).Sublist (course.lines high)) ∧
    (∀ low high, Log.TextRaised low high →
      (course.lines (some low)).Sublist (course.lines (some high))) ∧
    ∀ low high lowest highest, Log.Threshold.ofName? low = some lowest →
      Log.Threshold.ofName? high = some highest → lowest.rank ≤ highest.rank →
      (course.lines (some low)).Sublist (course.lines (some high)) := by
  intro course ran
  have htaken := taken_course hapart
  refine ⟨fun first second => ⟨?_, fun location hother => ?_⟩, fun filterText => ?_,
    isSome_failure_course, fun hfailure filterText => ?_,
    fun filterText location hlog hdevice => ?_, fun _ => rfl, fun name hname => ?_,
    fun low high hraised => ?_, fun low high hraised => ?_,
    fun low high lowest highest hlow hhigh hle => ?_⟩
  · rw [(htaken first).status, (htaken second).status]
  · rw [(htaken first).files location hother, (htaken second).files location hother]
  · exact (htaken filterText).standardError
  · rw [(htaken filterText).status, status_course_of_failure hfailure]
    rfl
  · obtain hfile | hstill := (htaken filterText).logFile location hlog
    · exact hfile
    · exact absurd (isDevice_of_logFile hstill) hdevice
  · have hall : ∀ event ∈ course.events, (filterOf (some name)).1.admits event = true :=
      fun event _ => Log.Filter.admits_of_trace hname event
    change (course.events.filter (filterOf (some name)).1.admits).map lineText = _
    rw [List.filter_eq_self.2 hall]
  · exact course.lines_sublist hraised
  · exact course.lines_sublist hraised.parse
  · exact course.lines_sublist (Log.textRaised_of_ofName? hlow hhigh hle).parse

/-! ## A run that fails -/

/-- An empty directory. -/
def bareFiles : FileSystem :=
  { nodes := [([], .directory)], workingDirectory := [] }

/-- A command line for a source that is missing there. -/
def missingWords : List String :=
  ["--input=t", "--output=u", "--log-path=l"]

def missingArguments : Arguments :=
  { job := { input := "t", output := "u" }, logPath := some "l" }

/-- The machine when the log of that has been set up. -/
def bareMachine : Machine :=
  { files := bareFiles.put ["l"] (.file []), log := some ⟨["l"], 0⟩ }

theorem parse_missingWords : Arguments.parse missingWords = .ok missingArguments :=
  rfl

theorem opened_missingArguments : opened bareFiles missingArguments.logPath = .ok bareMachine := by
  have hcreate : bareFiles.create "l" = .ok (bareFiles.put ["l"] (.file []), ["l"]) :=
    FileSystem.create_of_isName _ (by decide)
  change opened bareFiles (some "l") = _
  rw [opened, hcreate]
  rfl

theorem logApart_missingWords : LogApart bareFiles missingWords := by
  intro arguments path location hparse hpath hlocate
  cases parse_missingWords.symm.trans hparse
  cases hpath
  have hlog : bareFiles.locate "l" = .ok ["l"] := FileSystem.locate_of_isName _ (by decide)
  have hinput : bareFiles.locate "t" = .ok ["t"] := FileSystem.locate_of_isName _ (by decide)
  have houtput : bareFiles.locate "u" = .ok ["u"] := FileSystem.locate_of_isName _ (by decide)
  cases hlog.symm.trans hlocate
  change bareFiles.locate "t" ≠ _ ∧ bareFiles.locate "u" ≠ _
  rw [hinput, houtput]
  decide

theorem run_missingArguments :
    bareMachine.run missingArguments.job.run.run =
      (.error (.file "t" .notFound),
        { bareMachine with
          journal := [⟨.info, .loading, "Loading opcode records from 't'"⟩] }) := by
  have hread : bareMachine.files.read "t" = .error .notFound :=
    FileSystem.read_of_isName _ (by decide)
  let noted : Machine :=
    { bareMachine with journal := [⟨.info, .loading, "Loading opcode records from 't'"⟩] }
  have htext : noted.run (Attempt.readText "t").run = (.error (.file "t" .notFound), noted) := by
    rw [Machine.run_readText, FileSystem.textAt, show noted.files.read "t" = _ from hread]
  have hrecords : bareMachine.run (Attempt.readRecords "t").run =
      (.error (.file "t" .notFound), noted) := by
    rw [Attempt.readRecords, Machine.run_bind_of_ok (bareMachine.run_say _)]
    exact Machine.run_bind_of_error htext _
  exact Machine.run_bind_of_error (Machine.run_bind_of_error hrecords _) _

theorem course_missingWords :
    course bareFiles missingWords =
      { status := .failure
        files := bareMachine.files
        logFile := some ["l"]
        failure := some "I/O error on 't': No such file or directory (os error 2)"
        events :=
          [⟨.info, .loading, "Loading opcode records from 't'"⟩,
            ⟨.error, .tool, "I/O error on 't': No such file or directory (os error 2)"⟩] } := by
  simp only [course, parse_missingWords, opened_missingArguments, work_eq, Machine.run_bind,
    run_missingArguments]
  rfl

theorem lines_missingWords :
    (course bareFiles missingWords).lines (some "error") =
      ["[ERROR] I/O error on 't': No such file or directory (os error 2)\n"] := by
  have hlower : "error".toLower = "error" := Log.toLower_eq rfl
  have hname : Log.Threshold.ofName? "error" = some (some .error) := by
    rw [Log.Threshold.ofName?, hlower]
    rfl
  have hfilter : (filterOf (some "error")).1 = { directives := [⟨none, some .error⟩] } :=
    congrArg Prod.fst (Log.Filter.parse_of_ofName? hname)
  rw [Course.lines, hfilter, course_missingWords]
  decide +kernel

theorem log_never_influences_work_missingWords :
    LogApart bareFiles missingWords ∧
      (course bareFiles missingWords).failure =
        some "I/O error on 't': No such file or directory (os error 2)" ∧
      (∀ filterText, (ran bareFiles missingWords filterText).1.code = 1) ∧
      (∀ first second location, location ≠ ["l"] →
        (ran bareFiles missingWords first).2.files.node location =
          (ran bareFiles missingWords second).2.files.node location) ∧
      (ran bareFiles missingWords (some "error")).2.files.node ["l"] =
        some (.file (textBytes
          "[ERROR] I/O error on 't': No such file or directory (os error 2)\n")) := by
  have hfailure : (course bareFiles missingWords).failure =
      some "I/O error on 't': No such file or directory (os error 2)" := by
    rw [course_missingWords]
  have hlogFile : (course bareFiles missingWords).logFile = some ["l"] := by
    rw [course_missingWords]
  have hdevice : ¬bareFiles.IsDevice ["l"] := by
    unfold FileSystem.IsDevice
    decide
  obtain ⟨hsame, -, -, hcode, hfile, -⟩ := log_never_influences_work logApart_missingWords
  refine ⟨logApart_missingWords, hfailure, hcode (by rw [hfailure]; rfl),
    fun first second location hother => (hsame first second).2 location ?_, ?_⟩
  · rw [hlogFile]
    exact fun h => hother (Option.some_inj.1 h).symm
  · rw [hfile (some "error") ["l"] hlogFile hdevice, lines_missingWords]
    rfl

end Tool
end OpcodeTable
