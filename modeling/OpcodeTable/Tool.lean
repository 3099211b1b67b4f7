import OpcodeTable.CommandLine
import OpcodeTable.Log.Filter
import OpcodeTable.Log.Plain

/-!
# The tool

What one run of the tool does: it reads the command line, sets up the log, does the job and reports
how it went.  The log is shown on the standard error stream, or kept in a file that is emptied
before anything else is touched.  An error is always reported on the standard error stream, whatever
the filter of the log, and in a log file as well.
-/

set_option autoImplicit false

namespace OpcodeTable
namespace Tool

open CommandLine

/-- How a run ends. -/
inductive ExitStatus where
  | success
  | failure
  /-- The command line is not understood. -/
  | misuse
deriving DecidableEq, Repr

/-- The number of an exit status. -/
def ExitStatus.code : ExitStatus → UInt8
  | .success => 0
  | .failure => 1
  | .misuse => 2

/-- The name and the version of the tool. -/
def versionText : String := "opcode_rekey 0.1.0\n"

/-! ## What is said of the command line -/

/-- What the tool is for. -/
def aboutText : String := "Rewrites an opcode descriptor list into a table keyed by opcode"

/-- How the tool is used. -/
def usageText : String := "Usage: opcode_rekey [OPTIONS]\n"

/-- The word that stands for the value of an option. -/
def valueName (setting : Setting) : String :=
  setting.name.map fun c => if c = '-' then '_' else c.toUpper

/-- How an option is written, and what is said of it. -/
structure HelpLine where
  form : String
  summary : String
deriving DecidableEq, Repr

/-- The line of an option with a value. -/
def HelpLine.ofSetting (setting : Setting) : HelpLine :=
  let standard := setting.standard?.map fun value => "[default: " ++ value ++ "]"
  let choices :=
    if setting = .duplicates then
      ["[possible values: " ++ ", ".intercalate duplicateRuleNames ++ "]"]
    else []
  { form := "      --" ++ setting.name ++ " <" ++ valueName setting ++ ">"
    summary := " ".intercalate (setting.summary :: standard.toList ++ choices) }

/-- The lines of all options. -/
def helpLines : List HelpLine :=
  [.ofSetting .input, .ofSetting .output, .ofSetting .opcodeField, .ofSetting .prefixField,
    .ofSetting .duplicates, ⟨"      --verify", ""⟩, .ofSetting .logPath,
    ⟨"  -h, --help", "Print help"⟩, ⟨"  -V, --version", "Print version"⟩]

/-- The line with what is said of the option in a column of its own. -/
def HelpLine.text (width : Nat) (line : HelpLine) : String :=
  String.ofList (line.form.toList.rightpad width ' ') ++ line.summary ++ "\n"

/-- All that is said of how the tool is used. -/
def helpText : String :=
  let longest := (helpLines.map fun line => line.form.length).foldl max 0
  aboutText ++ "\n\n" ++ usageText ++ "\nOptions:\n"
    ++ String.join (helpLines.map (HelpLine.text (longest + 2)))

/-- What is wrong with a command line. -/
def mistake : Refusal → String
  | .unknownArgument => "unexpected argument found"
  | .invalidValue => "one of the values isn't valid for an argument"
  | .tooManyValues => "unexpected value for an argument found"
  | .argumentConflict =>
    "an argument cannot be used with one or more of the other specified arguments"
  | .help | .version => ""

/-- What is said of a command line that is not understood. -/
def misuseText (refusal : Refusal) : String :=
  "error: " ++ mistake refusal ++ "\n\n" ++ usageText
    ++ "\nFor more information, try '--help'.\n"

/-- Answers a command line that asks for no job. -/
def decline : Refusal → Program ExitStatus
  | .version => do
    Program.print .standardOutput versionText
    return .success
  | .help => do
    Program.print .standardOutput helpText
    return .success
  | refusal => do
    Program.print .standardError (misuseText refusal)
    return .misuse

/-! ## A run -/

/-- Does the job and reports an error, on the standard error stream and, if there is a log file, in
the log. -/
def work (arguments : Arguments) : Program ExitStatus := do
  match ← (arguments.job.run).run with
  | .ok _ => return .success
  | .error error =>
    Program.print .standardError ("Error: " ++ error.message ++ "\n")
    if arguments.logPath.isSome then
      Program.say ⟨.error, .tool, error.message⟩
    return .failure

/-- The line that is shown of an event, if the filter admits it. -/
def shown (filter : Log.Filter) (event : Log.Event) : Option String :=
  if filter.admits event then some (Log.plainText (event.text ++ "\n")) else none

/-- Warns of what in a filter is not understood. -/
def warn : List Log.Filter.Problem → Program Unit
  | [] => return ()
  | problem :: rest => do
    Program.print .standardError ("warning: " ++ problem.message ++ ", ignoring it\n")
    warn rest

/-- Does the job with the log set up. -/
def start (filter : Log.Filter) (arguments : Arguments) : Program ExitStatus :=
  match arguments.logPath with
  | none => (work arguments).logged (shown filter) .standardError
  | some path =>
    .create .log path fun
      | .ok () => (work arguments).logged (shown filter) .log
      | .error cause => do
        Program.print .standardError ("Error: unable to set up logging: " ++ cause.message ++ "\n")
        return .failure

/-- A run with the given log filter and command line. -/
def run (filterText : Option String) (words : List String) : Program ExitStatus :=
  match Arguments.parse words with
  | .error refusal => decline refusal
  | .ok arguments => do
    let (filter, problems) := filterText.elim (Log.Filter.standard, []) Log.Filter.parse
    warn problems
    start filter arguments

end Tool
end OpcodeTable
