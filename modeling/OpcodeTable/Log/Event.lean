/-!
# Log events

A line of the log: how severe it is, which part of the program speaks, and what it says.
-/

set_option autoImplicit false

namespace OpcodeTable
namespace Log

/-- The severities, the most severe first. -/
inductive Level where
  | error
  | warn
  | info
  | debug
  | trace
deriving DecidableEq, Repr

/-- The name of a severity. -/
def Level.name : Level → String
  | .error => "ERROR"
  | .warn => "WARN"
  | .info => "INFO"
  | .debug => "DEBUG"
  | .trace => "TRACE"

/-- The place of a severity from the most severe on; zero is left for no severity at all. -/
def Level.rank : Level → Nat
  | .error => 1
  | .warn => 2
  | .info => 3
  | .debug => 4
  | .trace => 5

/-- The parts of the program that write to the log. -/
inductive Origin where
  | tool
  | conversion
  | loading
  | record
  | table
deriving DecidableEq, Repr

/-- The path by which a filter names a part. -/
def Origin.path : Origin → String
  | .tool => "opcode_rekey"
  | .conversion => "opcode_rekey::converter"
  | .loading => "opcode_rekey::converter::loader"
  | .record => "opcode_rekey::converter::record"
  | .table => "opcode_rekey::table"

/-- A line of the log. -/
structure Event where
  level : Level
  origin : Origin
  message : String
deriving DecidableEq, Repr

/-- The text of a line. -/
def Event.text (event : Event) : String :=
  "[" ++ event.level.name ++ "] " ++ event.message

end Log
end OpcodeTable
