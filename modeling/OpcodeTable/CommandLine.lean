import OpcodeTable.Job

/-!
# The command line

A command line is read word by word from the left, and the first mistake counts.  An option with a
value is written as one word, `--name=value`, or as two.  The value of the second form may be `-`
but no other word that begins with a hyphen, and it is checked only when the next option is met or
the line ends: a word that is no option at all is reported first.

`CommandLine.Arguments.parse` is the reader; `Given` is what it has been given so far.
-/

set_option autoImplicit false

namespace OpcodeTable
namespace CommandLine

/-- Why a command line asks for no job. -/
inductive Refusal where
  | help
  | version
  | unknownArgument
  | invalidValue
  | tooManyValues
  | argumentConflict
deriving DecidableEq, Repr

/-- The options that take a value. -/
inductive Setting where
  | input
  | output
  | logPath
  | opcodeField
  | prefixField
  | duplicates
deriving DecidableEq, Repr

/-- The options that take none. -/
inductive Flag where
  | verify
  | help
  | version
deriving DecidableEq, Repr

/-- The name of an option. -/
def Setting.name : Setting → String
  | .input => "input"
  | .output => "output"
  | .logPath => "log-path"
  | .opcodeField => "opcode-field"
  | .prefixField => "prefix-field"
  | .duplicates => "duplicates"

/-- What an option is for, where that is not left to its name. -/
def Setting.summary : Setting → String
  | .input => "JSON array of opcode records to read"
  | .output => "Where the keyed JSON object is written. Existing content is replaced"
  | .logPath => ""
  | .opcodeField => "Field holding the opcode numeral, e.g. \"0x3E\""
  | .prefixField => "Optional field holding the prefix numeral, e.g. \"0xCB\""
  | .duplicates => "How to handle two records that produce the same key"

/-- All options that take a value. -/
def Setting.all : List Setting :=
  [.input, .output, .logPath, .opcodeField, .prefixField, .duplicates]

/-- The option with this name. -/
def Setting.ofName? (name : String) : Option Setting :=
  Setting.all.find? fun setting => setting.name = name

/-- The flag with this name. -/
def Flag.ofName? (name : String) : Option Flag :=
  if name = "verify" then some .verify
  else if name = "help" then some .help
  else if name = "version" then some .version
  else none

/-- The flag with this letter. -/
def Flag.ofLetter? (letter : Char) : Option Flag :=
  if letter = 'h' then some .help
  else if letter = 'V' then some .version
  else none

/-- The rule for duplicates with this name. -/
def duplicateRule? (name : String) : Option DuplicateRule :=
  if name = "reject" then some .reject
  else if name = "overwrite" then some .overwrite
  else none

/-- The names of the rules for duplicates. -/
def duplicateRuleNames : List String :=
  ["reject", "overwrite"]

/-- The value that an option has if it is not given. -/
def Setting.standard? : Setting → Option String
  | .input => some ({} : Job).input
  | .output => some ({} : Job).output
  | .logPath => none
  | .opcodeField => some ({} : Job).options.opcodeField
  | .prefixField => some ({} : Job).options.prefixField
  | .duplicates =>
    duplicateRuleNames.find? fun name => duplicateRule? name = some ({} : Job).options.duplicates

/-- Whether a value is one that the option can have.  A path is not empty, the name of a field may
be. -/
def Setting.accepts (setting : Setting) (value : String) : Bool :=
  match setting with
  | .input | .output | .logPath => value ≠ ""
  | .opcodeField | .prefixField => true
  | .duplicates => (duplicateRule? value).isSome

/-- The form of a word. -/
inductive Form where
  /-- Two hyphens by themselves. -/
  | divider
  /-- Two hyphens, a name, and perhaps an equals sign and a value. -/
  | long (name : String) (value : Option String)
  /-- A hyphen and letters, the first of which decides. -/
  | short (letter : Char)
  /-- Any other word, also a hyphen by itself. -/
  | plain
deriving DecidableEq, Repr

/-- The form of a word that begins with two hyphens and then the given characters. -/
def Form.ofLong (rest : List Char) : Form :=
  match rest with
  | [] => .divider
  | _ :: _ =>
    let name := String.ofList (rest.takeWhile (· ≠ '='))
    match rest.dropWhile (· ≠ '=') with
    | [] => .long name none
    | _ :: value => .long name (some (String.ofList value))

/-- The form of a word. -/
def Form.of (word : String) : Form :=
  match word.toList with
  | [] => .plain
  | c :: rest =>
    if c ≠ '-' then .plain
    else
      match rest with
      | [] => .plain
      | d :: others => if d = '-' then .ofLong others else .short d

/-- The options that have been given, with their values, the last one first. -/
structure Given where
  verify : Bool := false
  settings : List (Setting × String) := []
deriving DecidableEq, Repr

namespace Given

/-- The value that an option has been given. -/
def value? (given : Given) (setting : Setting) : Option String :=
  given.settings.lookup setting

/-- Gives an option a value; it must be the first one, and one that the option can have. -/
def assign (given : Given) (setting : Setting) (value : String) : Except Refusal Given :=
  if (given.value? setting).isSome then .error .argumentConflict
  else if ¬setting.accepts value then .error .invalidValue
  else .ok { given with settings := (setting, value) :: given.settings }

/-- Gives the option whose name has been read the word that followed it.  There must have been
one. -/
def settle (given : Given) : Option (Setting × Option String) → Except Refusal Given
  | none => .ok given
  | some (_, none) => .error .invalidValue
  | some (setting, some value) => given.assign setting value

/-- Raises a flag. -/
def raise (given : Given) : Flag → Except Refusal Given
  | .verify => if given.verify then .error .argumentConflict else .ok { given with verify := true }
  | .help => .error .help
  | .version => .error .version

/-- Reads the words of a command line.  An option whose name has been read as a word of its own is
`pending`, and so is the word that followed it. -/
def read (given : Given) (pending : Option (Setting × Option String)) :
    List String → Except Refusal Given
  | [] => given.settle pending
  | word :: rest =>
    match Form.of word with
    | .divider => if rest = [] then given.settle pending else .error .unknownArgument
    | .plain =>
      match pending with
      | some (setting, none) => read given (some (setting, some word)) rest
      | _ => .error .unknownArgument
    | .short letter =>
      match Flag.ofLetter? letter with
      | none => .error .unknownArgument
      | some flag => do read (← (← given.settle pending).raise flag) none rest
    | .long name value =>
      match Setting.ofName? name, Flag.ofName? name, value with
      | some setting, _, none => do read (← given.settle pending) (some (setting, none)) rest
      | some setting, _, some value => do
        read (← (← given.settle pending).assign setting value) none rest
      | none, some flag, none => do read (← (← given.settle pending).raise flag) none rest
      | none, some _, some _ => .error .tooManyValues
      | none, none, _ => .error .unknownArgument

end Given

/-- What a command line asks for. -/
structure Arguments where
  job : Job := {}
  logPath : Option String := none
deriving DecidableEq, Repr

namespace Arguments

/-- The arguments that have been given, and the standard ones for the others. -/
def ofGiven (given : Given) : Arguments :=
  let standard : Job := {}
  { job :=
      { input := (given.value? .input).getD standard.input
        output := (given.value? .output).getD standard.output
        options :=
          { opcodeField := (given.value? .opcodeField).getD standard.options.opcodeField
            prefixField := (given.value? .prefixField).getD standard.options.prefixField
            duplicates :=
              ((given.value? .duplicates).bind duplicateRule?).getD standard.options.duplicates }
        verify := given.verify }
    logPath := given.value? .logPath }

/-- Reads a command line. -/
def parse (words : List String) : Except Refusal Arguments :=
  (Given.read {} none words).map ofGiven

end Arguments

end CommandLine
end OpcodeTable
