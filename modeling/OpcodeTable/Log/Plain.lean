/-!
# Plain lines

A line of the log can hold text from elsewhere, and with it characters that would control the
terminal it is shown on.  `plainText` takes them out: control characters that are no blanks, and
sequences that begin with an escape character as a whole, the longer ones up to their end.

A blank inside a sequence is kept, and so is the text behind it up to the next control character,
which takes the sequence up again.
-/

set_option autoImplicit false

namespace OpcodeTable
namespace Log

/-- What the characters being read belong to. -/
inductive Mode where
  | text
  /-- An escape character has been read. -/
  | escape
  /-- An escape character and punctuation have been read. -/
  | intermediate
  /-- A control sequence, which ends with a letter. -/
  | control
  /-- An operating system command, which ends with a bell. -/
  | command
  /-- A device control string has begun. -/
  | device
  /-- The parameters of a device control string. -/
  | parameters
  /-- A device control string, punctuation has been read. -/
  | punctuation
  /-- A device control string that is not well formed; it ends with a string terminator. -/
  | malformed
  /-- A string for a device or an application, which ends with a string terminator. -/
  | string
deriving DecidableEq, Repr

/-- The string terminator as a single byte. -/
def terminator : UInt8 := 0x9c

/-- The mode after a character that is taken out. -/
def Mode.after (mode : Mode) (c : Char) : Mode :=
  if c = '\x1b' then .escape
  else if c = '\x18' ∨ c = '\x1a' then .text
  else
    match mode with
    | .text => .text
    | .escape =>
      if ' ' ≤ c ∧ c ≤ '/' then .intermediate
      else if c = '[' then .control
      else if c = ']' then .command
      else if c = 'P' then .device
      else if c = 'X' ∨ c = '^' ∨ c = '_' then .string
      else if '0' ≤ c ∧ c ≤ '~' then .text
      else .escape
    | .intermediate => if '0' ≤ c ∧ c ≤ '~' then .text else .intermediate
    | .control => if '@' ≤ c ∧ c ≤ '~' then .text else .control
    | .command => if c = '\x07' then .text else .command
    | .device =>
      if ' ' ≤ c ∧ c ≤ '/' then .punctuation
      else if '0' ≤ c ∧ c ≤ '?' then .parameters
      else if '@' ≤ c ∧ c ≤ '~' then .string
      else .device
    | .parameters =>
      if ' ' ≤ c ∧ c ≤ '/' then .punctuation
      else if '<' ≤ c ∧ c ≤ '?' then .malformed
      else if '@' ≤ c ∧ c ≤ '~' then .string
      else .parameters
    | .punctuation =>
      if '0' ≤ c ∧ c ≤ '?' then .malformed
      else if '@' ≤ c ∧ c ≤ '~' then .string
      else .punctuation
    | .malformed => if terminator ∈ String.utf8EncodeChar c then .text else .malformed
    | .string => if terminator ∈ String.utf8EncodeChar c then .text else .string

/-- Whether a control character is a blank. -/
def isControlBlank (c : Char) : Bool :=
  c = '\t' || c = '\n' || c = '\x0c' || c = '\r'

/-- Whether a character controls nothing. -/
def isPlain (c : Char) : Bool :=
  isControlBlank c || ' ' ≤ c && c ≠ '\x7f'

/-- Whether a character is kept where it is the first one after others that are taken out. -/
def Mode.keeps (mode : Mode) (c : Char) : Bool :=
  match mode with
  | .text => isPlain c
  | .escape | .intermediate | .control => isControlBlank c
  | .command | .device | .parameters | .punctuation | .malformed | .string => false

/-- The characters that are kept; `keeping` says that the one before them was. -/
def plain (mode : Mode) (keeping : Bool) : List Char → List Char
  | [] => []
  | c :: rest =>
    if keeping && isPlain c || mode.keeps c then
      c :: plain (if c.toNat < 0x80 then mode else .text) true rest
    else plain (mode.after c) false rest

/-- The text without what would control a terminal. -/
def plainText (text : String) : String :=
  String.ofList (plain .text false text.toList)

end Log
end OpcodeTable
