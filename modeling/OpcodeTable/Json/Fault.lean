import OpcodeTable.Json.Value
import OpcodeTable.Text.Quoted
import OpcodeTable.Text.Utf8

/-!
# Faults of a JSON text

What is wrong with a text that cannot be read, and where.  While the text is read a `Fault` says
how many bytes of it are still unread; `Fault.locate` turns that into a line and a column once the
whole text is at hand.  Lines are counted from one and end with a line feed, columns count the
bytes of the line that have been read.
-/

set_option autoImplicit false

namespace OpcodeTable
namespace Json

/-- What a text holds where an array or an object was expected. -/
inductive Found where
  | null
  | boolean (b : Bool)
  | number (n : Number)
  | string (s : String)
  | array
  | object
deriving DecidableEq, Repr

/-- What a value is found to be. -/
def Found.of : Value → Found
  | .null => .null
  | .boolean b => .boolean b
  | .number n => .number n
  | .string s => .string s
  | .array _ => .array
  | .object _ => .object

/-- What was expected of a document or of its items. -/
inductive Expected where
  | array
  | object
deriving DecidableEq, Repr

/-- The ways in which a text can be wrong. -/
inductive Reason where
  | endOfValue
  | endOfArray
  | endOfObject
  | endOfString
  | expectedValue
  | expectedName
  | expectedCommaOrBracket
  | expectedCommaOrBrace
  | expectedColon
  | keyNotAString
  | trailingComma
  | trailingCharacters
  | invalidNumber
  | numberOutOfRange
  | invalidEscape
  | loneSurrogate
  | brokenSurrogatePair
  | controlCharacter
  | tooDeep
  | wrongType (found : Found) (expected : Expected)
deriving DecidableEq, Repr

/-- How the found value is named in a message. -/
def Found.text : Found → String
  | .null => "null"
  | .boolean b => "boolean `" ++ (if b then "true" else "false") ++ "`"
  | .number (.integer n) => "integer `" ++ Number.text (.integer n) ++ "`"
  | .number (.float x) => "floating point `" ++ Number.text (.float x) ++ "`"
  | .string s => "string " ++ quotedText s
  | .array => "sequence"
  | .object => "map"

/-- How the expectation is named in a message. -/
def Expected.text : Expected → String
  | .array => "a sequence"
  | .object => "a map"

/-- The wording of a reason. -/
def Reason.text : Reason → String
  | .endOfValue => "EOF while parsing a value"
  | .endOfArray => "EOF while parsing a list"
  | .endOfObject => "EOF while parsing an object"
  | .endOfString => "EOF while parsing a string"
  | .expectedValue => "expected value"
  | .expectedName => "expected ident"
  | .expectedCommaOrBracket => "expected `,` or `]`"
  | .expectedCommaOrBrace => "expected `,` or `\x7d`"
  | .expectedColon => "expected `:`"
  | .keyNotAString => "key must be a string"
  | .trailingComma => "trailing comma"
  | .trailingCharacters => "trailing characters"
  | .invalidNumber => "invalid number"
  | .numberOutOfRange => "number out of range"
  | .invalidEscape => "invalid escape"
  | .loneSurrogate => "lone leading surrogate in hex escape"
  | .brokenSurrogatePair => "unexpected end of hex escape"
  | .controlCharacter => "control character (\\u0000-\\u001F) found while parsing a string"
  | .tooDeep => "recursion limit exceeded"
  | .wrongType found expected =>
    "invalid type: " ++ found.text ++ ", expected " ++ expected.text

/-- The number of bytes that characters take. -/
def byteCount (text : List Char) : Nat :=
  text.foldr (fun c count => c.utf8Size + count) 0

/-- A reason, and how many bytes of the text are left unread behind the place it is reported at. -/
structure Fault where
  reason : Reason
  unread : Nat
deriving DecidableEq, Repr

/-- The fault is that of what has been read, and `rest` is still unread. -/
def Fault.before (reason : Reason) (rest : List Char) : Fault :=
  ⟨reason, byteCount rest⟩

/-- The fault is that of the first byte of `rest`, which counts as read, or of the end. -/
def Fault.at (reason : Reason) (rest : List Char) : Fault :=
  ⟨reason, byteCount rest - 1⟩

/-- A fault with its place in the text. -/
structure Located where
  reason : Reason
  line : Nat
  column : Nat
deriving DecidableEq, Repr

/-- Finds the line and the column of a fault in its text. -/
def Fault.locate (text : String) (fault : Fault) : Located :=
  let bytes := textBytes text
  let read := bytes.take (bytes.length - fault.unread)
  { reason := fault.reason
    line := 1 + read.count 10
    column := (read.reverse.takeWhile (· ≠ 10)).length }

/-- The message of a fault, with its place. -/
def Located.text (fault : Located) : String :=
  fault.reason.text ++ " at line " ++ toString fault.line ++ " column " ++ toString fault.column

end Json
end OpcodeTable
