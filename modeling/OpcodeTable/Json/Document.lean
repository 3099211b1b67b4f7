import OpcodeTable.Json.Parser.Value

/-!
# Documents

A document is one value with nothing but blanks around it.  Arrays and objects are nested at most
`maxDepth` deep, the outermost one included.
-/

set_option autoImplicit false

namespace OpcodeTable
namespace Json

/-- How deep arrays and objects may be nested. -/
def maxDepth : Nat := 127

namespace Parser

variable {α : Type}

/-- Reads a value and the blanks behind it up to the end of the text. -/
def whole (parser : Parser α) (text : List Char) : Except Fault α :=
  match parser.run text with
  | .error fault => .error fault
  | .ok (value, rest) =>
    match skipBlank rest with
    | [] => .ok value
    | c :: more => .error (.at .trailingCharacters (c :: more))

/-- Reads a whole text. -/
def document (parser : Parser α) (text : String) : Except Located α :=
  match parser.whole text.toList with
  | .error fault => .error (fault.locate text)
  | .ok value => .ok value

end Parser

/-- Reads a value of any kind. -/
def readValue (text : String) : Except Located Value :=
  (Parser.value maxDepth).document text

/-- Reads an object. -/
def readObject (text : String) : Except Located Fields :=
  (Parser.object (.value (maxDepth - 1))).document text

/-- Reads an array of objects. -/
def readObjects (text : String) : Except Located (List Fields) :=
  (Parser.list (.object (.value (maxDepth - 2)))).document text

end Json
end OpcodeTable
