import OpcodeTable.Json.Document
import OpcodeTable.Options
import OpcodeTable.Script

/-!
# Opcode records

A record is an object at some place of the list of records.  One of its fields holds the opcode and
another one may hold a prefix, both as numerals: a marker of two characters, whatever they are, and
then the digits.  The record's key is made of the digits of both, and the record keeps the other
fields.
-/

set_option autoImplicit false

namespace OpcodeTable

open Json

/-- An object and its place in the list of records. -/
structure Record where
  index : Nat
  fields : Fields

/-- The digits of a numeral: what follows the first two characters of a string. -/
def numeral? : Value → Option String
  | .string s =>
    match s.toList with
    | _ :: _ :: digits => some (String.ofList digits)
    | _ => none
  | _ => none

/-- What a value is called in the message of an error. -/
def descriptionOf : Value → String
  | .null => "null"
  | .boolean b => "boolean " ++ (if b then "true" else "false")
  | .number n => "number " ++ n.text
  | .string s => "string " ++ quotedText s
  | .array _ => "array"
  | .object _ => "object"

/-- The digits of the numeral that a field of a record must hold. -/
def numeral (index : Nat) (field : String) (value : Value) : Except Error String :=
  match numeral? value with
  | some digits => .ok digits
  | none => .error (.badNumeral index field (descriptionOf value))

/-- The key made of the digits of a prefix and of an opcode. -/
def tableKey (prefixDigits opcodeDigits : String) : String :=
  "0x" ++ prefixDigits ++ opcodeDigits

/-- Pairs objects with their places. -/
def Record.ofFields (objects : List Fields) : List Record :=
  objects.zipIdx.map fun (fields, index) => ⟨index, fields⟩

/-- Reads a list of records. -/
def Record.parse (text : String) : Except Error (List Record) :=
  match readObjects text with
  | .ok objects => .ok (Record.ofFields objects)
  | .error fault => .error (.malformed fault)

namespace Record

/-- Notes that a field is taken out of a record. -/
def noteRemoval (index : Nat) (field : String) : Script Unit :=
  .note ⟨.trace, .record, "record " ++ toString index ++ ": removed '" ++ field ++ "'"⟩

/-- Takes the numeral fields out of a record and makes its key of them. -/
def toEntry (options : Options) (record : Record) : Script (String × Fields) := do
  match record.fields.find? options.opcodeField with
  | none => Script.fail (.missingField record.index options.opcodeField)
  | some opcode =>
    let opcodeDigits ← Script.done (numeral record.index options.opcodeField opcode)
    noteRemoval record.index options.opcodeField
    let others := record.fields.remove options.opcodeField
    match others.find? options.prefixField with
    | none => return (tableKey "" opcodeDigits, others)
    | some prefixValue =>
      noteRemoval record.index options.prefixField
      let prefixDigits ← Script.done (numeral record.index options.prefixField prefixValue)
      return (tableKey prefixDigits opcodeDigits, others.remove options.prefixField)

/-- Whether two records stand at one place and are equal up to the order of members. -/
def same (first second : Record) : Bool :=
  first.index = second.index && Value.same (.object first.fields) (.object second.fields)

/-- Whether two lists hold the same records in the same order. -/
def sameAll : List Record → List Record → Bool
  | [], [] => true
  | first :: rest, second :: others => first.same second && sameAll rest others
  | _, _ => false

end Record

end OpcodeTable
