import OpcodeTable.Error
import OpcodeTable.Json.Document

/-!
# Tables

A converted table as it is read back: objects by key, in the order in which the keys first occur.
A decoder looks an entry up by its numeric code, which is the key's hexadecimal digits.
-/

set_option autoImplicit false

namespace OpcodeTable

open Json

/-- Objects by key. -/
structure Table where
  entries : Members Fields

namespace Table

/-- The objects that the members hold, or the name of the first member that holds none. -/
def entries? : Fields → Except String (Members Fields)
  | [] => .ok []
  | (key, value) :: rest =>
    match value.fields? with
    | none => .error key
    | some fields => (entries? rest).map ((key, fields) :: ·)

/-- Reads a table. -/
def parse (text : String) : Except Error Table :=
  match readObject text with
  | .error fault => .error (.malformed fault)
  | .ok members =>
    match entries? members with
    | .error key => .error (.entryNotObject key)
    | .ok entries => .ok ⟨entries⟩

/-- The keys in order. -/
def keys (table : Table) : List String :=
  table.entries.names

/-- The number of entries. -/
def size (table : Table) : Nat :=
  table.entries.length

/-- The entry with this key. -/
def get? (table : Table) (key : String) : Option Fields :=
  table.entries.find? key

/-- The hexadecimal digits of a code, at least two of them. -/
def codeDigits (code : Nat) : List Char :=
  let digits := Nat.toDigits 16 code
  List.replicate (2 - digits.length) '0' ++ digits

/-- The key of a code, with digits in lower case. -/
def codeKey (code : Nat) : String :=
  "0x" ++ String.ofList (codeDigits code)

/-- The key of a code, with digits in upper case. -/
def upperCodeKey (code : Nat) : String :=
  "0x" ++ String.ofList ((codeDigits code).map Char.toUpper)

/-- The entry with this code; the digits of its key may be all in lower case or all in upper
case. -/
def atCode? (table : Table) (code : UInt16) : Option Fields :=
  (table.get? (codeKey code.toNat)).or (table.get? (upperCodeKey code.toNat))

/-- Whether two tables hold the same entries, whatever the order of members. -/
def same (first second : Table) : Bool :=
  Value.same (.object (first.entries.map fun (key, fields) => (key, .object fields)))
    (.object (second.entries.map fun (key, fields) => (key, .object fields)))

end Table

end OpcodeTable
