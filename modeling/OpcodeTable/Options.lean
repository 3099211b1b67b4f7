/-!
# Options of a conversion
-/

set_option autoImplicit false

namespace OpcodeTable

/-- What to do with a record whose key an earlier record has. -/
inductive DuplicateRule where
  /-- The conversion fails. -/
  | reject
  /-- Both entries are written, and a reader keeps the later one. -/
  | overwrite
deriving DecidableEq, Repr

/-- Which fields of a record its key is made of, and what to do with duplicates. -/
structure Options where
  opcodeField : String := "opcode"
  prefixField : String := "prefix"
  duplicates : DuplicateRule := .reject
deriving DecidableEq, Repr

end OpcodeTable
