import OpcodeTable.Json.Printer

/-!
# The text of a table

A table is written as one JSON object, an entry at a time, with nothing between what belongs to the
entries but a comma.
-/

set_option autoImplicit false

namespace OpcodeTable
namespace TableText

open Json

/-- What stands before the first entry. -/
def opening : String := "\x7b"

/-- What stands behind the last entry. -/
def closing : String := "\x7d"

/-- The fragments of an entry, with a comma before it unless it is the first. -/
def entry (first : Bool) (key : String) (value : Value) : List String :=
  (if first then [] else [","]) ++ stringFragments key ++ ":" :: value.fragments

end TableText
end OpcodeTable
