import OpcodeTable.Json.Value

/-!
# Compact JSON text

A value is written without blanks, members in their order.  The text is produced as a list of
*fragments*, the pieces that are handed to a device one after the other: a bracket, a comma or a
colon each by itself, a number or a literal name as a whole, and of a string its quotes, its escapes
and the runs of characters between them.  Only the quote, the backslash and the characters below
`0x20` are escaped.
-/

set_option autoImplicit false

namespace OpcodeTable
namespace Json

/-- The escape that a character is written as, if it may not stand for itself in a string. -/
def escape? (c : Char) : Option String :=
  if c = '"' then some "\\\""
  else if c = '\\' then some "\\\\"
  else if c = '\x08' then some "\\b"
  else if c = '\t' then some "\\t"
  else if c = '\n' then some "\\n"
  else if c = '\x0c' then some "\\f"
  else if c = '\r' then some "\\r"
  else if c.toNat < 0x10 then some ("\\u000" ++ String.ofList (Nat.toDigits 16 c.toNat))
  else if c.toNat < 0x20 then some ("\\u00" ++ String.ofList (Nat.toDigits 16 c.toNat))
  else none

/-- A run of characters that stand for themselves, kept in reverse, as a fragment unless it is
empty. -/
def runFragments (run : List Char) : List String :=
  if run = [] then [] else [String.ofList run.reverse]

/-- The fragments between the quotes, after a run that has not been written yet. -/
def stringBody (run : List Char) : List Char → List String
  | [] => runFragments run
  | c :: rest =>
    match escape? c with
    | some escaped => runFragments run ++ escaped :: stringBody [] rest
    | none => stringBody (c :: run) rest

/-- The fragments of a string. -/
def stringFragments (s : String) : List String :=
  "\"" :: stringBody [] s.toList ++ ["\""]

namespace Value

mutual

/-- The fragments of a value. -/
def fragments : Value → List String
  | .null => ["null"]
  | .boolean b => [if b then "true" else "false"]
  | .number n => [n.text]
  | .string s => stringFragments s
  | .array items => "[" :: itemFragments true items ++ ["]"]
  | .object members => "\x7b" :: memberFragments true members ++ ["\x7d"]

/-- The fragments of array items, each but the first after a comma. -/
def itemFragments (first : Bool) : List Value → List String
  | [] => []
  | item :: rest =>
    (if first then [] else [","]) ++ fragments item ++ itemFragments false rest

/-- The fragments of object members, each but the first after a comma. -/
def memberFragments (first : Bool) : List (String × Value) → List String
  | [] => []
  | (name, value) :: rest =>
    (if first then [] else [","]) ++ stringFragments name ++ ":" :: fragments value
      ++ memberFragments false rest

end

/-- The compact text of a value. -/
def text (value : Value) : String :=
  String.join value.fragments

end Value

end Json
end OpcodeTable
