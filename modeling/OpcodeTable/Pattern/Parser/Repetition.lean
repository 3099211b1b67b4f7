import OpcodeTable.Pattern.Parser.Cursor

/-!
# Repetitions

How often the part in front of it is repeated: `?`, `*` and `+`, or a count in braces.  A question
mark behind a repetition asks for as few rounds as possible; where a match is only looked for, it
makes no difference.
-/

set_option autoImplicit false

namespace OpcodeTable
namespace Pattern

/-- How often something is repeated. -/
structure Rounds where
  least : Nat
  most : Option Nat
deriving DecidableEq, Repr

/-- What a single character says about the rounds. -/
def Rounds.ofSign? (c : Char) : Option Rounds :=
  match c with
  | '?' => some ⟨0, some 1⟩
  | '*' => some ⟨0, none⟩
  | '+' => some ⟨1, none⟩
  | _ => none

/-- The largest count. -/
def maxCount : Nat := 4294967295

/-- The digits at the cursor.  The first argument bounds their number. -/
def countDigits (free : Bool) : Nat → List Char → Cursor → List Char × Cursor
  | 0, digits, cursor => (digits.reverse, cursor)
  | bound + 1, digits, cursor =>
    match cursor.rest with
    | [] => (digits.reverse, cursor)
    | c :: _ =>
      if c.isDigit then countDigits free bound (c :: digits) (cursor.next free)
      else (digits.reverse, cursor)

/-- The cursor behind white space.  The first argument bounds its length. -/
def skipSpace (free : Bool) : Nat → Cursor → Cursor
  | 0, cursor => cursor
  | bound + 1, cursor =>
    match cursor.rest with
    | [] => cursor
    | c :: _ => if isSpace c then skipSpace free bound (cursor.next free) else cursor

/-- A count with white space around it, or what is wrong with it, and the cursor behind it. -/
def count (free : Bool) (cursor : Cursor) : Except Fault Nat × Cursor :=
  let front := skipSpace false cursor.rest.length cursor
  let (digits, behind) := countDigits free front.rest.length [] front
  let value := digits.foldl (fun n c => 10 * n + (c.toNat - 0x30)) 0
  let span := behind.spanFrom front.place
  (if digits = [] then fail .repetitionCountEmpty span
    else if maxCount < value then fail .decimalInvalid span
    else .ok value,
    skipSpace free behind.rest.length behind)

/-- The counts in braces, with the cursor at the opening one. -/
def countedRounds (free : Bool) (cursor : Cursor) : Except Fault (Rounds × Cursor) := do
  let start := cursor.place
  let unclosed (cursor : Cursor) : Except Fault (Rounds × Cursor) :=
    fail .repetitionUnclosed (cursor.spanFrom start)
  let cursor := cursor.next free
  if cursor.rest = [] then unclosed cursor
  else
    let (low, cursor) := count free cursor
    if cursor.rest = [] then unclosed cursor
    else
      let comma : Bool := cursor.rest.head? = some ','
      let cursor := if comma then cursor.next free else cursor
      if cursor.rest = [] then unclosed cursor
      else
        let least ← low
        let (most, cursor) ←
          if !comma then pure (some least, cursor)
          else if cursor.rest.head? = some '}' then pure (none, cursor)
          else
            let (high, cursor) := count free cursor
            let most ← high
            pure (some most, cursor)
        if cursor.rest.head? ≠ some '}' then unclosed cursor
        else return (⟨least, most⟩, cursor)

end Pattern
end OpcodeTable
