import OpcodeTable.Pattern.Fault
import OpcodeTable.Text.Space

/-!
# Cursors

A place in a pattern with the characters from there on.  With free spacing, white space and
comments, which begin with `#` and end with the line, may stand between the parts of a pattern;
`Cursor.next` steps over them where they are allowed.
-/

set_option autoImplicit false

namespace OpcodeTable
namespace Pattern

/-- A place in a pattern, and what stands from there on. -/
structure Cursor where
  place : Nat
  rest : List Char
deriving DecidableEq, Repr

/-- What is read at a cursor, and the cursor behind it. -/
abbrev Reading (α : Type) := Except Fault (α × Cursor)

namespace Cursor

/-- The start of a pattern. -/
def first (pattern : List Char) : Cursor := ⟨0, pattern⟩

/-- The cursor behind so many characters. -/
def drop (cursor : Cursor) (count : Nat) : Cursor :=
  ⟨cursor.place + min count cursor.rest.length, cursor.rest.drop count⟩

/-- The span of the character at the cursor. -/
def charSpan (cursor : Cursor) : Span := .char cursor.place

/-- The empty span at the cursor. -/
def emptySpan (cursor : Cursor) : Span := .at cursor.place

/-- The span from a place up to the cursor. -/
def spanFrom (cursor : Cursor) (start : Nat) : Span := ⟨start, cursor.place⟩

/-- The cursor behind white space and comments. -/
def skipFrom (comment : Bool) (place : Nat) : List Char → Cursor
  | [] => ⟨place, []⟩
  | c :: rest =>
    if comment then skipFrom (c ≠ '\n') (place + 1) rest
    else if isSpace c then skipFrom false (place + 1) rest
    else if c = '#' then skipFrom true (place + 1) rest
    else ⟨place, c :: rest⟩

/-- The cursor behind what may stand between two parts. -/
def skip (free : Bool) (cursor : Cursor) : Cursor :=
  if free then skipFrom false cursor.place cursor.rest else cursor

/-- The cursor at the part behind the character at the cursor. -/
def next (free : Bool) (cursor : Cursor) : Cursor :=
  (cursor.drop 1).skip free

/-- The first character that is no white space, but for the sign that begins a comment. -/
def peekFrom (comment : Bool) : List Char → Option Char
  | [] => none
  | c :: rest =>
    if isSpace c then peekFrom comment rest
    else if !comment && c = '#' then peekFrom true rest
    else some c

/-- The character that comes next behind the one at the cursor, as far as can be told without
reading a comment to its end. -/
def peek (free : Bool) (cursor : Cursor) : Option Char :=
  let behind := cursor.rest.drop 1
  if free then (peekFrom false behind).or behind.head? else behind.head?

end Cursor

/-- A fault at a place, with nothing else to look at. -/
def fail {α : Type} (reason : Reason) (span : Span) : Except Fault α :=
  .error { reason, span }

end Pattern
end OpcodeTable
