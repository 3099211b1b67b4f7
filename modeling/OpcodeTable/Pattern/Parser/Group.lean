import OpcodeTable.Pattern.Parser.Cursor
import OpcodeTable.Text.Letter

/-!
# The fronts of groups

What stands behind an opening parenthesis before the group itself: a name, or flags.  Flags without
a group are written `(?…)` and hold up to the end of the group around them.
-/

set_option autoImplicit false

namespace OpcodeTable
namespace Pattern

/-- A name of a group, and where it stands. -/
structure GroupName where
  name : String
  span : Span
deriving DecidableEq, Repr

/-- What an opening parenthesis begins. -/
inductive Front where
  /-- Flags that hold from here on. -/
  | toggles (ts : List Toggle)
  /-- A group with these flags, and perhaps a name. -/
  | group (ts : List Toggle) (name : Option GroupName)
deriving DecidableEq, Repr

/-- The flag that a letter stands for. -/
def Flag.ofLetter? (c : Char) : Option Flag :=
  match c with
  | 'i' => some .ignoreCase
  | 'm' => some .multiLine
  | 's' => some .dotMatchesNewline
  | 'U' => some .swapGreed
  | 'u' => some .unicode
  | 'R' => some .crlf
  | 'x' => some .freeSpacing
  | _ => none

/-- What has been read of some flags. -/
structure FlagsRead where
  toggles : List Toggle
  /-- Where each of the flags stands, in reverse. -/
  spans : List (Flag × Span)
  /-- Where the hyphen stands. -/
  hyphen : Option Span
  /-- Whether the hyphen is what was read last. -/
  dangling : Bool
deriving DecidableEq, Repr

/-- Flags up to a colon or a closing parenthesis; those behind a hyphen are switched off. -/
def flags (read : FlagsRead) (place : Nat) : List Char → Except Fault (List Toggle × Cursor)
  | [] => fail .flagCutOff (.at place)
  | c :: rest =>
    let span := Span.char place
    if c = ':' ∨ c = ')' then
      match read.hyphen with
      | some hyphen =>
        if read.dangling then fail .flagDanglingNegation hyphen
        else .ok (read.toggles.reverse, ⟨place, c :: rest⟩)
      | none => .ok (read.toggles.reverse, ⟨place, c :: rest⟩)
    else if c = '-' then
      match read.hyphen with
      | some hyphen => .error ⟨.flagRepeatedNegation, span, some hyphen⟩
      | none => flags { read with hyphen := some span, dangling := true } (place + 1) rest
    else
      match Flag.ofLetter? c with
      | none => fail .flagUnknown span
      | some flag =>
        match read.spans.lookup flag with
        | some before => .error ⟨.flagDuplicate, span, some before⟩
        | none =>
          let toggle : Toggle := ⟨flag, read.hyphen.isNone⟩
          flags
            { read with
              toggles := toggle :: read.toggles
              spans := (flag, span) :: read.spans
              dangling := false }
            (place + 1) rest

/-- Whether a character can stand in the name of a group. -/
def isNameChar (first : Bool) (c : Char) : Bool :=
  if first then c = '_' || isLetter c
  else c = '_' || c = '.' || c = '[' || c = ']' || isLetterOrNumeral c

/-- The characters of a name up to the closing angle bracket, with the cursor behind it. -/
def nameChars (name : List Char) (place : Nat) : List Char → Except Fault (List Char × Cursor)
  | [] => fail .groupNameCutOff (.at place)
  | c :: rest =>
    if c = '>' then .ok (name.reverse, ⟨place + 1, rest⟩)
    else if isNameChar name.isEmpty c then nameChars (c :: name) (place + 1) rest
    else fail .groupNameCharacter (.char place)

/-- A name that none of the groups before has. -/
def groupName (names : List GroupName) (cursor : Cursor) :
    Except Fault (GroupName × Cursor) := do
  let (chars, behind) ← nameChars [] cursor.place cursor.rest
  let span : Span := ⟨cursor.place, cursor.place + chars.length⟩
  let name := String.ofList chars
  if chars = [] then fail .groupNameEmpty span
  else
    match names.find? (·.name = name) with
    | some before => .error ⟨.groupNameDuplicate, span, some before.span⟩
    | none => return (⟨name, span⟩, behind)

/-- Looking around is not possible, and so it is refused; this many characters ask for it. -/
def lookAround? (text : List Char) : Option Nat :=
  match text with
  | '?' :: '=' :: _ | '?' :: '!' :: _ => some 2
  | '?' :: '<' :: '=' :: _ | '?' :: '<' :: '!' :: _ => some 3
  | _ => none

/-- The front of a group, with the cursor at the parenthesis. -/
def front (free : Bool) (names : List GroupName) (cursor : Cursor) :
    Except Fault (Front × Cursor) := do
  let opening := cursor.charSpan
  let inside := cursor.next free
  if let some length := lookAround? inside.rest then
    fail .lookAround ((inside.drop length).spanFrom opening.start)
  else
    match inside.rest with
    | '?' :: 'P' :: '<' :: _ =>
      let (name, behind) ← groupName names (inside.drop 3)
      return (.group [] (some name), behind)
    | '?' :: '<' :: _ =>
      let (name, behind) ← groupName names (inside.drop 2)
      return (.group [] (some name), behind)
    | '?' :: rest =>
      if rest = [] then fail .groupUnclosed opening
      else
        let (ts, closing) ← flags ⟨[], [], none, false⟩ (inside.place + 1) rest
        let behind := closing.drop 1
        if closing.rest.head? = some ':' then return (.group ts none, behind)
        else if ts = [] then fail .repetitionOfNothing inside.emptySpan
        else return (.toggles ts, behind)
    | _ => return (.group [] none, inside)

end Pattern
end OpcodeTable
