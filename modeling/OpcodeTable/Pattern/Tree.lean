/-!
# Patterns as they are written

The parts of a pattern with their places in it, before it is known what they mean: the flags that
are in force decide that, and they can change inside the pattern.

## What is here

* `Span`, `Literal` and `Atom`, what a pattern is made of.
* `SetTree`, what stands between square brackets.
* `Tree`, the pattern as a whole.
* `Tree.tooDeep?` finds a part that is nested too deeply.
-/

set_option autoImplicit false

namespace OpcodeTable
namespace Pattern

/-- A part of the pattern, from one character up to another, counted from the first one. -/
structure Span where
  start : Nat
  stop : Nat
deriving DecidableEq, Repr

/-- The empty span at a place. -/
def Span.at (place : Nat) : Span := ⟨place, place⟩

/-- The span of the character at a place. -/
def Span.char (place : Nat) : Span := ⟨place, place + 1⟩

/-- A character that stands for itself. -/
structure Literal where
  span : Span
  char : Char
  /-- Whether it is written with `\x` and two digits, which is how a byte is written. -/
  isByte : Bool
deriving DecidableEq, Repr

/-- The settings that a flag switches on or off. -/
inductive Flag where
  | ignoreCase
  | multiLine
  | dotMatchesNewline
  | swapGreed
  | unicode
  | crlf
  | freeSpacing
deriving DecidableEq, Repr

/-- A flag that is switched on or off. -/
structure Toggle where
  flag : Flag
  on : Bool
deriving DecidableEq, Repr

/-- What is asked of a position, as it is written. -/
inductive Anchor where
  | caret
  | dollar
  | textStart
  | textEnd
  | wordBoundary
  | notWordBoundary
  | wordStart
  | wordEnd
  | wordStartHalf
  | wordEndHalf
deriving DecidableEq, Repr

/-- The classes with a letter of their own. -/
inductive Shorthand where
  | digit
  | space
  | word
deriving DecidableEq, Repr

/-- The classes with a name in brackets. -/
inductive NamedClass where
  | alnum
  | alpha
  | ascii
  | blank
  | cntrl
  | digit
  | graph
  | lower
  | print
  | punct
  | space
  | upper
  | word
  | xdigit
deriving DecidableEq, Repr

/-- A character property: by its name, or by its name and a value. -/
inductive Property where
  | named (name : String)
  | valued
deriving DecidableEq, Repr

/-- The smallest parts. -/
inductive Atom where
  | literal (l : Literal)
  | dot (span : Span)
  | anchor (span : Span) (a : Anchor)
  | property (span : Span) (p : Property)
  | shorthand (span : Span) (negated : Bool) (s : Shorthand)
deriving DecidableEq, Repr

/-- Where an atom stands. -/
def Atom.span : Atom → Span
  | .literal l => l.span
  | .dot span | .anchor span _ | .property span _ | .shorthand span _ _ => span

/-- The operations on sets. -/
inductive SetOperator where
  | intersection
  | difference
  | symmetricDifference
deriving DecidableEq, Repr

/-- What stands between square brackets. -/
inductive SetTree where
  | empty (span : Span)
  | literal (l : Literal)
  | range (span : Span) (first last : Literal)
  | named (span : Span) (negated : Bool) (name : NamedClass)
  | property (span : Span) (p : Property)
  | shorthand (span : Span) (negated : Bool) (s : Shorthand)
  | bracketed (span : Span) (negated : Bool) (inner : SetTree)
  | union (span : Span) (items : List SetTree)
  | operation (span : Span) (operator : SetOperator) (left right : SetTree)

/-- Where a set stands. -/
def SetTree.span : SetTree → Span
  | .literal l => l.span
  | .empty span | .range span _ _ | .named span _ _ | .property span _ | .shorthand span _ _
  | .bracketed span _ _ | .union span _ | .operation span _ _ _ => span

/-- A pattern. -/
inductive Tree where
  | empty (span : Span)
  /-- Flags that hold up to the end of the group. -/
  | toggles (span : Span) (ts : List Toggle)
  | atom (a : Atom)
  | bracketed (span : Span) (negated : Bool) (inner : SetTree)
  | repetition (span : Span) (least : Nat) (most : Option Nat) (inner : Tree)
  /-- A group, and the flags that hold inside it. -/
  | group (span : Span) (ts : List Toggle) (inner : Tree)
  | alternation (span : Span) (branches : List Tree)
  | concatenation (span : Span) (parts : List Tree)

/-- Where a pattern stands. -/
def Tree.span : Tree → Span
  | .atom a => a.span
  | .empty span | .toggles span _ | .bracketed span _ _ | .repetition span _ _ _ | .group span _ _
  | .alternation span _ | .concatenation span _ => span

/-- The items of a set as one set. -/
def SetTree.ofItems (span : Span) : List SetTree → SetTree
  | [] => .empty span
  | [item] => item
  | item :: items => .union ⟨item.span.start, ((item :: items).getLast?.getD item).span.stop⟩
      (item :: items)

/-- The parts of a branch as one pattern. -/
def Tree.ofParts (span : Span) : List Tree → Tree
  | [] => .empty span
  | [part] => part
  | parts => .concatenation span parts

/-- The branches of a group as one pattern. -/
def Tree.ofBranches (span : Span) : List Tree → Tree
  | [] => .empty span
  | [branch] => branch
  | branches => .alternation span branches

/-- How deeply patterns may be nested. -/
def maxDepth : Nat := 250

mutual

/-- The first part of a set that is nested more deeply than there is room for. -/
def SetTree.tooDeep? (room : Nat) : SetTree → Option Span
  | .bracketed span _ inner =>
    match room with
    | 0 => some span
    | room + 1 => inner.tooDeep? room
  | .union span items =>
    match room with
    | 0 => some span
    | room + 1 => SetTree.anyTooDeep? room items
  | .operation span _ left right =>
    match room with
    | 0 => some span
    | room + 1 => (left.tooDeep? room).or (right.tooDeep? room)
  | _ => none

/-- The first part of some sets that is nested more deeply than there is room for. -/
def SetTree.anyTooDeep? (room : Nat) : List SetTree → Option Span
  | [] => none
  | item :: items => (item.tooDeep? room).or (SetTree.anyTooDeep? room items)

end

mutual

/-- The first part of a pattern that is nested more deeply than there is room for. -/
def Tree.tooDeep? (room : Nat) : Tree → Option Span
  | .empty _ | .toggles _ _ | .atom _ => none
  | .bracketed span _ inner =>
    match room with
    | 0 => some span
    | room + 1 => inner.tooDeep? room
  | .repetition span _ _ inner | .group span _ inner =>
    match room with
    | 0 => some span
    | room + 1 => inner.tooDeep? room
  | .alternation span trees | .concatenation span trees =>
    match room with
    | 0 => some span
    | room + 1 => Tree.anyTooDeep? room trees

/-- The first part of some patterns that is nested more deeply than there is room for. -/
def Tree.anyTooDeep? (room : Nat) : List Tree → Option Span
  | [] => none
  | tree :: trees => (tree.tooDeep? room).or (Tree.anyTooDeep? room trees)

end

end Pattern
end OpcodeTable
