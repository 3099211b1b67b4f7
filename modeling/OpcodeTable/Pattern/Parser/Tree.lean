import OpcodeTable.Pattern.Parser.Bracket
import OpcodeTable.Pattern.Parser.Group
import OpcodeTable.Pattern.Parser.Repetition

/-!
# Reading patterns

`Tree.read` reads a pattern as a whole.  A group that is never closed is reported at the innermost
one that is open, and what is nested too deeply only when the pattern can be read to its end.
-/

set_option autoImplicit false

namespace OpcodeTable
namespace Pattern

/-- What is in force at a place. -/
structure Scope where
  /-- Whether white space and comments may stand between the parts. -/
  free : Bool
  /-- The names of the groups so far. -/
  names : List GroupName
deriving DecidableEq, Repr

/-- Whether white space is free after some flags. -/
def spacing (free : Bool) (ts : List Toggle) : Bool :=
  ((ts.find? (·.flag = .freeSpacing)).map (·.on)).getD free

/-- A part of a pattern that is one atom. -/
def atom (free : Bool) (cursor : Cursor) : Reading Atom :=
  match cursor.rest with
  | '\\' :: _ => escape free cursor
  | '.' :: _ => .ok (.dot cursor.charSpan, cursor.drop 1)
  | '^' :: _ => .ok (.anchor cursor.charSpan .caret, cursor.drop 1)
  | '$' :: _ => .ok (.anchor cursor.charSpan .dollar, cursor.drop 1)
  | _ => setAtom free cursor

/-- The part in front of a repetition, and the parts before it, which are given in reverse. -/
def repeatable (cursor : Cursor) : List Tree → Except Fault (Tree × List Tree)
  | [] | .empty _ :: _ | .toggles _ _ :: _ => fail .repetitionOfNothing cursor.emptySpan
  | part :: parts => .ok (part, parts)

/-- A repetition of the last one of some parts, with the cursor at the sign for it. -/
def signed (rounds : Rounds) (parts : List Tree) (cursor : Cursor) :
    Except Fault (List Tree × Cursor) := do
  let (part, parts) ← repeatable cursor parts
  let behind := cursor.drop (if cursor.rest[1]? = some '?' then 2 else 1)
  return (.repetition (behind.spanFrom part.span.start) rounds.least rounds.most part :: parts,
    behind)

/-- A repetition of the last one of some parts, with the cursor at the opening brace. -/
def counted (free : Bool) (parts : List Tree) (cursor : Cursor) :
    Except Fault (List Tree × Cursor) := do
  let (part, parts) ← repeatable cursor parts
  let (rounds, closing) ← countedRounds free cursor
  let behind := closing.next free
  let behind := if behind.rest.head? = some '?' then behind.drop 1 else behind
  if rounds.most.any (· < rounds.least) then fail .repetitionOrder (behind.spanFrom cursor.place)
  else
    return (.repetition (behind.spanFrom part.span.start) rounds.least rounds.most part :: parts,
      behind)

/-- The branches of a group that are read. -/
structure Branches where
  /-- Where the first one begins. -/
  start : Nat
  /-- The branches that are complete, in reverse. -/
  complete : List Tree
  /-- Where the last one begins. -/
  last : Nat
  /-- The parts of the last one, in reverse. -/
  parts : List Tree

/-- No branch yet. -/
def Branches.at (place : Nat) : Branches := ⟨place, [], place, []⟩

/-- The last branch, when it ends at a place. -/
def Branches.branch (branches : Branches) (stop : Nat) : Tree :=
  .ofParts ⟨branches.last, stop⟩ branches.parts.reverse

/-- The branches as one pattern, when the group ends at a place. -/
def Branches.tree (branches : Branches) (stop : Nat) : Tree :=
  .ofBranches ⟨branches.start, stop⟩ (branches.branch stop :: branches.complete).reverse

/-- The branches with another one begun. -/
def Branches.split (branches : Branches) (stop : Nat) : Branches :=
  { branches with
    complete := branches.branch stop :: branches.complete, last := stop + 1, parts := [] }

/-- Reads up to the end of the pattern, or up to the parenthesis that closes the group.  The first
argument bounds the number of parts, each of which takes at least one character. -/
def branches (inGroup : Bool) : Nat → Scope → Branches → Cursor →
    Except Fault (Tree × List GroupName × Cursor)
  | 0, scope, read, cursor => .ok (read.tree cursor.place, scope.names, cursor)
  | bound + 1, scope, read, cursor => do
    let cursor := cursor.skip scope.free
    let add (added : List Tree × Cursor) :=
      branches inGroup bound scope { read with parts := added.1 } added.2
    match cursor.rest with
    | [] => return (read.tree cursor.place, scope.names, cursor)
    | ')' :: _ =>
      if inGroup then return (read.tree cursor.place, scope.names, cursor)
      else fail .groupUnopened cursor.charSpan
    | '|' :: _ => branches inGroup bound scope (read.split cursor.place) (cursor.drop 1)
    | '(' :: _ =>
      let (beginning, inside) ← front scope.free scope.names cursor
      match beginning with
      | .toggles ts =>
        let toggles : Tree := .toggles (inside.spanFrom cursor.place) ts
        branches inGroup bound { scope with free := spacing scope.free ts }
          { read with parts := toggles :: read.parts } inside
      | .group ts name =>
        let (tree, names, closing) ←
          branches true bound ⟨spacing scope.free ts, name.toList ++ scope.names⟩
            (.at inside.place) inside
        if closing.rest = [] then fail .groupUnclosed cursor.charSpan
        else
          let behind := closing.drop 1
          let group : Tree := .group (behind.spanFrom cursor.place) ts tree
          branches inGroup bound { scope with names }
            { read with parts := group :: read.parts } behind
    | '[' :: _ =>
      let (set, behind) ← bracket scope.free cursor
      let part : Tree :=
        match set with
        | .bracketed span negated inner => .bracketed span negated inner
        | set => .bracketed set.span false set
      add (part :: read.parts, behind)
    | '{' :: _ => add (← counted scope.free read.parts cursor)
    | c :: _ =>
      match Rounds.ofSign? c with
      | some rounds => add (← signed rounds read.parts cursor)
      | none =>
        let (a, behind) ← atom scope.free cursor
        add (.atom a :: read.parts, behind)

/-- Reads a pattern. -/
def Tree.read (pattern : String) : Except Fault Tree := do
  let text := pattern.toList
  let (tree, _, _) ← branches false (text.length + 1) ⟨false, []⟩ (.at 0) (.first text)
  match tree.tooDeep? maxDepth with
  | some span => fail .tooDeep span
  | none => return tree

end Pattern
end OpcodeTable
