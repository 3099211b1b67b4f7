import OpcodeTable.Pattern.Parser.Escape

/-!
# Sets in brackets

Reads what stands between square brackets: characters, ranges, classes, further sets in brackets,
and the operations `&&`, `--` and `~~`, which all bind alike and to the left.

A bracket that is never closed is reported at the innermost one that is open.
-/

set_option autoImplicit false

namespace OpcodeTable
namespace Pattern

/-- The class with this name. -/
def NamedClass.ofName? (name : String) : Option NamedClass :=
  match name with
  | "alnum" => some .alnum
  | "alpha" => some .alpha
  | "ascii" => some .ascii
  | "blank" => some .blank
  | "cntrl" => some .cntrl
  | "digit" => some .digit
  | "graph" => some .graph
  | "lower" => some .lower
  | "print" => some .print
  | "punct" => some .punct
  | "space" => some .space
  | "upper" => some .upper
  | "word" => some .word
  | "xdigit" => some .xdigit
  | _ => none

/-- A class by its name between colons, with the cursor at the bracket, if there is one. -/
def namedClass? (cursor : Cursor) : Option (SetTree × Cursor) :=
  match cursor.rest with
  | '[' :: ':' :: inside =>
    let negated : Bool := inside.head? = some '^'
    let inside := if negated then inside.drop 1 else inside
    let name := inside.takeWhile (· ≠ ':')
    let behind := cursor.drop (2 + negated.toNat + name.length + 2)
    match inside.dropWhile (· ≠ ':') with
    | ':' :: ']' :: _ =>
      (NamedClass.ofName? (String.ofList name)).map fun c =>
        (.named (behind.spanFrom cursor.place) negated c, behind)
    | _ => none
  | _ => none

/-- An atom where a set can hold it. -/
def Atom.asItem : Atom → Except Fault SetTree
  | .literal l => .ok (.literal l)
  | .property span p => .ok (.property span p)
  | .shorthand span negated s => .ok (.shorthand span negated s)
  | .dot span | .anchor span _ => fail .classEscape span

/-- An atom at the end of a range. -/
def Atom.asBoundary : Atom → Except Fault Literal
  | .literal l => .ok l
  | atom => fail .classRangeBoundary atom.span

/-- A character or an escape between brackets. -/
def setAtom (free : Bool) (cursor : Cursor) : Reading Atom :=
  match cursor.rest with
  | '\\' :: _ => escape free cursor
  | c :: _ => .ok (.literal ⟨cursor.charSpan, c, false⟩, cursor.drop 1)
  | [] => fail .escapeCutOff cursor.emptySpan

/-- A character, a class or a range, inside the bracket that was opened at `opening`. -/
def setRange (free : Bool) (opening : Span) (cursor : Cursor) :
    Except Fault (SetTree × Cursor) := do
  let (first, cursor) ← setAtom free cursor
  let cursor := cursor.skip free
  match cursor.rest with
  | [] => fail .classUnclosed opening
  | c :: _ =>
    let following := cursor.peek free
    if c ≠ '-' ∨ following = some ']' ∨ following = some '-' then
      let item ← first.asItem
      return (item, cursor)
    else
      let cursor := cursor.next free
      if cursor.rest = [] then fail .classUnclosed opening
      else
        let (last, cursor) ← setAtom free cursor
        let span : Span := ⟨first.span.start, last.span.stop⟩
        let low ← first.asBoundary
        let high ← last.asBoundary
        if high.char < low.char then fail .classRangeOrder span
        else return (.range span low high, cursor)

/-- A bracket that has been opened. -/
structure Opening where
  span : Span
  negated : Bool
  /-- The hyphens, or the closing bracket, that stand for themselves at the front. -/
  items : List SetTree

/-- The hyphens at the front of a set.  The first argument bounds their number. -/
def frontHyphens (free : Bool) (start : Nat) : Nat → List SetTree → Cursor →
    Reading (List SetTree)
  | 0, items, cursor => .ok (items.reverse, cursor)
  | bound + 1, items, cursor =>
    match cursor.rest with
    | '-' :: _ =>
      let behind := cursor.next free
      if behind.rest = [] then fail .classUnclosed (.at start)
      else frontHyphens free start bound (.literal ⟨cursor.charSpan, '-', false⟩ :: items) behind
    | _ => .ok (items.reverse, cursor)

/-- Opens a bracket, with the cursor at it. -/
def openBracket (free : Bool) (cursor : Cursor) : Except Fault (Opening × Cursor) := do
  let start := cursor.place
  let cursor := cursor.next free
  if cursor.rest = [] then fail .classUnclosed (cursor.spanFrom start)
  else
    let negated : Bool := cursor.rest.head? = some '^'
    let cursor := if negated then cursor.next free else cursor
    if cursor.rest = [] then fail .classUnclosed (cursor.spanFrom start)
    else
      let (items, cursor) ← frontHyphens free start cursor.rest.length [] cursor
      if items.isEmpty && cursor.rest.head? = some ']' then
        let behind := cursor.next free
        if behind.rest = [] then fail .classUnclosed (behind.spanFrom start)
        else
          return (⟨behind.spanFrom start, negated, [.literal ⟨cursor.charSpan, ']', false⟩]⟩,
            behind)
      else return (⟨cursor.spanFrom start, negated, items⟩, cursor)

/-- The operation that begins with two equal characters. -/
def SetOperator.ofPair? (c d : Char) : Option SetOperator :=
  if c ≠ d then none
  else if c = '&' then some .intersection
  else if c = '-' then some .difference
  else if c = '~' then some .symmetricDifference
  else none

/-- What stands to the left of an operation, with the operation. -/
abbrev Pending := Option (SetOperator × SetTree)

/-- The operation with its right side. -/
def Pending.close (pending : Pending) (right : SetTree) : SetTree :=
  match pending with
  | none => right
  | some (operator, left) =>
    .operation ⟨left.span.start, right.span.stop⟩ operator left right

/-- The items of an open bracket up to the closing one; those before the cursor are given in
reverse, and `front` is where they begin.  The first argument bounds the number of items. -/
def setItems (free : Bool) : Nat → Opening → Pending → Span → List SetTree → Cursor →
    Except Fault (SetTree × Cursor)
  | 0, opening, _, _, _, _ => fail .classUnclosed opening.span
  | bound + 1, opening, pending, front, items, cursor => do
    let cursor := cursor.skip free
    let closed := pending.close (.ofItems front items.reverse)
    match cursor.rest with
    | [] => fail .classUnclosed opening.span
    | '[' :: _ =>
      match namedClass? cursor with
      | some (item, behind) => setItems free bound opening pending front (item :: items) behind
      | none =>
        let (inner, behind) ← openBracket free cursor
        let (item, behind) ←
          setItems free bound inner none behind.emptySpan inner.items.reverse behind
        setItems free bound opening pending front (item :: items) behind
    | ']' :: _ =>
      let behind := cursor.drop 1
      return (.bracketed (behind.spanFrom opening.span.start) opening.negated closed, behind)
    | c :: rest =>
      match rest.head?.bind (SetOperator.ofPair? c) with
      | some operator =>
        let behind := cursor.drop 2
        setItems free bound opening (some (operator, closed)) behind.emptySpan [] behind
      | none =>
        let (item, behind) ← setRange free opening.span cursor
        setItems free bound opening pending front (item :: items) behind

/-- A set in brackets, with the cursor at the opening one. -/
def bracket (free : Bool) (cursor : Cursor) : Except Fault (SetTree × Cursor) := do
  let (opening, behind) ← openBracket free cursor
  setItems free (behind.rest.length + 1) opening none behind.emptySpan opening.items.reverse behind

end Pattern
end OpcodeTable
