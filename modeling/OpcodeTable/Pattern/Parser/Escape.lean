import OpcodeTable.Pattern.Parser.Cursor

/-!
# Escapes

What a backslash begins: a character that would otherwise mean something else, a character by its
code point, a class, or an anchor.
-/

set_option autoImplicit false

namespace OpcodeTable
namespace Pattern

/-- The characters that mean something in a pattern. -/
def isMeta (c : Char) : Bool :=
  "\\.+*?()|[]\x7b\x7d^$#&-~".toList.contains c

/-- Whether the character stands for itself behind a backslash. -/
def isEscapable (c : Char) : Bool :=
  isMeta c || c.toNat < 0x80 && !c.isAlphanum && c ≠ '<' && c ≠ '>'

/-- The value of a hexadecimal digit. -/
def hexDigit? (c : Char) : Option Nat :=
  if c.isDigit then some (c.toNat - 0x30)
  else if 'a' ≤ c ∧ c ≤ 'f' then some (c.toNat - 0x57)
  else if 'A' ≤ c ∧ c ≤ 'F' then some (c.toNat - 0x37)
  else none

/-- The character with this code point. -/
def charOfCode? (code : Nat) : Option Char :=
  if code.isValidChar then some (Char.ofNat code) else none

/-- A code point with a fixed number of digits. -/
def fixedCode (free : Bool) : Nat → Nat → Cursor → Reading Nat
  | 0, code, cursor => .ok (code, cursor)
  | count + 1, code, cursor =>
    match cursor.rest with
    | [] => fail .escapeCutOff cursor.emptySpan
    | c :: _ =>
      match hexDigit? c with
      | none => fail .hexInvalidDigit cursor.charSpan
      | some digit => fixedCode free count (16 * code + digit) (cursor.next free)

/-- The digits up to a closing brace, with the cursor at the brace; `brace` is the place of the
opening one.  The first argument bounds the number of digits. -/
def bracedDigits (free : Bool) (brace : Nat) : Nat → List Nat → Cursor → Reading (List Nat)
  | 0, _, cursor => fail .escapeCutOff (cursor.spanFrom brace)
  | bound + 1, digits, cursor =>
    match cursor.rest with
    | [] => fail .escapeCutOff (cursor.spanFrom brace)
    | c :: _ =>
      if c = '}' then .ok (digits.reverse, cursor)
      else
        match hexDigit? c with
        | none => fail .hexInvalidDigit cursor.charSpan
        | some digit => bracedDigits free brace bound (digit :: digits) (cursor.next free)

/-- A character by its code point in braces, with the cursor at the opening one. -/
def bracedCode (free : Bool) (start : Nat) (cursor : Cursor) :
    Except Fault (Atom × Cursor) := do
  let brace := cursor.place
  let (digits, closing) ← bracedDigits free brace (cursor.rest.length + 1) [] (cursor.next free)
  let behind := closing.next free
  if digits = [] then fail .hexEmpty (behind.spanFrom brace)
  else
    match charOfCode? (digits.foldl (16 * · + ·) 0) with
    | none => fail .hexNoCharacter ⟨brace + 1, closing.place⟩
    | some char => .ok (.literal ⟨behind.spanFrom start, char, false⟩, behind)

/-- A character by its code point, with the cursor at the letter that says how many digits there
are. -/
def codeEscape (free : Bool) (start : Nat) (letter : Char) (cursor : Cursor) :
    Except Fault (Atom × Cursor) := do
  let cursor := cursor.next free
  match cursor.rest with
  | [] => fail .escapeCutOff cursor.emptySpan
  | '{' :: _ => bracedCode free start cursor
  | _ =>
    let count := if letter = 'x' then 2 else if letter = 'u' then 4 else 8
    let (code, behind) ← fixedCode free count 0 cursor
    match charOfCode? code with
    | none => fail .hexNoCharacter (behind.spanFrom cursor.place)
    | some char => .ok (.literal ⟨behind.spanFrom start, char, letter = 'x'⟩, behind)

/-- The name up to a closing brace, with the cursor at the brace.  The first argument bounds the
length of the name. -/
def bracedName (free : Bool) : Nat → List Char → Cursor → Reading (List Char)
  | 0, _, cursor => fail .escapeCutOff cursor.emptySpan
  | bound + 1, name, cursor =>
    match cursor.rest with
    | [] => fail .escapeCutOff cursor.emptySpan
    | c :: _ =>
      if c = '}' then .ok (name.reverse, cursor)
      else bracedName free bound (c :: name) (cursor.next free)

/-- The property with this name, or with this name and value. -/
def Property.ofText (text : List Char) : Property :=
  if text.any fun c => c = ':' || c = '=' then .valued else .named (String.ofList text)

/-- A class by a property, with the cursor at the letter `p`. -/
def propertyEscape (free : Bool) (start : Nat) (cursor : Cursor) :
    Except Fault (Atom × Cursor) := do
  let cursor := cursor.next free
  match cursor.rest with
  | [] => fail .escapeCutOff cursor.emptySpan
  | '{' :: _ =>
    let (name, closing) ← bracedName free (cursor.rest.length + 1) [] (cursor.next free)
    let behind := closing.drop 1
    .ok (.property (behind.spanFrom start) (.ofText name), behind)
  | '\\' :: _ => fail .propertyInvalid cursor.charSpan
  | c :: _ =>
    let behind := cursor.next free
    .ok (.property (behind.spanFrom start) (.named (String.ofList [c])), behind)

/-- The edge of a word with this name. -/
def Anchor.ofName? (name : String) : Option Anchor :=
  match name with
  | "start" => some .wordStart
  | "end" => some .wordEnd
  | "start-half" => some .wordStartHalf
  | "end-half" => some .wordEndHalf
  | _ => none

/-- Whether the character can stand in the name of an edge. -/
def isEdgeChar (c : Char) : Bool :=
  c.isAlpha || c = '-'

/-- The characters that can stand in the name of an edge.  The first argument bounds their
number. -/
def edgeName (free : Bool) : Nat → List Char → Cursor → List Char × Cursor
  | 0, name, cursor => (name.reverse, cursor)
  | bound + 1, name, cursor =>
    match cursor.rest with
    | [] => (name.reverse, cursor)
    | c :: _ =>
      if isEdgeChar c then edgeName free bound (c :: name) (cursor.next free)
      else (name.reverse, cursor)

/-- The edge of a word, with the cursor behind `\b`.  What follows in braces is the name of a kind
of edge, or else the count of a repetition, which is left alone. -/
def edgeEscape (free : Bool) (start : Nat) (cursor : Cursor) : Reading Atom :=
  let plain : Reading Atom := .ok (.anchor (cursor.spanFrom start) .wordBoundary, cursor)
  match cursor.rest with
  | '{' :: _ =>
    let inside := cursor.next free
    match inside.rest with
    | [] => fail .wordBoundaryCutOff (inside.spanFrom start)
    | c :: _ =>
      if !isEdgeChar c then plain
      else
        let (name, closing) := edgeName free inside.rest.length [] inside
        if closing.rest.head? = some '}' then
          match Anchor.ofName? (String.ofList name) with
          | none => fail .wordBoundaryUnknown (closing.spanFrom inside.place)
          | some anchor =>
            let behind := closing.drop 1
            .ok (.anchor (behind.spanFrom start) anchor, behind)
        else fail .wordBoundaryUnclosed (closing.spanFrom cursor.place)
  | _ => plain

/-- The class that a letter stands for. -/
def Shorthand.ofLetter? (c : Char) : Option (Bool × Shorthand) :=
  match c with
  | 'd' => some (false, .digit)
  | 'D' => some (true, .digit)
  | 's' => some (false, .space)
  | 'S' => some (true, .space)
  | 'w' => some (false, .word)
  | 'W' => some (true, .word)
  | _ => none

/-- The control character that a letter stands for. -/
def controlOfLetter? (c : Char) : Option Char :=
  match c with
  | 'a' => some '\x07'
  | 'f' => some '\x0c'
  | 't' => some '\t'
  | 'n' => some '\n'
  | 'r' => some '\r'
  | 'v' => some '\x0b'
  | _ => none

/-- The anchor that a character stands for. -/
def Anchor.ofLetter? (c : Char) : Option Anchor :=
  match c with
  | 'A' => some .textStart
  | 'z' => some .textEnd
  | 'B' => some .notWordBoundary
  | '<' => some .wordStart
  | '>' => some .wordEnd
  | _ => none

/-- An escape of one character behind the backslash. -/
def simpleEscape (start : Nat) (c : Char) (behind : Cursor) : Reading Atom :=
  let span := behind.spanFrom start
  if isEscapable c then .ok (.literal ⟨span, c, false⟩, behind)
  else
    match Shorthand.ofLetter? c, controlOfLetter? c, Anchor.ofLetter? c with
    | some (negated, shorthand), _, _ => .ok (.shorthand span negated shorthand, behind)
    | _, some control, _ => .ok (.literal ⟨span, control, false⟩, behind)
    | _, _, some anchor => .ok (.anchor span anchor, behind)
    | _, _, _ => fail .escapeUnknown span

/-- An escape, with the cursor at the backslash. -/
def escape (free : Bool) (cursor : Cursor) : Reading Atom :=
  let start := cursor.place
  let cursor := cursor.drop 1
  match cursor.rest with
  | [] => fail .escapeCutOff (cursor.spanFrom start)
  | c :: _ =>
    if c.isDigit then fail .backreference ⟨start, cursor.place + 1⟩
    else if c = 'x' ∨ c = 'u' ∨ c = 'U' then codeEscape free start c cursor
    else if c = 'p' ∨ c = 'P' then propertyEscape free start cursor
    else if c = 'b' then edgeEscape free start (cursor.drop 1)
    else simpleEscape start c (cursor.drop 1)

end Pattern
end OpcodeTable
