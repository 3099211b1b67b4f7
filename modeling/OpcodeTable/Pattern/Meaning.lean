import OpcodeTable.Pattern.Expr
import OpcodeTable.Pattern.Parser.Cursor

/-!
# The meaning of a pattern

What a pattern means under the flags that are in force.  A pattern is about characters of all
scripts, unless the flag `u` is switched off; but tables of the letters, digits and cases of all
scripts are not at hand, so that what needs one is refused.  Without the flag `u` a pattern is about
bytes, and what could match a part of a character only is refused as well.

Flags are handed on from part to part, since a flag that stands alone holds up to the end of its
group.
-/

set_option autoImplicit false

namespace OpcodeTable
namespace Pattern

/-- The flags that change what a pattern means. -/
structure Mode where
  ignoreCase : Bool := false
  multiLine : Bool := false
  dotMatchesNewline : Bool := false
  crlf : Bool := false
  unicode : Bool := true
deriving DecidableEq, Repr

/-- The mode with a flag switched. -/
def Mode.switch (mode : Mode) (toggle : Toggle) : Mode :=
  match toggle.flag with
  | .ignoreCase => { mode with ignoreCase := toggle.on }
  | .multiLine => { mode with multiLine := toggle.on }
  | .dotMatchesNewline => { mode with dotMatchesNewline := toggle.on }
  | .crlf => { mode with crlf := toggle.on }
  | .unicode => { mode with unicode := toggle.on }
  | .swapGreed | .freeSpacing => mode

/-- The mode with some flags switched. -/
def Mode.switchAll (mode : Mode) (toggles : List Toggle) : Mode :=
  toggles.foldl Mode.switch mode

/-- The characters of a class with a name. -/
def NamedClass.set : NamedClass → CharSet
  | .alnum => .ofRanges [(0x30, 0x39), (0x41, 0x5a), (0x61, 0x7a)]
  | .alpha => .ofRanges [(0x41, 0x5a), (0x61, 0x7a)]
  | .ascii => .range 0 0x7f
  | .blank => .ofRanges [(0x09, 0x09), (0x20, 0x20)]
  | .cntrl => .ofRanges [(0, 0x1f), (0x7f, 0x7f)]
  | .digit => .range 0x30 0x39
  | .graph => .range 0x21 0x7e
  | .lower => .range 0x61 0x7a
  | .print => .range 0x20 0x7e
  | .punct => .ofRanges [(0x21, 0x2f), (0x3a, 0x40), (0x5b, 0x60), (0x7b, 0x7e)]
  | .space => .ofRanges [(0x09, 0x0d), (0x20, 0x20)]
  | .upper => .range 0x41 0x5a
  | .word => .ofRanges [(0x30, 0x39), (0x41, 0x5a), (0x5f, 0x5f), (0x61, 0x7a)]
  | .xdigit => .ofRanges [(0x30, 0x39), (0x41, 0x46), (0x61, 0x66)]

/-- The characters of a class with a letter, among those of ASCII. -/
def Shorthand.set : Shorthand → CharSet
  | .digit => NamedClass.set .digit
  | .space => NamedClass.set .space
  | .word => NamedClass.set .word

/-- The name of a property without what does not matter in it: case, spaces, hyphens, underscores
and an `is` in front. -/
def plainName (name : String) : String :=
  let chars := name.toList
  let front := String.ofList ((chars.take 2).map Char.toLower)
  let chars := if front = "is" then chars.drop 2 else chars
  String.ofList ((chars.filter fun c =>
    c ≠ ' ' ∧ c ≠ '_' ∧ c ≠ '-' ∧ c.toNat < 0x80).map Char.toLower)

/-- Why a property cannot be used.  Three names are those of a property and of a value, and are
looked for among the values. -/
def Property.reason (mode : Mode) : Property → Reason
  | .valued => if mode.unicode then .propertyUnknown else .wideNotAllowed
  | .named name =>
    if !mode.unicode then .wideNotAllowed
    else if ["cf", "sc", "lc"].contains (plainName name) then .propertyValueUnknown
    else .propertyUnknown

/-- A set about bytes, if it holds none that is a part of a character.  Such a set is made of ASCII
characters, so that all other bytes are in it if one is. -/
def asciiOnly (span : Span) (set : CharSet) : Except Fault CharSet :=
  if set.has 0x80 then fail .invalidUtf8 span else .ok set

/-- The code point of a character in a set. -/
def Literal.code (mode : Mode) (l : Literal) : Except Fault Nat :=
  let code := l.char.toNat
  if mode.unicode ∨ code < 0x80 then .ok code
  else if l.isByte then fail .invalidUtf8 l.span
  else fail .wideNotAllowed l.span

/-- A class with a letter. -/
def Shorthand.meaning (mode : Mode) (span : Span) (negated : Bool) (s : Shorthand) :
    Except Fault CharSet :=
  if mode.unicode then fail .wideShorthand span
  else asciiOnly span (.negated negated s.set)

/-- A set that is being put together. -/
structure Draft where
  set : CharSet
  /-- Whether there are characters in it whose case would have to be ignored. -/
  cased : Bool

/-- A set with the case of its letters ignored, if that is asked for. -/
def Draft.folded (mode : Mode) (span : Span) (draft : Draft) : Except Fault CharSet :=
  if !mode.ignoreCase then .ok draft.set
  else if !mode.unicode then .ok (.caseless draft.set)
  else if draft.cased then fail .wideCase span
  else .ok draft.set

/-- A set in brackets. -/
def Draft.closed (mode : Mode) (span : Span) (negated : Bool) (draft : Draft) :
    Except Fault CharSet := do
  let set := CharSet.negated negated (← draft.folded mode span)
  if mode.unicode then return set else asciiOnly span set

/-- The result of an operation on sets. -/
def SetOperator.apply : SetOperator → CharSet → CharSet → CharSet
  | .intersection => .intersection
  | .difference => .difference
  | .symmetricDifference => .symmetricDifference

mutual

/-- The meaning of what stands between brackets. -/
def SetTree.meaning (mode : Mode) : SetTree → Except Fault Draft
  | .empty _ => return ⟨.empty, false⟩
  | .literal l => return ⟨.single (← l.code mode), true⟩
  | .range _ first last => return ⟨.range (← first.code mode) (← last.code mode), true⟩
  | .named span negated name => return ⟨← Draft.closed mode span negated ⟨name.set, true⟩, false⟩
  | .property span p => fail (p.reason mode) span
  | .shorthand span negated s => return ⟨← s.meaning mode span negated, false⟩
  | .bracketed span negated inner =>
    return ⟨← (← inner.meaning mode).closed mode span negated, false⟩
  | .union _ items => SetTree.unionMeaning mode items
  | .operation _ operator left right => do
    let first ← left.meaning mode
    let second ← right.meaning mode
    let b ← second.folded mode right.span
    let a ← first.folded mode left.span
    return ⟨operator.apply a b, false⟩

/-- The meaning of some sets together. -/
def SetTree.unionMeaning (mode : Mode) : List SetTree → Except Fault Draft
  | [] => return ⟨.empty, false⟩
  | item :: items => do
    let first ← item.meaning mode
    let others ← SetTree.unionMeaning mode items
    return ⟨.union first.set others.set, first.cased || others.cased⟩

end

/-- An expression over sets of characters. -/
abbrev Form := Expr CharSet Look

/-- The meaning of an anchor. -/
def Anchor.look (mode : Mode) : Anchor → Look
  | .caret => if mode.multiLine then .lineStart mode.crlf else .textStart
  | .dollar => if mode.multiLine then .lineEnd mode.crlf else .textEnd
  | .textStart => .textStart
  | .textEnd => .textEnd
  | .wordBoundary => .word .either mode.unicode
  | .notWordBoundary => .word .none mode.unicode
  | .wordStart => .word .start mode.unicode
  | .wordEnd => .word .stop mode.unicode
  | .wordStartHalf => .word .startHalf mode.unicode
  | .wordEndHalf => .word .stopHalf mode.unicode

/-- What a dot matches. -/
def Mode.dot (mode : Mode) : CharSet :=
  if mode.dotMatchesNewline then .complement .empty
  else if mode.crlf then .complement (.union (.single 0x0a) (.single 0x0d))
  else .complement (.single 0x0a)

/-- The meaning of an atom. -/
def Atom.meaning (mode : Mode) : Atom → Except Fault Form
  | .literal l =>
    if mode.unicode then
      if mode.ignoreCase then fail .wideCase l.span else .ok (.step (.single l.char.toNat))
    else if l.isByte ∧ 0x80 ≤ l.char.toNat then fail .invalidUtf8 l.span
    else if mode.ignoreCase then .ok (.step (.caseless (.single l.char.toNat)))
    else .ok (.step (.single l.char.toNat))
  | .dot span => if mode.unicode then .ok (.step mode.dot) else fail .invalidUtf8 span
  | .anchor _ a => .ok (.look (a.look mode))
  | .property span p => fail (p.reason mode) span
  | .shorthand span negated s => (s.meaning mode span negated).map .step

/-- A repetition, which is empty if there can be no round. -/
def Form.inRounds (least : Nat) (most : Option Nat) (form : Form) : Form :=
  if most = some 0 then .empty else Expr.repeated least most form

mutual

/-- The meaning of a pattern, and the flags that are in force behind it. -/
def Tree.meaning (mode : Mode) : Tree → Except Fault (Form × Mode)
  | .empty _ => return (.empty, mode)
  | .toggles _ ts => return (.empty, mode.switchAll ts)
  | .atom a => return (← a.meaning mode, mode)
  | .bracketed span negated inner =>
    return (.step (← (← inner.meaning mode).closed mode span negated), mode)
  | .repetition _ least most inner => do
    let (form, mode) ← inner.meaning mode
    return (Form.inRounds least most form, mode)
  | .group _ ts inner => do
    let (form, _) ← inner.meaning (mode.switchAll ts)
    return (form, mode)
  | .alternation _ branches => Tree.choiceMeaning mode branches
  | .concatenation _ parts => Tree.sequenceMeaning mode parts

/-- The meaning of a choice. -/
def Tree.choiceMeaning (mode : Mode) : List Tree → Except Fault (Form × Mode)
  | [] => return (.step .empty, mode)
  | tree :: trees => do
    let (first, mode) ← tree.meaning mode
    let (others, mode) ← Tree.choiceMeaning mode trees
    return (.choice first others, mode)

/-- The meaning of a sequence. -/
def Tree.sequenceMeaning (mode : Mode) : List Tree → Except Fault (Form × Mode)
  | [] => return (.empty, mode)
  | tree :: trees => do
    let (first, mode) ← tree.meaning mode
    let (others, mode) ← Tree.sequenceMeaning mode trees
    return (.sequence first others, mode)

end

end Pattern
end OpcodeTable
