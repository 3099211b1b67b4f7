import OpcodeTable.Pattern.CharSet

/-!
# Regular expressions

What a pattern means: an expression over steps, which read one character, and looks, which compare
the characters on both sides of a position.

Whether an expression occurs in a text is found by following all ways through it at once.  A set of
positions is kept as a number, with a bit for each position; the text turns every step and every
look into such a number, of the positions at which it succeeds (`Expr.over`), and the expression
then maps the positions where a match can begin to those where it can end (`Expr.ends`).

## What is here

* `Look.holds` and `Expr` with its two leaves.
* `reach` and `times`, the two ways to repeat a map on sets of positions.
* `Expr.occursIn`.
-/

set_option autoImplicit false

namespace OpcodeTable
namespace Pattern

/-- The edges of words. -/
inductive Edge where
  /-- One side belongs to a word and the other does not. -/
  | either
  /-- Both sides belong to words, or none does. -/
  | none
  | start
  | stop
  /-- The left side belongs to no word. -/
  | startHalf
  /-- The right side belongs to no word. -/
  | stopHalf
deriving DecidableEq, Repr

/-- What is asked of a position.  A line ends with a line feed or, if `crlf` is set, also with a
carriage return, and between the two there is no end of a line. -/
inductive Look where
  | textStart
  | textEnd
  | lineStart (crlf : Bool)
  | lineEnd (crlf : Bool)
  /-- An edge of a word; with `wide` a word is made of the letters of all scripts. -/
  | word (edge : Edge) (wide : Bool)
deriving DecidableEq, Repr

/-- A position in a text: the characters on its two sides. -/
structure Place where
  before : Option Char
  after : Option Char
deriving DecidableEq, Repr

/-- The positions of a text from its start to its end. -/
def places (before : Option Char) : List Char → List Place
  | [] => [⟨before, none⟩]
  | c :: rest => ⟨before, some c⟩ :: places (some c) rest

/-- Whether a character belongs to a word of ASCII letters. -/
def isWordChar (c : Char) : Bool :=
  c.isAlphanum || c = '_'

/-- Whether there is a character and it belongs to a word. -/
def inWord (side : Option Char) : Bool :=
  side.any isWordChar

/-- Whether the edge of a word is at a position. -/
def Edge.holds (edge : Edge) (place : Place) : Bool :=
  match edge with
  | .either => inWord place.before != inWord place.after
  | .none => inWord place.before == inWord place.after
  | .start => !inWord place.before && inWord place.after
  | .stop => inWord place.before && !inWord place.after
  | .startHalf => !inWord place.before
  | .stopHalf => !inWord place.after

/-- Whether what is asked of a position is so. -/
def Look.holds (look : Look) (place : Place) : Bool :=
  match look with
  | .textStart => place.before = none
  | .textEnd => place.after = none
  | .lineStart false => place.before = none || place.before = some '\n'
  | .lineEnd false => place.after = none || place.after = some '\n'
  | .lineStart true =>
    place.before = none || place.before = some '\n'
      || place.before = some '\r' && place.after ≠ some '\n'
  | .lineEnd true =>
    place.after = none || place.after = some '\r'
      || place.after = some '\n' && place.before ≠ some '\r'
  | .word edge _ => edge.holds place

/-- An expression over steps and looks. -/
inductive Expr (σ τ : Type) where
  | empty
  | step (a : σ)
  | look (b : τ)
  | sequence (e f : Expr σ τ)
  | choice (e f : Expr σ τ)
  /-- An expression at least, and perhaps at most, so many times. -/
  | repeated (least : Nat) (most : Option Nat) (e : Expr σ τ)
deriving DecidableEq, Repr

/-- The expression with its steps and looks replaced. -/
def Expr.map {σ τ σ' τ' : Type} (f : σ → σ') (g : τ → τ') : Expr σ τ → Expr σ' τ'
  | .empty => .empty
  | .step a => .step (f a)
  | .look b => .look (g b)
  | .sequence e e' => .sequence (e.map f g) (e'.map f g)
  | .choice e e' => .choice (e.map f g) (e'.map f g)
  | .repeated least most e => .repeated least most (e.map f g)

/-- A number with these bits, the lowest first. -/
def ofBits (bits : List Bool) : Nat :=
  bits.foldr (fun b n => 2 * n + b.toNat) 0

/-- The set after exactly so many rounds, none of which can change it any more once one has not. -/
def times (f : Nat → Nat) : Nat → Nat → Nat
  | 0, set => set
  | n + 1, set => if f set = set then set else times f n (f set)

/-- All that is seen after at most so many rounds, each of which goes on from what the last one has
brought for the first time. -/
def reach (f : Nat → Nat) : Nat → Nat → Nat → Nat
  | 0, seen, _ => seen
  | n + 1, seen, fresh =>
    let next := (f fresh ||| seen) ^^^ seen
    if next = 0 then seen else reach f n (seen ||| next) next

/-- The positions where a match can end that begins at one of the given positions; there are
`count` positions in all. -/
def Expr.ends (count : Nat) : Expr Nat Nat → Nat → Nat
  | .empty, set => set
  | .step here, set => (set &&& here) <<< 1
  | .look here, set => set &&& here
  | .sequence e f, set => f.ends count (e.ends count set)
  | .choice e f, set => e.ends count set ||| f.ends count set
  | .repeated least most e, set =>
    let base := times (e.ends count) least set
    reach (e.ends count) ((most.map (· - least)).getD count) base base

/-- The expression with the positions at which its steps and looks succeed. -/
def Expr.over (places : List Place) (e : Expr CharSet Look) : Expr Nat Nat :=
  e.map (fun set => ofBits (places.map fun p => p.after.any fun c => set.has c.toNat))
    (fun look => ofBits (places.map look.holds))

/-- Whether the expression matches some part of the text. -/
def Expr.occursIn (e : Expr CharSet Look) (text : String) : Bool :=
  let places := places none text.toList
  (e.over places).ends places.length (1 <<< places.length - 1) ≠ 0

end Pattern
end OpcodeTable
