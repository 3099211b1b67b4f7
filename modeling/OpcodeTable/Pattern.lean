import OpcodeTable.Pattern.Meaning
import OpcodeTable.Pattern.Parser.Tree

/-!
# Patterns

A pattern is a regular expression that is looked for in a text.  Besides being wrong as it is
written, a pattern can be too large to be used, or it can ask for the words of all scripts, of which
there are no tables.
-/

set_option autoImplicit false

namespace OpcodeTable

/-- A regular expression that can be looked for. -/
structure Pattern where
  form : Pattern.Form
deriving DecidableEq, Repr

namespace Pattern

/-- Why a text cannot be used as a pattern. -/
inductive Refusal where
  | fault (fault : Fault)
  | tooLarge
  | wideWords
deriving DecidableEq, Repr

/-- The largest size of a pattern in bytes. -/
def maxSize : Nat := 10485760

/-- What is said of a text that cannot be used. -/
def Refusal.message (text : String) : Refusal → String
  | .fault f => f.message text
  | .tooLarge => "Compiled regex exceeds size limit of " ++ toString maxSize ++ " bytes."
  | .wideWords => "error building NFA"

/-- The size of a step, which is larger if it can read characters of several bytes. -/
def CharSet.size : CharSet → Nat
  | .range first last =>
    if first = last then 32 * (Char.ofNat last).utf8Size
    else if last < 0x80 then 32
    else 424
  | set => if set.has 0x80 ∨ set.has 0x10ffff then 424 else 64

/-- The size of an expression when it is laid out for the search: each part once for every round
that it must be there, and once for every round that it may. -/
def Form.size : Form → Nat
  | .empty | .look _ => 32
  | .step set => set.size
  | .sequence e f => Form.size e + Form.size f
  | .choice e f => Form.size e + Form.size f + 36
  | .repeated least none e => max 1 least * Form.size e + 40
  | .repeated least (some most) e =>
    least * Form.size e + (most - least) * (Form.size e + 40) + 32

/-- Whether an expression asks for the edges of words of all scripts. -/
def Form.hasWideWords : Form → Bool
  | .look (.word _ wide) => wide
  | .empty | .step _ | .look _ => false
  | .sequence e f | .choice e f => Form.hasWideWords e || Form.hasWideWords f
  | .repeated _ _ e => Form.hasWideWords e

/-- Reads a pattern. -/
def read (text : String) : Except Refusal Pattern :=
  match (do (← Tree.read text).meaning {} : Except Fault (Form × Mode)) with
  | .error fault => .error (.fault fault)
  | .ok (form, _) =>
    if maxSize < Form.size form then .error .tooLarge
    else if Form.hasWideWords form then .error .wideWords
    else .ok ⟨form⟩

/-- Whether the pattern matches some part of a text. -/
def occursIn (pattern : Pattern) (text : String) : Bool :=
  pattern.form.occursIn text

end Pattern

end OpcodeTable
