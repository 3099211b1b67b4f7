import OpcodeTable.Error
import OpcodeTable.Log.Event

/-!
# Scripts

A conversion does not write by itself: it is a `Script`, the steps that are to be taken one after
the other and what comes out if a device goes along with all of them.  The same script can then be
run on any device, and the lines of the log and the text can be read off it without one.

Scripts are put together with `do`: the steps of the parts follow each other up to the first part
that fails.
-/

set_option autoImplicit false

namespace OpcodeTable

/-- A step of a conversion. -/
inductive Step where
  /-- Adds a line to the log. -/
  | note (event : Log.Event)
  /-- Writes a text to the device. -/
  | emit (text : String)
  /-- Has the device put down what it may still hold back. -/
  | flush
deriving DecidableEq, Repr

/-- The line that a step adds to the log, if it does. -/
def Step.event? : Step → Option Log.Event
  | .note event => some event
  | _ => none

/-- The text that a step writes, if it does. -/
def Step.text? : Step → Option String
  | .emit text => some text
  | _ => none

/-- Steps, and what comes out if they all succeed. -/
structure Script (α : Type) where
  steps : List Step
  outcome : Except Error α

namespace Script

variable {α : Type}

/-- The script that takes no step. -/
def done (outcome : Except Error α) : Script α :=
  ⟨[], outcome⟩

/-- The script that takes one step. -/
def step (step : Step) : Script Unit :=
  ⟨[step], .ok ()⟩

/-- Adds a line to the log. -/
def note (event : Log.Event) : Script Unit :=
  step (.note event)

/-- Writes texts one after the other. -/
def emit (texts : List String) : Script Unit :=
  ⟨texts.map .emit, .ok ()⟩

/-- Has the device put down what it may still hold back. -/
def flush : Script Unit :=
  step .flush

/-- Fails. -/
def fail (error : Error) : Script α :=
  done (.error error)

/-- Goes on with the result of a script, if it does not fail. -/
def andThen {β : Type} (script : Script α) (next : α → Script β) : Script β :=
  match script.outcome with
  | .error error => ⟨script.steps, .error error⟩
  | .ok value =>
    let rest := next value
    ⟨script.steps ++ rest.steps, rest.outcome⟩

instance : Monad Script where
  pure value := done (.ok value)
  bind := andThen

/-- The lines of the log in order. -/
def events (script : Script α) : List Log.Event :=
  script.steps.filterMap Step.event?

/-- The texts that are written, in order. -/
def texts (script : Script α) : List String :=
  script.steps.filterMap Step.text?

end Script

end OpcodeTable
