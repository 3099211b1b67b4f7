import OpcodeTable.Script
import OpcodeTable.Text.Utf8

/-!
# What a script writes

A script says what is to be done, so what it writes can be read off it before any device is at
hand.  This file computes the bytes and the outcome of scripts that are put together, and singles
out the scripts that flush at their very end, if they get that far: those are the scripts whose
fate on a failing device depends on nothing but the number of bytes that the device takes.

## What is here

* `Script.bytes`, the bytes that all the steps of a script write, and what becomes of them and of
  the steps when scripts follow each other.
* `Script.lines`, the lines that the steps add to the log, but for the least severe ones.
* `Script.Takes`, which says what kind of steps a script takes, and `Script.FlushesLast`, which says
  where it flushes.
-/

set_option autoImplicit false

namespace OpcodeTable

variable {α β : Type}

/-- The step only adds a line to the log. -/
def Step.IsNote (step : Step) : Prop :=
  ∃ event, step = .note event

theorem Step.IsNote.ne_flush {step : Step} (h : step.IsNote) : step ≠ .flush := by
  rintro rfl
  obtain ⟨event, hevent⟩ := h
  cases hevent

/-- The step only adds a line of the lowest severity to the log. -/
def Step.IsTrace (step : Step) : Prop :=
  ∃ event, step = .note event ∧ event.level = .trace

theorem Step.IsTrace.isNote {step : Step} (h : step.IsTrace) : step.IsNote := by
  obtain ⟨event, rfl, -⟩ := h
  exact ⟨event, rfl⟩

/-- The bytes that a step writes. -/
def Step.bytes : Step → List UInt8
  | .emit text => textBytes text
  | .note _ | .flush => []

/-- The bytes of texts that follow each other. -/
theorem textBytes_join (texts : List String) :
    textBytes (String.join texts) = texts.flatMap textBytes := by
  induction texts with
  | nil => simp [textBytes]
  | cons text rest ih => rw [String.join_cons, textBytes_append, ih, List.flatMap_cons]

namespace Script

/-- The bytes that a script writes. -/
def bytes (script : Script α) : List UInt8 :=
  script.steps.flatMap Step.bytes

/-- The bytes of a script are those of its texts. -/
theorem bytes_eq_textBytes (script : Script α) :
    script.bytes = textBytes (String.join script.texts) := by
  rw [textBytes_join, bytes, texts]
  induction script.steps with
  | nil => rfl
  | cons step rest ih =>
    rw [List.flatMap_cons, ih]
    cases step with
    | emit text => rfl
    | note event => rfl
    | flush => rfl

/-! ## Scripts that follow each other -/

theorem bind_of_ok {script : Script α} {value : α} (h : script.outcome = .ok value)
    (next : α → Script β) :
    script >>= next = ⟨script.steps ++ (next value).steps, (next value).outcome⟩ := by
  show script.andThen next = _
  rw [andThen, h]

theorem bind_of_error {script : Script α} {error : Error} (h : script.outcome = .error error)
    (next : α → Script β) : script >>= next = ⟨script.steps, .error error⟩ := by
  show script.andThen next = _
  rw [andThen, h]

/-- Scripts that follow each other may be grouped in either way. -/
theorem bind_assoc {γ : Type} (script : Script α) (next : α → Script β) (last : β → Script γ) :
    script >>= next >>= last = script >>= fun value => next value >>= last := by
  cases h : script.outcome with
  | error error => rw [bind_of_error h, bind_of_error h, bind_of_error rfl]
  | ok value =>
    rw [bind_of_ok h, bind_of_ok h]
    cases hnext : (next value).outcome with
    | error error => rw [bind_of_error hnext, bind_of_error rfl]
    | ok result => rw [bind_of_ok hnext, bind_of_ok rfl, List.append_assoc]

@[simp] theorem pure_bind (value : α) (next : α → Script β) :
    (pure value : Script α) >>= next = next value := by
  show andThen (done (.ok value)) next = _
  simp [andThen, done]

theorem outcome_bind_of_ok {script : Script α} {value : α} (h : script.outcome = .ok value)
    (next : α → Script β) : (script >>= next).outcome = (next value).outcome := by
  rw [bind_of_ok h]

theorem outcome_bind_of_error {script : Script α} {error : Error}
    (h : script.outcome = .error error) (next : α → Script β) :
    (script >>= next).outcome = .error error := by
  rw [bind_of_error h]

theorem bytes_bind_of_ok {script : Script α} {value : α} (h : script.outcome = .ok value)
    (next : α → Script β) : (script >>= next).bytes = script.bytes ++ (next value).bytes := by
  rw [bind_of_ok h, bytes, List.flatMap_append, ← bytes, ← bytes]

theorem bytes_bind_of_error {script : Script α} {error : Error}
    (h : script.outcome = .error error) (next : α → Script β) :
    (script >>= next).bytes = script.bytes := by
  rw [bind_of_error h, bytes, bytes]

@[simp] theorem bytes_pure (value : α) : (pure value : Script α).bytes = [] := rfl

@[simp] theorem bytes_note (event : Log.Event) : (note event).bytes = [] := rfl

@[simp] theorem bytes_flush : flush.bytes = [] := rfl

@[simp] theorem bytes_emit (texts : List String) :
    (emit texts).bytes = textBytes (String.join texts) := by
  rw [bytes_eq_textBytes, Script.texts, emit, List.filterMap_map]
  congr 2
  induction texts with
  | nil => rfl
  | cons text rest ih => rw [List.filterMap_cons, ih]; rfl

/-! ## The log -/

/-- The lines that a script adds to the log, those of the lowest severity left out. -/
def lines (script : Script α) : List Log.Event :=
  script.events.filter fun event => event.level ≠ .trace

theorem lines_bind_of_ok {script : Script α} {value : α} (h : script.outcome = .ok value)
    (next : α → Script β) : (script >>= next).lines = script.lines ++ (next value).lines := by
  rw [bind_of_ok h, lines, events, List.filterMap_append, List.filter_append]
  rfl

theorem lines_bind_of_error {script : Script α} {error : Error}
    (h : script.outcome = .error error) (next : α → Script β) :
    (script >>= next).lines = script.lines := by
  rw [bind_of_error h]
  rfl

@[simp] theorem lines_pure (value : α) : (pure value : Script α).lines = [] := rfl

@[simp] theorem lines_flush : flush.lines = [] := rfl

theorem lines_note {level : Log.Level} (h : level ≠ .trace) (origin : Log.Origin)
    (message : String) : (note ⟨level, origin, message⟩).lines = [⟨level, origin, message⟩] :=
  List.filter_cons_of_pos (decide_eq_true h)

@[simp] theorem lines_emit (texts : List String) : (emit texts).lines = [] := by
  have hnone : (emit texts).events = [] := by
    rw [events, emit, List.filterMap_map]
    exact List.filterMap_eq_nil_iff.2 fun _ _ => rfl
  rw [lines, hnone, List.filter_nil]

/-! ## The kinds of steps a script takes -/

/-- Every step of the script is of a kind. -/
def Takes (kind : Step → Prop) (script : Script α) : Prop :=
  ∀ step ∈ script.steps, kind step

section

variable {kind : Step → Prop}

theorem Takes.bind {script : Script α} (h : script.Takes kind) {next : α → Script β}
    (hnext : ∀ value, (next value).Takes kind) : (script >>= next).Takes kind := by
  intro step hstep
  cases houtcome : script.outcome with
  | error error =>
    rw [bind_of_error houtcome] at hstep
    exact h step hstep
  | ok value =>
    rw [bind_of_ok houtcome] at hstep
    exact (List.mem_append.1 hstep).elim (h step) (hnext value step)

theorem Takes.mono {script : Script α} (h : script.Takes kind) {other : Step → Prop}
    (himp : ∀ step, kind step → other step) : script.Takes other :=
  fun step hstep => himp step (h step hstep)

theorem takes_done (outcome : Except Error α) : (done outcome).Takes kind := by
  intro step hstep
  cases hstep

theorem takes_pure (value : α) : (pure value : Script α).Takes kind :=
  takes_done (.ok value)

theorem takes_note (event : Log.Event) (h : kind (.note event)) : (note event).Takes kind := by
  intro step hstep
  rw [List.mem_singleton.1 hstep]
  exact h

theorem takes_emit (texts : List String) (h : ∀ text, kind (.emit text)) :
    (emit texts).Takes kind := by
  intro step hstep
  obtain ⟨text, -, rfl⟩ := List.mem_map.1 hstep
  exact h text

end

/-- A script that only adds to the log writes nothing. -/
theorem Takes.bytes_eq_nil {script : Script α} (h : script.Takes Step.IsNote) :
    script.bytes = [] := by
  rw [bytes, List.flatMap_eq_nil_iff]
  intro step hstep
  obtain ⟨event, rfl⟩ := h step hstep
  rfl

/-- A script that only adds lines of the lowest severity has no others. -/
theorem Takes.lines_eq_nil {script : Script α} (h : script.Takes Step.IsTrace) :
    script.lines = [] := by
  rw [lines, List.filter_eq_nil_iff]
  intro event hevent
  obtain ⟨step, hstep, hnote⟩ := List.mem_filterMap.1 hevent
  obtain ⟨trace, rfl, htrace⟩ := h step hstep
  cases hnote
  simp [htrace]

/-! ## Where a script flushes -/

/-- The flush with which a success ends. -/
def flushAfter : Except Error α → List Step
  | .ok _ => [.flush]
  | .error _ => []

/-- A script that succeeds flushes once, as its last step, and one that fails does not flush. -/
def FlushesLast (script : Script α) : Prop :=
  ∃ steps, Step.flush ∉ steps ∧ script.steps = steps ++ flushAfter script.outcome

/-- All that is written stands before the flush. -/
theorem FlushesLast.bytes_eq {script : Script α} {steps : List Step}
    (h : script.steps = steps ++ flushAfter script.outcome) :
    script.bytes = steps.flatMap Step.bytes := by
  rw [bytes, h, List.flatMap_append]
  cases script.outcome <;> simp [flushAfter, Step.bytes]

/-- A script flushes last if a part that never flushes is followed by a flush and a result. -/
theorem flushesLast_of_takes {script : Script α} (h : script.Takes (· ≠ .flush))
    (result : α → β) :
    FlushesLast (do let value ← script; flush; return result value) := by
  cases houtcome : script.outcome with
  | error error =>
    rw [bind_of_error houtcome]
    exact ⟨script.steps, fun hflush => h _ hflush rfl, by simp [flushAfter]⟩
  | ok value =>
    rw [bind_of_ok houtcome]
    exact ⟨script.steps, fun hflush => h _ hflush rfl, rfl⟩

end Script

end OpcodeTable
