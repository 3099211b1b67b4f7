import OpcodeTable.Proofs.FileSystem

/-!
# What one file cannot influence

Two file systems can be the same but for what is in one file.  No path leads through a file, so
paths are answered alike in both, and so is all that is done with files other than that one: what
is read of them, whether they can be created, and what is written to them.  The two file systems
then stay the same but for the one file.

Which paths lead to a file is a matter of the directories alone, and neither creating files nor
writing to them changes those.

## What is here

* `FileSystem.SameDirectories`, under which paths lead to the same locations, and
  `FileSystem.Changed`, what creating a file or writing to one comes to.
* `FileSystem.SameBut`, and `SameBut.locate_eq`, `SameBut.read_eq`, `SameBut.create` and
  `SameBut.write` for what does not touch the hidden file.
* `FileSystem.SameBut.changed` for what does.
-/

set_option autoImplicit false

namespace OpcodeTable
namespace FileSystem

/-! ## The same directories -/

/-- The file systems have the same directories. -/
structure SameDirectories (first second : FileSystem) : Prop where
  workingDirectory : first.workingDirectory = second.workingDirectory
  directory (location : Location) :
    first.node location = some .directory ↔ second.node location = some .directory

namespace SameDirectories

variable {first second third : FileSystem}

theorem refl (fs : FileSystem) : fs.SameDirectories fs :=
  ⟨rfl, fun _ => .rfl⟩

theorem symm (h : first.SameDirectories second) : second.SameDirectories first :=
  ⟨h.workingDirectory.symm, fun location => (h.directory location).symm⟩

theorem walk_eq_ok (h : first.SameDirectories second) {here there : Location}
    {names : List String} (hwalk : first.walk here names = .ok there) :
    second.walk here names = .ok there := by
  induction names generalizing here with
  | nil => exact hwalk
  | cons name rest ih =>
    rw [walk] at hwalk ⊢
    split at hwalk
    · cases hwalk
    · next hshort =>
      rw [if_neg hshort]
      split at hwalk
      · cases hwalk
      · next hdirectory =>
        rw [(h.directory _).1 hdirectory]
        exact ih hwalk
      · cases hwalk

theorem locate_eq_ok_of (h : first.SameDirectories second) {path : String} {location : Location}
    (hlocate : first.locate path = .ok location) : second.locate path = .ok location := by
  rw [locate, bind_eq_ok_iff] at hlocate ⊢
  obtain ⟨reached, happroach, henter⟩ := hlocate
  refine ⟨reached, ?_, henter⟩
  rw [approach_eq] at happroach ⊢
  have hstart : first.start path = second.start path := by
    rw [start, start, h.workingDirectory]
  split at happroach
  · cases happroach
  · next hnul =>
    split at happroach
    · cases happroach
    · next hlong =>
      split at happroach
      · cases happroach
      · next hempty =>
        rw [if_neg hnul, if_neg hlong, if_neg hempty]
        cases hwalk : first.walk (first.start path) (Route.of path).names.dropLast with
        | error cause =>
          rw [hwalk] at happroach
          cases happroach
        | ok directory =>
          rw [← hstart, h.walk_eq_ok hwalk]
          rwa [hwalk] at happroach

/-- A path leads to a location in both file systems or in neither. -/
theorem locate_eq_ok (h : first.SameDirectories second) {path : String} {location : Location} :
    first.locate path = .ok location ↔ second.locate path = .ok location :=
  ⟨h.locate_eq_ok_of, h.symm.locate_eq_ok_of⟩

end SameDirectories

theorem sameDirectories_put {fs : FileSystem} {location : Location} {node : Node}
    (hlocation : fs.node location ≠ some .directory) (hnode : node ≠ .directory) :
    fs.SameDirectories (fs.put location node) := by
  refine ⟨rfl, fun other => ?_⟩
  rw [node_put]
  split
  · next heq => simp [heq, hlocation, hnode]
  · exact .rfl

/-- What creating a file, or writing to one, does to a file system: nothing, or a file stands at the
location where there was no directory. -/
inductive Changed (fs : FileSystem) (location : Location) : FileSystem → Prop
  | same : Changed fs location fs
  | file (bytes : List UInt8) (h : fs.node location ≠ some .directory) :
    Changed fs location (fs.put location (.file bytes))

theorem Changed.sameDirectories {fs changed : FileSystem} {location : Location}
    (h : fs.Changed location changed) : fs.SameDirectories changed := by
  cases h with
  | same => exact .refl fs
  | file bytes hlocation => exact sameDirectories_put hlocation nofun

theorem Changed.node_of_ne {fs changed : FileSystem} {location other : Location}
    (h : fs.Changed location changed) (hne : other ≠ location) :
    changed.node other = fs.node other := by
  cases h with
  | same => rfl
  | file bytes hlocation => rw [node_put, if_neg hne]

theorem Changed.isDevice {fs changed : FileSystem} {location other : Location}
    (h : fs.Changed location changed) (hdevice : changed.IsDevice other) : fs.IsDevice other := by
  cases h with
  | same => exact hdevice
  | file bytes hlocation =>
    rw [IsDevice, node_put] at hdevice
    split at hdevice
    · obtain h | h := hdevice <;> cases h
    · exact hdevice

theorem changed_of_create {fs created : FileSystem} {path : String} {location : Location}
    (h : fs.create path = .ok (created, location)) : fs.Changed location created := by
  obtain ⟨hnames, ⟨-, rfl⟩ | ⟨-, rfl⟩⟩ := created_of_create h
  · exact .same
  · exact .file [] hnames.node

theorem changed_of_write {fs written : FileSystem} {location : Location} {offset : Nat}
    {bytes : List UInt8} (h : fs.write location offset bytes = .ok written) :
    fs.Changed location written := by
  rw [write] at h
  split at h
  · cases h
  · cases h
  · cases h
    exact .same
  · cases h
  · next old hold =>
    cases h
    exact .file _ (by simp [hold])

/-! ## The same but for one file -/

/-- Something stands at the location, and it is no directory. -/
def HoldsFile (fs : FileSystem) (location : Location) : Prop :=
  ∃ node, fs.node location = some node ∧ node ≠ .directory

/-- The path does not lead to the hidden location, if there is one. -/
def Avoids (fs : FileSystem) (hidden : Option Location) (path : String) : Prop :=
  ∀ location, hidden = some location → fs.locate path ≠ .ok location

theorem SameDirectories.avoids {first second : FileSystem} (h : first.SameDirectories second)
    {hidden : Option Location} {path : String} (havoids : first.Avoids hidden path) :
    second.Avoids hidden path :=
  fun location hhidden hlocate => havoids location hhidden (h.locate_eq_ok.2 hlocate)

/-- The file systems are the same but for the file at the hidden location, if there is one. -/
structure SameBut (first second : FileSystem) (hidden : Option Location) : Prop where
  workingDirectory : first.workingDirectory = second.workingDirectory
  node (location : Location) :
    hidden ≠ some location → first.node location = second.node location
  file (location : Location) :
    hidden = some location → first.HoldsFile location ∧ second.HoldsFile location

namespace SameBut

variable {first second : FileSystem} {hidden : Option Location}

theorem refl {fs : FileSystem} (h : ∀ location, hidden = some location → fs.HoldsFile location) :
    fs.SameBut fs hidden :=
  ⟨rfl, fun _ _ => rfl, fun location hhidden => ⟨h location hhidden, h location hhidden⟩⟩

/-- The hidden file is in the way of a walk in both file systems, whatever it holds. -/
theorem walk_eq (h : first.SameBut second hidden) (here : Location) (names : List String) :
    first.walk here names = second.walk here names := by
  induction names generalizing here with
  | nil => rfl
  | cons name rest ih =>
    rw [walk, walk]
    by_cases hhidden : hidden = some (step here name)
    · obtain ⟨⟨node, hnode, hfile⟩, other, hother, hotherFile⟩ := h.file _ hhidden
      rw [hnode, hother]
      cases node <;> cases other <;> first | rfl | contradiction
    · rw [h.node _ hhidden, ih]

theorem approach_eq (h : first.SameBut second hidden) (path : String) :
    first.approach path = second.approach path := by
  have hstart : first.start path = second.start path := by
    rw [start, start, h.workingDirectory]
  rw [FileSystem.approach_eq, FileSystem.approach_eq, hstart, h.walk_eq]

theorem locate_eq (h : first.SameBut second hidden) (path : String) :
    first.locate path = second.locate path := by
  rw [locate, locate, h.approach_eq]

/-- What is read of another file is the same. -/
theorem read_eq (h : first.SameBut second hidden) {path : String}
    (havoids : first.Avoids hidden path) : first.read path = second.read path := by
  rw [read, read, ← h.locate_eq]
  cases hlocate : first.locate path with
  | error cause => rfl
  | ok location =>
    have hnode := h.node location fun hhidden => havoids location hhidden hlocate
    simp only [bind, Except.bind, hnode]

theorem put (h : first.SameBut second hidden) {location : Location}
    (hother : hidden ≠ some location) (node : Node) :
    (first.put location node).SameBut (second.put location node) hidden := by
  refine ⟨h.workingDirectory, fun there hthere => ?_, fun there hthere => ?_⟩
  · rw [node_put, node_put]
    split
    · rfl
    · exact h.node there hthere
  · have hne : there ≠ location := fun heq => hother (heq ▸ hthere)
    rw [HoldsFile, HoldsFile, node_put, node_put, if_neg hne, if_neg hne]
    exact h.file there hthere

/-- Another file is created in both file systems, or in neither for the same reason. -/
theorem create (h : first.SameBut second hidden) {path : String}
    (havoids : first.Avoids hidden path) :
    (∃ cause, first.create path = .error cause ∧ second.create path = .error cause) ∨
    ∃ created made location, first.create path = .ok (created, location) ∧
      second.create path = .ok (made, location) ∧
      created.SameBut made hidden ∧ hidden ≠ some location := by
  rw [FileSystem.create, FileSystem.create, ← h.approach_eq]
  cases happroach : first.approach path with
  | error cause => exact .inl ⟨cause, rfl, rfl⟩
  | ok reached =>
    obtain ⟨directory, name⟩ := reached
    by_cases hdirectory : (Route.of path).directoryOnly = true
    · rw [hdirectory]
      exact .inl ⟨.isADirectory, rfl, rfl⟩
    · rw [Bool.not_eq_true] at hdirectory
      rw [hdirectory]
      cases henter : enter directory name with
      | error cause => exact .inl ⟨cause, by simp [bind, Except.bind, henter]⟩
      | ok location =>
        have hlocate : first.locate path = .ok location := by
          rw [locate, bind_eq_ok_iff]
          exact ⟨_, happroach, henter⟩
        have hother : hidden ≠ some location := fun hhidden => havoids location hhidden hlocate
        simp only [bind, Except.bind, henter, ← h.node location hother]
        cases first.node location with
        | none => exact .inr ⟨_, _, location, rfl, rfl, h.put hother _, hother⟩
        | some node =>
          cases node with
          | directory => exact .inl ⟨.isADirectory, rfl, rfl⟩
          | file old => exact .inr ⟨_, _, location, rfl, rfl, h.put hother _, hother⟩
          | nullDevice => exact .inr ⟨_, _, location, rfl, rfl, h, hother⟩
          | fullDevice => exact .inr ⟨_, _, location, rfl, rfl, h, hother⟩

/-- What is written to another file is written in both file systems, or refused for the same
reason. -/
theorem write (h : first.SameBut second hidden) {location : Location}
    (hother : hidden ≠ some location) (offset : Nat) (bytes : List UInt8) :
    (∃ cause, first.write location offset bytes = .error cause ∧
      second.write location offset bytes = .error cause) ∨
    ∃ written made, first.write location offset bytes = .ok written ∧
      second.write location offset bytes = .ok made ∧ written.SameBut made hidden := by
  rw [FileSystem.write, FileSystem.write, ← h.node location hother]
  cases first.node location with
  | none => exact .inl ⟨.notFound, rfl, rfl⟩
  | some node =>
    cases node with
    | directory => exact .inl ⟨.isADirectory, rfl, rfl⟩
    | file old => exact .inr ⟨_, _, rfl, rfl, h.put hother _⟩
    | nullDevice => exact .inr ⟨_, _, rfl, rfl, h⟩
    | fullDevice => exact .inl ⟨.noSpace, rfl, rfl⟩

/-- What the hidden file holds makes no difference. -/
theorem changed {location : Location} (h : first.SameBut second (some location))
    {after : FileSystem} (hchanged : second.Changed location after) :
    first.SameBut after (some location) := by
  cases hchanged with
  | same => exact h
  | file bytes hlocation =>
    refine ⟨h.workingDirectory, fun there hthere => ?_, fun there hthere => ?_⟩
    · rw [h.node there hthere, node_put, if_neg fun heq : there = location => hthere (heq ▸ rfl)]
    · cases hthere
      exact ⟨(h.file location rfl).1, .file bytes, node_put_self .., nofun⟩

end SameBut
end FileSystem
end OpcodeTable
