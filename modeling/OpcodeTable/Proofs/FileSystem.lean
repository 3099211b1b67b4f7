import OpcodeTable.Machine.FileSystem
import OpcodeTable.Proofs.Splitting

/-!
# What an operation on a file leaves as it is

A file system is changed at one location at a time.  This file says what that does to the other
locations and to the paths: a path that could be walked along before can still be, because no
directory is ever replaced, and so the file that was created or written to is found again where it
was put.

## What is here

* `FileSystem.node_put` and `FileSystem.put_put`, what stands where after something was put at a
  location, once or twice.
* `FileSystem.locate_put` and `FileSystem.read_put_of_ne`, by which paths lead where they did.
* `FileSystem.created_of_create`, what is known of a path whose file could be created or emptied.
* `FileSystem.read_of_isName` and `FileSystem.create_of_isName`, what becomes of a name in the
  working directory.
* `FileSystem.write_end`, a write at the end of a file, and `FileSystem.NamesFile.read_put`, what is
  read of the file in the end.
-/

set_option autoImplicit false

namespace OpcodeTable

/-- What may fail in two parts succeeds if both do. -/
theorem bind_eq_ok_iff {ε α β : Type} {result : Except ε α} {next : α → Except ε β} {value : β} :
    result >>= next = .ok value ↔ ∃ first, result = .ok first ∧ next first = .ok value := by
  cases result <;> simp [bind, Except.bind]

namespace FileSystem

/-- What stands at a location is a device. -/
def IsDevice (fs : FileSystem) (location : Location) : Prop :=
  fs.node location = some .nullDevice ∨ fs.node location = some .fullDevice

theorem not_isDevice_of_file {fs : FileSystem} {location : Location} {bytes : List UInt8}
    (h : fs.node location = some (.file bytes)) : ¬fs.IsDevice location := by
  simp [IsDevice, h]

/-! ## Putting something at a location -/

theorem lookup_filter_ne {location other : Location} (h : other ≠ location)
    (nodes : List (Location × Node)) :
    (nodes.filter fun entry => entry.1 ≠ location).lookup other = nodes.lookup other := by
  induction nodes with
  | nil => rfl
  | cons entry rest ih =>
    obtain ⟨here, node⟩ := entry
    by_cases hhere : here = location
    · have hother : (other == here) = false := by simpa [hhere] using h
      rw [List.filter_cons_of_neg (by simp [hhere]), ih, List.lookup_cons, hother]
    · rw [List.filter_cons_of_pos (by simp [hhere]), List.lookup_cons, List.lookup_cons, ih]

theorem node_put (fs : FileSystem) (location : Location) (node : Node) (other : Location) :
    (fs.put location node).node other = if other = location then some node else fs.node other := by
  rw [FileSystem.node, put]
  by_cases h : other = location
  · simp [h]
  · have hother : (other == location) = false := by simpa using h
    rw [List.lookup_cons, hother, if_neg h]
    exact lookup_filter_ne h fs.nodes

@[simp] theorem node_put_self (fs : FileSystem) (location : Location) (node : Node) :
    (fs.put location node).node location = some node := by
  rw [node_put, if_pos rfl]

@[simp] theorem workingDirectory_put (fs : FileSystem) (location : Location) (node : Node) :
    (fs.put location node).workingDirectory = fs.workingDirectory :=
  rfl

/-- What was put at a location first is gone when something else is put there. -/
@[simp] theorem put_put (fs : FileSystem) (location : Location) (first second : Node) :
    (fs.put location first).put location second = fs.put location second := by
  simp [put, List.filter_filter]

/-! ## Paths -/

/-- A name without a slash is a path of its own. -/
theorem Route.of_name {name : String} (hslash : '/' ∉ name.toList) (hne : name ≠ "") :
    Route.of name = { absolute := false, names := [name], directoryOnly := false } := by
  have hsplit : name.splitOn "/" = [name] := splitOn_of_not_mem hslash
  have hfirst : name.toList.head? ≠ some '/' := fun h => hslash (List.mem_of_head? h)
  have hlast : name.toList.getLast? ≠ some '/' := fun h => hslash (List.mem_of_getLast? h)
  simp [Route.of, hsplit, hfirst, hlast, hne]

/-- Where a way along a path begins. -/
def start (fs : FileSystem) (path : String) : Location :=
  if (Route.of path).absolute then [] else fs.workingDirectory

/-- A path is refused for its own sake, or all depends on the way to its last name. -/
theorem approach_eq (fs : FileSystem) (path : String) :
    fs.approach path =
      if '\x00' ∈ path.toList then .error .nulInPath
      else if maxPath < path.utf8ByteSize then .error .nameTooLong
      else if path = "" then .error .notFound
      else (fs.walk (fs.start path) (Route.of path).names.dropLast).map fun directory =>
        (directory, (Route.of path).names.getLast?) := by
  rw [approach]
  split
  · rfl
  · dsimp only
    split
    · rfl
    · split <;> rfl

section

variable {fs : FileSystem} {location : Location} (hlocation : fs.node location ≠ some .directory)
  (node : Node)

include hlocation

/-- Directories stay, so a way through them does too. -/
theorem walk_put {here there : Location} {names : List String}
    (h : fs.walk here names = .ok there) : (fs.put location node).walk here names = .ok there := by
  induction names generalizing here with
  | nil => exact h
  | cons name rest ih =>
    rw [walk] at h ⊢
    split at h
    · cases h
    · next hshort =>
      rw [if_neg hshort, node_put]
      split at h
      · cases h
      · next hdirectory =>
        have hne : step here name ≠ location := by
          rintro rfl
          exact hlocation hdirectory
        rw [if_neg hne, hdirectory]
        exact ih h
      · cases h

theorem approach_put {path : String} {reached : Location × Option String}
    (h : fs.approach path = .ok reached) : (fs.put location node).approach path = .ok reached := by
  rw [approach_eq] at h ⊢
  split at h
  · cases h
  · next hnul =>
    split at h
    · cases h
    · next hlong =>
      split at h
      · cases h
      · next hempty =>
        rw [if_neg hnul, if_neg hlong, if_neg hempty]
        cases hwalk : fs.walk (fs.start path) (Route.of path).names.dropLast with
        | error cause =>
          rw [hwalk] at h
          cases h
        | ok directory =>
          rw [hwalk] at h
          have hstart : (fs.put location node).start path = fs.start path := rfl
          rw [hstart, walk_put hlocation node hwalk]
          exact h

/-- A path leads where it did. -/
theorem locate_put {path : String} {there : Location} (h : fs.locate path = .ok there) :
    (fs.put location node).locate path = .ok there := by
  rw [locate, bind_eq_ok_iff] at h ⊢
  obtain ⟨reached, happroach, hthere⟩ := h
  exact ⟨reached, approach_put hlocation node happroach, hthere⟩

/-- What is read elsewhere is what was read there. -/
theorem read_put_of_ne {path : String} {there : Location} (h : fs.locate path = .ok there)
    (hne : there ≠ location) : (fs.put location node).read path = fs.read path := by
  have hnode : (fs.put location node).node there = fs.node there := by
    rw [node_put, if_neg hne]
  rw [read, read, locate_put hlocation node h, h]
  simp only [bind, Except.bind, hnode]

end

/-! ## Files -/

/-- The path names a location where there is no directory, and need not be one. -/
structure NamesFile (fs : FileSystem) (path : String) (location : Location) : Prop where
  locate : fs.locate path = .ok location
  directoryOnly : (Route.of path).directoryOnly = false
  node : fs.node location ≠ some .directory

/-- A file that can be created or emptied is where the path leads.  A device stays what it is, and
otherwise an empty file is there then. -/
theorem created_of_create {fs created : FileSystem} {path : String} {location : Location}
    (h : fs.create path = .ok (created, location)) :
    fs.NamesFile path location ∧
      (fs.IsDevice location ∧ created = fs ∨
        ¬fs.IsDevice location ∧ created = fs.put location (.file [])) := by
  rw [create, bind_eq_ok_iff] at h
  obtain ⟨⟨directory, name⟩, happroach, h⟩ := h
  dsimp only at h
  split at h
  · cases h
  · next hfile =>
    rw [bind_eq_ok_iff] at h
    obtain ⟨there, henter, h⟩ := h
    have hlocate : fs.locate path = .ok there := by
      rw [locate, bind_eq_ok_iff]
      exact ⟨_, happroach, henter⟩
    have hpath : (Route.of path).directoryOnly = false := Bool.eq_false_iff.2 hfile
    split at h
    · cases h
    · next hnone =>
      cases h
      exact ⟨⟨hlocate, hpath, by simp [hnone]⟩, .inr ⟨by simp [IsDevice, hnone], rfl⟩⟩
    · next old hold =>
      cases h
      exact ⟨⟨hlocate, hpath, by simp [hold]⟩, .inr ⟨not_isDevice_of_file hold, rfl⟩⟩
    · next node hdirectory hregular hnode =>
      cases h
      refine ⟨⟨hlocate, hpath, by simpa [hnode] using hdirectory⟩, .inl ⟨?_, rfl⟩⟩
      cases node with
      | directory => exact absurd rfl hdirectory
      | file old => exact absurd rfl (hregular old)
      | nullDevice => exact .inl hnode
      | fullDevice => exact .inr hnode

/-- Unless a device is where the path leads, an empty file is there then. -/
theorem namesFile_of_create {fs created : FileSystem} {path : String} {location : Location}
    (h : fs.create path = .ok (created, location)) :
    fs.NamesFile path location ∧
      (¬fs.IsDevice location → created = fs.put location (.file [])) := by
  obtain ⟨hnames, ⟨hdevice, -⟩ | ⟨-, hcreated⟩⟩ := created_of_create h
  · exact ⟨hnames, fun hnone => absurd hdevice hnone⟩
  · exact ⟨hnames, fun _ => hcreated⟩

/-- A file is written to behind what it holds. -/
theorem write_end {fs : FileSystem} {location : Location} {old : List UInt8}
    (h : fs.node location = some (.file old)) (new : List UInt8) :
    fs.write location old.length new = .ok (fs.put location (.file (old ++ new))) := by
  have hbehind : old.drop (old.length + new.length) = [] := List.drop_eq_nil_of_le (by omega)
  simp [write, h, overlay, hbehind]

/-- What is put where a path leads is read from there. -/
theorem NamesFile.read_put {fs : FileSystem} {path : String} {location : Location}
    (h : fs.NamesFile path location) (bytes : List UInt8) :
    (fs.put location (.file bytes)).read path = .ok bytes := by
  rw [read, bind_eq_ok_iff]
  refine ⟨location, locate_put h.node _ h.locate, ?_⟩
  simp only [node_put_self, h.directoryOnly]
  rfl

/-! ## Names in the working directory -/

section

variable {name : String}

/-- A text that can be the name of a file. -/
structure IsName (name : String) : Prop where
  slash : '/' ∉ name.toList
  nul : '\x00' ∉ name.toList
  nonempty : name ≠ ""
  dot : name ≠ "."
  dots : name ≠ ".."
  short : name.utf8ByteSize ≤ maxName

instance (name : String) : Decidable (IsName name) :=
  decidable_of_iff
    ('/' ∉ name.toList ∧ '\x00' ∉ name.toList ∧ name ≠ "" ∧ name ≠ "." ∧ name ≠ ".." ∧
      name.utf8ByteSize ≤ maxName)
    ⟨fun ⟨slash, nul, nonempty, dot, dots, short⟩ => ⟨slash, nul, nonempty, dot, dots, short⟩,
      fun ⟨slash, nul, nonempty, dot, dots, short⟩ => ⟨slash, nul, nonempty, dot, dots, short⟩⟩

/-- Such a name is looked for in the working directory. -/
theorem approach_of_isName (fs : FileSystem) (h : IsName name) :
    fs.approach name = .ok (fs.workingDirectory, some name) := by
  have hshort : ¬maxPath < name.utf8ByteSize :=
    Nat.not_lt.2 (Nat.le_trans h.short (by decide))
  rw [approach_eq, if_neg h.nul, if_neg hshort, if_neg h.nonempty, start,
    Route.of_name h.slash h.nonempty]
  rfl

theorem enter_of_isName (here : Location) (h : IsName name) :
    enter here (some name) = .ok (here ++ [name]) := by
  rw [enter, if_neg (Nat.not_lt.2 h.short), step, if_neg h.dot, if_neg h.dots]

theorem locate_of_isName (fs : FileSystem) (h : IsName name) :
    fs.locate name = .ok (fs.workingDirectory ++ [name]) := by
  rw [locate, approach_of_isName fs h]
  exact enter_of_isName _ h

/-- What is read is a matter of what stands there. -/
theorem read_of_isName (fs : FileSystem) (h : IsName name) :
    fs.read name =
      match fs.node (fs.workingDirectory ++ [name]) with
      | none => .error .notFound
      | some .directory => .error .isADirectory
      | some (.file bytes) => .ok bytes
      | some .nullDevice => .ok []
      | some .fullDevice => .error .outOfMemory := by
  rw [read, locate_of_isName fs h, Route.of_name h.slash h.nonempty]
  dsimp only [bind, Except.bind]
  cases fs.node (fs.workingDirectory ++ [name]) with
  | none => rfl
  | some node => cases node <;> rfl

/-- And so is whether the file can be created. -/
theorem create_of_isName (fs : FileSystem) (h : IsName name) :
    fs.create name =
      match fs.node (fs.workingDirectory ++ [name]) with
      | some .directory => .error .isADirectory
      | none | some (.file _) =>
        .ok (fs.put (fs.workingDirectory ++ [name]) (.file []), fs.workingDirectory ++ [name])
      | some _ => .ok (fs, fs.workingDirectory ++ [name]) := by
  rw [create, approach_of_isName fs h, Route.of_name h.slash h.nonempty]
  dsimp only [bind, Except.bind]
  rw [if_neg Bool.false_ne_true, enter_of_isName _ h]
  dsimp only [bind, Except.bind]
  cases fs.node (fs.workingDirectory ++ [name]) with
  | none => rfl
  | some node => cases node <;> rfl
end

end FileSystem
end OpcodeTable
