import OpcodeTable.Device

/-!
# File systems

A file system says what stands at each location.  A path names a location by the names on the way
to it, from the root or from the working directory; every name but the last must be that of a
directory.  Besides directories and regular files there are two devices: the null device, which is
empty and takes everything, and the full device, which takes nothing.

## What is here

* `FileSystem.approach` walks along a path up to its last name, `FileSystem.locate` to its end.
* `FileSystem.read`, `FileSystem.create` and `FileSystem.write` are the operations on files.  A file
  that is written to keeps its other bytes, and a gap before the new ones is filled with zeros.
-/

set_option autoImplicit false

namespace OpcodeTable

/-- The names on the way from the root. -/
abbrev Location := List String

/-- What can stand at a location. -/
inductive Node where
  | directory
  | file (bytes : List UInt8)
  | nullDevice
  | fullDevice
deriving DecidableEq, Repr

/-- What stands at each location, and where paths begin. -/
structure FileSystem where
  /-- What there is; of two nodes at one location the first one counts. -/
  nodes : List (Location × Node)
  workingDirectory : Location

namespace FileSystem

/-- What stands at a location, if anything does. -/
def node (fs : FileSystem) (location : Location) : Option Node :=
  fs.nodes.lookup location

/-- A path that is taken apart. -/
structure Route where
  absolute : Bool
  /-- The names between the slashes, without empty ones. -/
  names : List String
  /-- Whether a slash stands behind the last name. -/
  directoryOnly : Bool
deriving DecidableEq, Repr

/-- The longest name of a file in bytes. -/
def maxName : Nat := 255

/-- The longest path in bytes. -/
def maxPath : Nat := 4095

/-- Takes a path apart. -/
def Route.of (path : String) : Route :=
  { absolute := path.toList.head? = some '/'
    names := (path.splitOn "/").filter (· ≠ "")
    directoryOnly := path.toList.getLast? = some '/' }

/-- The location that a step leads to from a directory. -/
def step (here : Location) (name : String) : Location :=
  if name = "." then here
  else if name = ".." then here.dropLast
  else here ++ [name]

/-- Walks from a directory to another one. -/
def walk (fs : FileSystem) (here : Location) : List String → Except DeviceError Location
  | [] => .ok here
  | name :: rest =>
    if maxName < name.utf8ByteSize then .error .nameTooLong
    else
      match fs.node (step here name) with
      | none => .error .notFound
      | some .directory => walk fs (step here name) rest
      | some _ => .error .notADirectory

/-- Walks along a path up to its last name: the directory that is reached, and the name, which may
be missing.  The directory must be there. -/
def approach (fs : FileSystem) (path : String) :
    Except DeviceError (Location × Option String) := do
  if '\x00' ∈ path.toList then throw .nulInPath
  if maxPath < path.utf8ByteSize then throw .nameTooLong
  if path = "" then throw .notFound
  let route := Route.of path
  let start := if route.absolute then [] else fs.workingDirectory
  let directory ← walk fs start route.names.dropLast
  return (directory, route.names.getLast?)

/-- The location that a name leads to from a directory. -/
def enter (directory : Location) : Option String → Except DeviceError Location
  | none => .ok directory
  | some name => if maxName < name.utf8ByteSize then .error .nameTooLong else .ok (step directory name)

/-- Finds the location that a path names.  Nothing need stand there, but the directory that would
hold it must be there. -/
def locate (fs : FileSystem) (path : String) : Except DeviceError Location := do
  let (directory, name) ← fs.approach path
  enter directory name

/-- Puts something at a location. -/
def put (fs : FileSystem) (location : Location) (node : Node) : FileSystem :=
  { fs with nodes := (location, node) :: fs.nodes.filter fun entry => entry.1 ≠ location }

/-- The bytes of the file that a path names.  The full device never ends. -/
def read (fs : FileSystem) (path : String) : Except DeviceError (List UInt8) := do
  let location ← fs.locate path
  match fs.node location with
  | none => throw .notFound
  | some .directory => throw .isADirectory
  | some node =>
    if (Route.of path).directoryOnly then throw .notADirectory
    match node with
    | .file bytes => return bytes
    | .nullDevice => return []
    | _ => throw .outOfMemory

/-- Creates the file that a path names, or empties it, and gives its location.  A path that can only
be that of a directory is refused before its last name is looked at. -/
def create (fs : FileSystem) (path : String) : Except DeviceError (FileSystem × Location) := do
  let (directory, name) ← fs.approach path
  if (Route.of path).directoryOnly then throw .isADirectory
  let location ← enter directory name
  match fs.node location with
  | some .directory => throw .isADirectory
  | none | some (.file _) => return (fs.put location (.file []), location)
  | some _ => return (fs, location)

/-- Bytes with others written over them from an offset on. -/
def overlay (old : List UInt8) (offset : Nat) (new : List UInt8) : List UInt8 :=
  old.take offset ++ List.replicate (offset - old.length) 0 ++ new
    ++ old.drop (offset + new.length)

/-- Writes bytes at an offset of the file at a location. -/
def write (fs : FileSystem) (location : Location) (offset : Nat) (bytes : List UInt8) :
    Except DeviceError FileSystem :=
  match fs.node location with
  | none => .error .notFound
  | some .directory => .error .isADirectory
  | some .nullDevice => .ok fs
  | some .fullDevice => .error .noSpace
  | some (.file old) => .ok (fs.put location (.file (overlay old offset bytes)))

/-- An empty working directory, beside the devices. -/
def empty : FileSystem :=
  { nodes :=
      [([], .directory), (["work"], .directory), (["dev"], .directory),
        (["dev", "null"], .nullDevice), (["dev", "full"], .fullDevice)]
    workingDirectory := ["work"] }

/-- Puts a directory at the end of a way from a location, and directories on the way. -/
def makeDirectories (fs : FileSystem) (here : Location) : List String → FileSystem
  | [] => fs
  | name :: rest =>
    let there := step here name
    let made := if fs.node there = some .directory then fs else fs.put there .directory
    makeDirectories made there rest

/-- Makes the directory that a path names, and those on the way to it. -/
def addDirectory (fs : FileSystem) (path : String) : FileSystem :=
  let route := Route.of path
  fs.makeDirectories (if route.absolute then [] else fs.workingDirectory) route.names

/-- Puts a file where a path says, and makes the directories on the way to it. -/
def addFile (fs : FileSystem) (path : String) (bytes : List UInt8) : FileSystem :=
  let route := Route.of path
  let made := fs.makeDirectories (if route.absolute then [] else fs.workingDirectory)
    route.names.dropLast
  match made.create path with
  | .error _ => made
  | .ok (created, location) => created.put location (.file bytes)

end FileSystem

end OpcodeTable
