import RealModeTrace.Storage.FileError
import RealModeTrace.Text.Lines
import RealModeTrace.Text.Utf8

/-!
# File trees

The files that a program can read and write: a tree of directories, files and devices under one
root, and a working directory from which relative paths start.

* `resolve`: follow a path to the directory of its last component;
* `read`, `readText`: the bytes or the text of a file;
* `create`: open a file for writing, which empties it, or say why that fails;
* `append`: add bytes to an open file.
-/

namespace RealModeTrace

/-- A file that is not stored. -/
inductive Device
  /-- Takes every byte and keeps none. -/
  | null
  /-- Can be opened and takes no byte. -/
  | full
  deriving DecidableEq, Repr

/-- What stands at a place in the tree. -/
inductive Node
  | directory
  | file (bytes : ByteArray)
  | device (device : Device)

/-- The names from the root down to a place. -/
abbrev Location := List String

/-- A tree of files. The root is always a directory. -/
structure FileTree where
  entries : List (Location × Node) := []
  workDir : Location := []

namespace FileTree

/-- The greatest length of one name, in bytes. -/
def nameLimit : Nat := 255

/-- A path of this many bytes or more is too long. -/
def pathLimit : Nat := 4096

/-- What stands at a location. -/
def node? (t : FileTree) : Location → Option Node
  | [] => some .directory
  | loc => t.entries.lookup loc

/-- A directory stands at a location. -/
def isDirectory (t : FileTree) (loc : Location) : Bool :=
  match t.node? loc with
  | some .directory => true
  | _ => false

/-- A file with these bytes stands at a location. -/
def holds (t : FileTree) (loc : Location) (bytes : ByteArray) : Bool :=
  match t.node? loc with
  | some (.file old) => old.data == bytes.data
  | _ => false

/-- The tree with a node at a location. -/
def setNode (t : FileTree) (loc : Location) (node : Node) : FileTree :=
  if (t.node? loc).isSome then
    { t with entries := t.entries.map fun e => if e.1 = loc then (loc, node) else e }
  else { t with entries := t.entries ++ [(loc, node)] }

/-- One step down a path, into a directory. -/
def enter (t : FileTree) (loc : Location) (name : String) : Except FileError Location :=
  if name = "" ∨ name = "." then .ok loc
  else if name = ".." then .ok loc.dropLast
  else if nameLimit < name.utf8ByteSize then .error .nameTooLong
  else match t.node? (loc ++ [name]) with
    | none => .error .notFound
    | some .directory => .ok (loc ++ [name])
    | some _ => .error .notADirectory

/-- A path taken apart: where it starts, the names to pass through, and the last name. -/
structure Route where
  start : Location
  through : List String
  last : String

/-- The parts of a path, if it can name anything. -/
def route (t : FileTree) (path : String) : Except FileError Route :=
  if path.toList.contains '\x00' then .error .nulInName
  else if path = "" then .error .notFound
  else if pathLimit ≤ path.utf8ByteSize then .error .nameTooLong
  else
    let names := Text.splitAt '/' path
    .ok ⟨if path.startsWith "/" then [] else t.workDir, names.dropLast, names.getLastD ""⟩

/-- The directory that the last name of a route is looked up in. -/
def parent (t : FileTree) (r : Route) : Except FileError Location :=
  r.through.foldlM t.enter r.start

/-- A name that leads back to a directory. -/
def isDots (name : String) : Bool :=
  name == "" || name == "." || name == ".."

/-- The bytes of the file at a path. -/
def read (t : FileTree) (path : String) : Except FileError ByteArray := do
  let r ← t.route path
  let dir ← t.parent r
  if isDots r.last then throw .isADirectory
  if nameLimit < r.last.utf8ByteSize then throw .nameTooLong
  match t.node? (dir ++ [r.last]) with
  | none => throw .notFound
  | some .directory => throw .isADirectory
  | some (.file bytes) => return bytes
  | some (.device _) => return .empty

/-- The text of the file at a path. -/
def readText (t : FileTree) (path : String) : Except FileError String := do
  let bytes ← t.read path
  match Text.ofUtf8? bytes with
  | some s => return s
  | none => throw .notUtf8

/-- The route without the empty names of slashes at its end, and whether there were any. -/
def Route.trimSlashes (r : Route) : Route × Bool :=
  if r.last = "" then
    let names := (r.through.reverse.dropWhile (· = "")).reverse
    (⟨r.start, names.dropLast, names.getLastD ""⟩, true)
  else (r, false)

/-- Open the file at a path for writing and empty it; it comes into being if its directory is
there. -/
def create (t : FileTree) (path : String) : Except FileError (Location × FileTree) := do
  let (r, slashed) := (← t.route path).trimSlashes
  let dir ← t.parent r
  if slashed || isDots r.last then throw .isADirectory
  if nameLimit < r.last.utf8ByteSize then throw .nameTooLong
  let loc := dir ++ [r.last]
  match t.node? loc with
  | some .directory => throw .isADirectory
  | some (.device _) => return (loc, t)
  | _ => return (loc, t.setNode loc (.file .empty))

/-- Add bytes at the end of an open file. -/
def append (t : FileTree) (loc : Location) (bytes : ByteArray) : Except FileError FileTree :=
  match t.node? loc with
  | some (.file _) =>
    .ok { t with entries := t.entries.map fun e =>
      match e with
      | (l, .file old) => if l = loc then (l, .file (old ++ bytes)) else (l, .file old)
      | e => e }
  | some (.device .full) => .error .noSpaceLeft
  | some (.device .null) => .ok t
  | some .directory => .error .isADirectory
  | none => .error .notFound

/-- The tree with the directories on the way to a location, and that location itself. -/
def addDirectory (t : FileTree) (loc : Location) : FileTree :=
  (List.range loc.length).foldl (fun t i =>
    let dir := loc.take (i + 1)
    if (t.node? dir).isSome then t else t.setNode dir .directory) t

/-- The tree with a node, and directories on the way to it. -/
def add (t : FileTree) (loc : Location) (node : Node) : FileTree :=
  (t.addDirectory loc.dropLast).setNode loc node

/-- A location from a path of plain names. -/
def locationOf (t : FileTree) (path : String) : Location :=
  let names := (Text.splitAt '/' path).filter fun name => !isDots name
  if path.startsWith "/" then names else t.workDir ++ names

/-- The place one name further. -/
def nextPlace (loc : Location) (name : String) : Location :=
  if name = "" ∨ name = "." then loc
  else if name = ".." then loc.dropLast
  else loc ++ [name]

/-- The places that a path goes through, as far as its names tell. -/
def stations (t : FileTree) (path : String) : List Location :=
  let names := Text.splitAt '/' path
  let start := if path.startsWith "/" then [] else t.workDir
  (List.range names.length).map fun i => (names.take (i + 1)).foldl nextPlace start

/-- The files below the working directory, with their paths from there. -/
def filesBelow (t : FileTree) : List (String × ByteArray) :=
  t.entries.filterMap fun
    | (loc, .file bytes) =>
      if t.workDir.isPrefixOf loc then
        some ("/".intercalate (loc.drop t.workDir.length), bytes)
      else none
    | _ => none

end FileTree

end RealModeTrace
