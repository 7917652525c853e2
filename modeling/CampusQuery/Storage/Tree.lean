/-
CampusQuery/Storage/Tree.lean

Files and directories below a working directory.

A place in the tree is the list of the names that lead to it; the empty list is the
working directory itself.  A path is followed segment by segment: all but the last
have to be directories that are there, and `..` leaves the directory reached so far.
`FileTree.apply` gives the tree after a change, or the reason why nothing changes.

The tree ends at the working directory.  What is above it is not modelled: absolute paths
and paths that leave the working directory lead nowhere in a tree, and are not found.
Names in a tree are texts.  A system also has names of other bytes; a program meets
these when it lists a directory (`FoundNames.met`), and has no path to them.
-/
import CampusQuery.Storage.Path

namespace CampusQuery

/-- What can stand at a place. -/
inductive FileNode where
  | directory
  | file (content : ByteArray)

/-- A place: the names on the way to it. -/
abbrev Place := List String

/-- Files and directories by their places. -/
structure FileTree where
  nodes : List (Place × FileNode)

namespace FileTree

/-- A working directory with nothing in it. -/
def empty : FileTree := ⟨[]⟩

/-! ### Places -/

/-- What stands at a place. -/
def get? (t : FileTree) (place : Place) : Option FileNode :=
  if place.isEmpty then some .directory else t.nodes.lookup place

/-- The tree with something put at a place. -/
def set (t : FileTree) (place : Place) (node : FileNode) : FileTree :=
  ⟨(place, node) :: t.nodes.filter (·.1 != place)⟩

/-- The tree with nothing at a place. -/
def erase (t : FileTree) (place : Place) : FileTree := ⟨t.nodes.filter (·.1 != place)⟩

/-- The names in a directory. -/
def names (t : FileTree) (directory : Place) : List String :=
  t.nodes.filterMap fun (place, _) =>
    match place.getLast? with
    | some name => if place.dropLast == directory then some name else none
    | none => none

/-! ### Paths -/

/-- The place that `..` leads to. -/
def leave : Place → Except FileError Place
  | [] => .error .notFound
  | place => .ok place.dropLast

/-- The place of a name in a directory. -/
def child (directory : Place) (name : String) : Except FileError Place :=
  if FilePath.maxNameBytes < name.utf8ByteSize then .error .nameTooLong
  else .ok (directory ++ [name])

/-- The directory that a segment leads to. -/
def enter (t : FileTree) (directory : Place) (step : String) : Except FileError Place :=
  if step = ".." then leave directory
  else do
    let place ← child directory step
    match t.get? place with
    | none => .error .notFound
    | some (.file _) => .error .notADirectory
    | some .directory => .ok place

/-- The place that segments lead to; nothing has to stand there. -/
def follow (t : FileTree) (directory : Place) : List String → Except FileError Place
  | [] => .ok directory
  | [step] => if step = ".." then leave directory else child directory step
  | step :: rest => do t.follow (← t.enter directory step) rest

/-- The place that a path leads to. -/
def locate (t : FileTree) (p : FilePath) : Except FileError Place :=
  match p.fault? with
  | some e => .error e
  | none => t.follow [] p.steps

/-- The place that a path leads to, and what stands there. -/
def find (t : FileTree) (p : FilePath) : Except FileError (Place × FileNode) := do
  let place ← t.locate p
  match t.get? place with
  | none => .error .notFound
  | some (.file content) =>
    if p.asDirectory then .error .notADirectory else .ok (place, .file content)
  | some .directory => .ok (place, .directory)

/-- A path leads to something. -/
def present (t : FileTree) (p : FilePath) : Bool :=
  match t.find p with
  | .ok _ => true
  | .error _ => false

/-- A path leads to a directory. -/
def isDirectory (t : FileTree) (p : FilePath) : Bool :=
  match t.find p with
  | .ok (_, .directory) => true
  | _ => false

/-- A path leads to a file. -/
def isFile (t : FileTree) (p : FilePath) : Bool :=
  match t.find p with
  | .ok (_, .file _) => true
  | _ => false

/-- The content of a file. -/
def read (t : FileTree) (p : FilePath) : Except FileError ByteArray := do
  match ← t.find p with
  | (_, .file content) => .ok content
  | (_, .directory) => .error .isADirectory

/-- The names in the directory that a path leads to. -/
def list (t : FileTree) (p : FilePath) : Except FileError (List String) := do
  match ← t.find p with
  | (place, .directory) => .ok (t.names place)
  | (_, .file _) => .error .notADirectory

/-! ### Changes -/

/-- Makes the directory that segments lead to. -/
def makeDirectory (t : FileTree) (steps : List String) : Except FileError FileTree := do
  let place ← t.follow [] steps
  match t.get? place with
  | some _ => .error .alreadyExists
  | none => .ok (t.set place .directory)

/-- Segments lead to a directory. -/
def leadsToDirectory (t : FileTree) (steps : List String) : Bool :=
  match t.follow [] steps with
  | .ok place =>
    match t.get? place with
    | some .directory => true
    | _ => false
  | .error _ => false

/-- Makes a directory, after those around it that are missing.  The segments are given
from the innermost outwards. -/
def makeDirectories (t : FileTree) : List String → Except FileError FileTree
  | [] => .ok t
  | step :: outer =>
    let steps := (step :: outer).reverse
    match t.makeDirectory steps with
    | .ok made => .ok made
    | .error .notFound => do
      let around ← t.makeDirectories outer
      match around.makeDirectory steps with
      | .ok made => .ok made
      | .error e => if around.leadsToDirectory steps then .ok around else .error e
    | .error e => if t.leadsToDirectory steps then .ok t else .error e

end FileTree

/-- A change to the files. -/
inductive Change where
  /-- Makes a directory and those around it, as far as they are missing. -/
  | makeDirectories (path : FilePath)
  /-- Makes an empty file, or empties the one that is there. -/
  | create (path : FilePath)
  /-- Writes the content of a file. -/
  | fill (path : FilePath) (content : ByteArray)
  /-- Moves a file to another place, over the file that is there. -/
  | rename (source target : FilePath)
  /-- Removes a file. -/
  | remove (path : FilePath)

namespace FileTree

/-- The tree after a change. -/
def apply (t : FileTree) : Change → Except FileError FileTree
  | .makeDirectories path =>
    match path.fault? with
    | some e => .error e
    | none => t.makeDirectories path.steps.reverse
  | .create path => do
    let place ← t.locate path
    match t.get? place with
    | some .directory => .error .isADirectory
    | _ => if path.asDirectory then .error .isADirectory else .ok (t.set place (.file .empty))
  | .fill path content => do
    match ← t.find path with
    | (place, .file _) => .ok (t.set place (.file content))
    | (_, .directory) => .error .isADirectory
  | .rename source target => do
    match ← t.find source with
    | (old, .file content) =>
      let place ← t.locate target
      match t.get? place with
      | some .directory => .error .isADirectory
      | _ => .ok ((t.erase old).set place (.file content))
    | (_, .directory) => .error .isADirectory
  | .remove path => do
    match ← t.find path with
    | (place, .file _) => .ok (t.erase place)
    | (_, .directory) => .error .isADirectory

end FileTree

end CampusQuery
