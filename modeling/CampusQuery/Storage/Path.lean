/-
CampusQuery/Storage/Path.lean

Paths of files, and what a file operation can fail with.

A path is a text; it is shown as it was given, and its meaning is the list of its
segments between slashes.  Appending to a path adds segments, unless what is appended
is absolute: that takes its place.
-/
import CampusQuery.Text.Split

namespace CampusQuery

/-! ### Errors -/

/-- Why a file operation failed. -/
inductive FileError where
  | notFound
  | permissionDenied
  | alreadyExists
  | notADirectory
  | isADirectory
  | nameTooLong
  | nulInName
  | notUtf8
  | other (text : String)
deriving DecidableEq

/-- The wording of an error, with the number of those that the operating system
reports. -/
def FileError.message : FileError → String
  | .notFound => "No such file or directory (os error 2)"
  | .permissionDenied => "Permission denied (os error 13)"
  | .alreadyExists => "File exists (os error 17)"
  | .notADirectory => "Not a directory (os error 20)"
  | .isADirectory => "Is a directory (os error 21)"
  | .nameTooLong => "File name too long (os error 36)"
  | .nulInName => "file name contained an unexpected NUL byte"
  | .notUtf8 => "stream did not contain valid UTF-8"
  | .other text => text

/-! ### Paths -/

/-- A path as it was given. -/
structure FilePath where
  text : String
deriving DecidableEq

namespace FilePath

/-- The path does not depend on the working directory. -/
def isAbsolute (p : FilePath) : Bool := p.text.toList.head? == some '/'

/-- The path of `next` seen from a directory. -/
def join (directory : FilePath) (next : String) : FilePath :=
  if (FilePath.mk next).isAbsolute then ⟨next⟩
  else if directory.text.isEmpty || directory.text.toList.getLast? == some '/' then
    ⟨directory.text ++ next⟩
  else ⟨directory.text ++ "/" ++ next⟩

/-- The sibling under which a file is written before it takes its place. -/
def temporary (p : FilePath) : FilePath := ⟨p.text ++ ".tmp"⟩

/-- The texts between the slashes. -/
def segments (p : FilePath) : List String := (Text.split '/' p.text.toList).map String.ofList

/-- The segments that lead somewhere else than to the directory they are read in. -/
def steps (p : FilePath) : List String := p.segments.filter fun s => s != "" && s != "."

/-- The path can only mean a directory. -/
def asDirectory (p : FilePath) : Bool :=
  match p.segments.getLast? with
  | some s => s == "" || s == "."
  | none => true

/-- A name may have this many bytes. -/
def maxNameBytes : Nat := 255

/-- A path may have fewer bytes than this. -/
def maxPathBytes : Nat := 4096

/-- What is wrong with a path that can lead nowhere below the working directory.  An absolute path
is taken as one of these, also where it would lead back there: a tree does not say where its working
directory stands. -/
def fault? (p : FilePath) : Option FileError :=
  if p.text.toList.contains '\x00' then some .nulInName
  else if p.text.isEmpty then some .notFound
  else if maxPathBytes ≤ p.text.utf8ByteSize then some .nameTooLong
  else if p.isAbsolute then some .notFound
  else none

end FilePath

end CampusQuery
