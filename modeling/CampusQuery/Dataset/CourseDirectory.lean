/-
CampusQuery/Dataset/CourseDirectory.lean

Reading a directory of course documents: the files directly in it, in the order of
their names.  Names with a blank, a dot or a comma are not those of courses.
-/
import CampusQuery.Dataset.CourseDocument
import CampusQuery.Program.Text

namespace CampusQuery.CourseDirectory

/-- The name can be that of a course's file. -/
def isCourseName (name : String) : Bool :=
  !name.isEmpty && name.toList.all fun c => c != ' ' && c != '.' && c != ','

/-- Those of the names that are files. -/
def keepFiles (directory : FilePath) : List String → Program (List String)
  | [] => return []
  | name :: rest => do
    let isFile ← Program.asking .isFile (directory.join name)
    let kept ← keepFiles directory rest
    return if isFile then name :: kept else kept

/-- The sections in the files with the given names. -/
def readFiles [FloatReader] (directory : FilePath) : List String → Action FileError (List Section)
  | [] => return []
  | name :: rest => do
    let text ← ExceptT.mk (Program.readsText (directory.join name))
    let sections ← readFiles directory rest
    return CourseDocument.sectionsOfText text ++ sections

/-- The sections in a directory. -/
def read [FloatReader] (directory : FilePath) : Action FileError (List Section) := do
  let found ← ExceptT.mk (Program.listing directory)
  let files ← keepFiles directory found.texts
  match found.failure with
  | some e => throw e
  | none => readFiles directory ((files.filter isCourseName).mergeSort fun a b => a ≤ b)

end CampusQuery.CourseDirectory
