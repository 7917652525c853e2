/-
CampusQuery/Dataset/CourseDocument.lean

Course documents: one JSON object for each course, whose member `result` lists the
offerings of the course under names of their own.  An entry that lacks something or
has it in the wrong type contributes no section, and so does a document that cannot
be read.
-/
import CampusQuery.Dataset.Record
import CampusQuery.Text.Blank

namespace CampusQuery.CourseDocument

/-- The year of the entry that sums up all offerings of a course. -/
def overallYear : Int := 1900

/-- The section is the sum of all offerings. -/
def isOverall (label : String) : Bool := label.toList.map Char.toLower == "overall".toList

/-- The text of an entry's id: an integer of 64 bits as it is, any other number in
plain digits. -/
def uuid? : Json → Option String
  | .number n =>
    match n.toInt64? with
    | some i => some (toString i)
    | none => some (String.ofList n.toBinary64.plainText)
  | _ => none

/-- The year of an entry: a number, or a text that reads as one, without its
fraction. -/
def year? : Json → Option Int
  | .number n => some n.toBinary64.truncate
  | .text s => (Binary64.ofLiberalText? (Text.trim s.toList)).map Binary64.truncate
  | _ => none

/-- The section that an entry describes. -/
def section? (entry : Json) : Option Section := do
  let text (key : String) : Option String := entry.get? key >>= Json.text?
  let number (key : String) : Option Binary64 := entry.get? key >>= Json.binary64?
  let uuid ← entry.get? "id" >>= uuid?
  let year ← entry.get? "Year" >>= year?
  let label ← text "Section"
  return {
    dept := ← text "Subject"
    course := ← text "Course"
    instructor := ← text "Professor"
    title := ← text "Title"
    avg := ← number "Avg"
    pass := (← number "Pass").truncate
    fail := (← number "Fail").truncate
    audit := (← number "Audit").truncate
    uuid
    year := if isOverall label then overallYear else year }

/-- The sections of a document, in the order of its entries. -/
def sections (document : Json) : List Section :=
  match document.get? "result" with
  | some (.array entries) => entries.filterMap section?
  | _ => []

/-- The sections of a document's text. -/
def sectionsOfText [FloatReader] (text : String) : List Section :=
  match Json.read? text.toList with
  | some document => sections document
  | none => []

end CampusQuery.CourseDocument
