/-
CampusQuery/Dataset/Field.lean

The two kinds of dataset and the fields of their records.

A dataset holds course sections or rooms, never both.  Every field belongs to one
kind, and its values are numbers or texts throughout.
-/

namespace CampusQuery

/-- What the records of a dataset are. -/
inductive Kind where
  | courses
  | rooms
deriving DecidableEq, Hashable

namespace Kind

/-- Both kinds. -/
def all : List Kind := [.courses, .rooms]

/-- The name of the kind in documents. -/
def name : Kind → String
  | .courses => "courses"
  | .rooms => "rooms"

/-- The kind of a name. -/
def ofName? (s : String) : Option Kind := all.find? (·.name == s)

end Kind

/-- The type of the values of a field. -/
inductive ValueType where
  | number
  | text
deriving DecidableEq

/-- The name of a value type. -/
def ValueType.name : ValueType → String
  | .number => "number"
  | .text => "string"

/-- A field of a course section or of a room. -/
inductive Field where
  | dept
  | course
  | avg
  | instructor
  | title
  | pass
  | fail
  | audit
  | uuid
  | year
  | fullname
  | shortname
  | roomNumber
  | roomName
  | address
  | lat
  | lon
  | seats
  | roomType
  | furniture
  | href
deriving DecidableEq, Hashable

namespace Field

/-- The name of the field in keys and documents. -/
def name : Field → String
  | dept => "dept"
  | course => "id"
  | avg => "avg"
  | instructor => "instructor"
  | title => "title"
  | pass => "pass"
  | fail => "fail"
  | audit => "audit"
  | uuid => "uuid"
  | year => "year"
  | fullname => "fullname"
  | shortname => "shortname"
  | roomNumber => "number"
  | roomName => "name"
  | address => "address"
  | lat => "lat"
  | lon => "lon"
  | seats => "seats"
  | roomType => "type"
  | furniture => "furniture"
  | href => "href"

/-- The kind whose records have the field. -/
def kind : Field → Kind
  | dept | course | avg | instructor | title | pass | fail | audit | uuid | year => .courses
  | _ => .rooms

/-- The type of the field's values. -/
def valueType : Field → ValueType
  | avg | pass | fail | audit | year | lat | lon | seats => .number
  | _ => .text

/-- The values of the field are numbers. -/
def isNumeric (f : Field) : Bool := f.valueType == .number

/-- The fields of a kind, in the order in which they are listed. -/
def ofKind : Kind → List Field
  | .courses => [dept, course, avg, instructor, title, pass, fail, audit, uuid, year]
  | .rooms => [fullname, shortname, roomNumber, roomName, address, lat, lon, seats, roomType,
      furniture, href]

/-- The field of a kind with the given name. -/
def ofName? (k : Kind) (s : String) : Option Field := (ofKind k).find? (·.name == s)

end Field

end CampusQuery
