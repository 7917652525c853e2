/-
CampusQuery/Dataset/Record.lean

Course sections and rooms.

A section is known by its `uuid`, a room by its name.  The values of all fields of a
record's kind can be looked up (`Record.value?`), and a record is written as a
document with its members in the order of the structure.
-/
import CampusQuery.Dataset.Scalar
import CampusQuery.Json.Typed

namespace CampusQuery

/-- One offering of a course. -/
structure Section where
  dept : String
  course : String
  instructor : String
  title : String
  avg : Binary64
  pass : Int
  fail : Int
  audit : Int
  uuid : String
  year : Int
deriving DecidableEq

/-- One room that can be booked. -/
structure Room where
  fullname : String
  shortname : String
  number : String
  name : String
  address : String
  lat : Binary64
  lon : Binary64
  seats : Int
  type : String
  furniture : String
  href : String
deriving DecidableEq

/-- A record of either kind. -/
inductive Record where
  | course (offering : Section)
  | room (room : Room)
deriving DecidableEq

namespace Section

/-- The value of a field of sections. -/
def value? (s : Section) : Field → Option Scalar
  | .dept => some (.text s.dept)
  | .course => some (.text s.course)
  | .instructor => some (.text s.instructor)
  | .title => some (.text s.title)
  | .uuid => some (.text s.uuid)
  | .avg => some (.number s.avg)
  | .pass => some (.number (.ofInt s.pass))
  | .fail => some (.number (.ofInt s.fail))
  | .audit => some (.number (.ofInt s.audit))
  | .year => some (.number (.ofInt s.year))
  | _ => none

/-- The section as a document. -/
def toJson (s : Section) : Json :=
  .object [("dept", .text s.dept), ("id", .text s.course), ("instructor", .text s.instructor),
    ("title", .text s.title), ("avg", .number (.float s.avg)), ("pass", .ofInt s.pass),
    ("fail", .ofInt s.fail), ("audit", .ofInt s.audit), ("uuid", .text s.uuid),
    ("year", .ofInt s.year)]

/-- The section before any of its fields is read. -/
def blank : Section := ⟨"", "", "", "", 0, 0, 0, 0, "", 0⟩

open Json in
/-- The fields of a section document. -/
def slots : List (Slot Section) :=
  [.required "dept" Tree.readText fun v s => { s with dept := v },
    .required "id" Tree.readText fun v s => { s with course := v },
    .required "instructor" Tree.readText fun v s => { s with instructor := v },
    .required "title" Tree.readText fun v s => { s with title := v },
    .required "avg" Tree.readBinary64 fun v s => { s with avg := v },
    .required "pass" Tree.readInt64 fun v s => { s with pass := v },
    .required "fail" Tree.readInt64 fun v s => { s with fail := v },
    .required "audit" Tree.readInt64 fun v s => { s with audit := v },
    .required "uuid" Tree.readText fun v s => { s with uuid := v },
    .required "year" Tree.readInt64 fun v s => { s with year := v }]

/-- Reads a section from a value. -/
def ofTree (t : Json.Tree) : Except Json.Fault Section :=
  t.readRecord .value "Section" slots blank

end Section

namespace Room

/-- The value of a field of rooms. -/
def value? (r : Room) : Field → Option Scalar
  | .fullname => some (.text r.fullname)
  | .shortname => some (.text r.shortname)
  | .roomNumber => some (.text r.number)
  | .roomName => some (.text r.name)
  | .address => some (.text r.address)
  | .roomType => some (.text r.type)
  | .furniture => some (.text r.furniture)
  | .href => some (.text r.href)
  | .lat => some (.number r.lat)
  | .lon => some (.number r.lon)
  | .seats => some (.number (.ofInt r.seats))
  | _ => none

/-- The room as a document. -/
def toJson (r : Room) : Json :=
  .object [("fullname", .text r.fullname), ("shortname", .text r.shortname),
    ("number", .text r.number), ("name", .text r.name), ("address", .text r.address),
    ("lat", .number (.float r.lat)), ("lon", .number (.float r.lon)), ("seats", .ofInt r.seats),
    ("type", .text r.type), ("furniture", .text r.furniture), ("href", .text r.href)]

/-- The room before any of its fields is read. -/
def blank : Room := ⟨"", "", "", "", "", 0, 0, 0, "", "", ""⟩

open Json in
/-- The fields of a room document. -/
def slots : List (Slot Room) :=
  [.required "fullname" Tree.readText fun v r => { r with fullname := v },
    .required "shortname" Tree.readText fun v r => { r with shortname := v },
    .required "number" Tree.readText fun v r => { r with number := v },
    .required "name" Tree.readText fun v r => { r with name := v },
    .required "address" Tree.readText fun v r => { r with address := v },
    .required "lat" Tree.readBinary64 fun v r => { r with lat := v },
    .required "lon" Tree.readBinary64 fun v r => { r with lon := v },
    .required "seats" Tree.readInt64 fun v r => { r with seats := v },
    .required "type" Tree.readText fun v r => { r with type := v },
    .required "furniture" Tree.readText fun v r => { r with furniture := v },
    .required "href" Tree.readText fun v r => { r with href := v }]

/-- Reads a room from a value. -/
def ofTree (t : Json.Tree) : Except Json.Fault Room :=
  t.readRecord .value "Room" slots blank

end Room

namespace Record

/-- What the record is. -/
def kind : Record → Kind
  | .course _ => .courses
  | .room _ => .rooms

/-- The key that tells the record from the others of its dataset. -/
def primaryKey : Record → String
  | .course s => s.uuid
  | .room r => r.name

/-- The value of a field; there is none of the other kind's fields. -/
def value? : Record → Field → Option Scalar
  | .course s, f => s.value? f
  | .room r, f => r.value? f

/-- The record as a document. -/
def toJson : Record → Json
  | .course s => s.toJson
  | .room r => r.toJson

/-- Reads a record of the given kind. -/
def ofTree (k : Kind) (t : Json.Tree) : Except Json.Fault Record :=
  match k with
  | .courses => (Section.ofTree t).map .course
  | .rooms => (Room.ofTree t).map .room

/-- Reads a record of either kind; what is a section is not tried as a room. -/
def ofAnyTree? (t : Json.Tree) : Option Record :=
  match ofTree .courses t with
  | .ok r => some r
  | .error _ => (ofTree .rooms t).toOption

end Record

end CampusQuery
