/-
CampusQuery/Json/Basic.lean

JSON values.

A number is an integer or a floating-point number, and the two are kept apart:
`10` and `10.0` are different values with different texts.  The members of an
object stand in the order in which they are written.  A value read as a document
has its members sorted by key, each key once (`Json.insertMember`); a record that
writes itself chooses its own order.
-/
import CampusQuery.Binary64

namespace CampusQuery

namespace Json

/-- A JSON number: an integer literal, or any other literal. -/
inductive Number where
  | integer (value : Int)
  | float (value : Binary64)
deriving DecidableEq

/-- The number as a floating-point number, the nearest one to an integer. -/
def Number.toBinary64 : Number → Binary64
  | .integer i => .ofInt i
  | .float x => x

/-- The integer, when it is one of 64 bits with sign. -/
def Number.toInt64? : Number → Option Int
  | .integer i => if Binary64.minInt64 ≤ i ∧ i ≤ Binary64.maxInt64 then some i else none
  | .float _ => none

end Json

/-- A JSON value. -/
inductive Json where
  | null
  | bool (value : Bool)
  | number (value : Json.Number)
  | text (value : String)
  | array (items : List Json)
  | object (members : List (String × Json))

namespace Json

instance : Inhabited Json := ⟨.null⟩

/-- An integer. -/
def ofInt (i : Int) : Json := .number (.integer i)

/-- A count. -/
def ofNat (n : Nat) : Json := .number (.integer n)

/-- The members with `key` set to `value`: in sorted order, an earlier value of the
same key replaced. -/
def insertMember (key : String) (value : Json) : List (String × Json) → List (String × Json)
  | [] => [(key, value)]
  | (k, v) :: rest =>
    if key < k then (key, value) :: (k, v) :: rest
    else if key = k then (key, value) :: rest
    else (k, v) :: insertMember key value rest

/-- Members in sorted order, the last of several with one key. -/
def sortMembers (members : List (String × Json)) : List (String × Json) :=
  members.foldl (fun sorted m => insertMember m.1 m.2 sorted) []

mutual

/-- The value with the members of every object in sorted order and each key once. -/
def sorted : Json → Json
  | .array items => .array (sortedItems items)
  | .object members => .object (sortMembers (sortedMembers members))
  | v => v

/-- The same for the items of an array. -/
def sortedItems : List Json → List Json
  | [] => []
  | v :: rest => sorted v :: sortedItems rest

/-- The same for the values of members, which stay in their order. -/
def sortedMembers : List (String × Json) → List (String × Json)
  | [] => []
  | (k, v) :: rest => (k, sorted v) :: sortedMembers rest

end

/-- The value of a member of an object. -/
def get? (v : Json) (key : String) : Option Json :=
  match v with
  | .object members => (members.find? (·.1 == key)).map (·.2)
  | _ => none

/-- The value of a member that is there and is not null. -/
def getNonNull? (v : Json) (key : String) : Option Json :=
  match v.get? key with
  | some .null => none
  | found => found

/-- The text of a string value. -/
def text? : Json → Option String
  | .text s => some s
  | _ => none

/-- The items of an array. -/
def items? : Json → Option (List Json)
  | .array items => some items
  | _ => none

/-- The members of an object. -/
def members? : Json → Option (List (String × Json))
  | .object members => some members
  | _ => none

/-- The number as floating point. -/
def binary64? : Json → Option Binary64
  | .number n => some n.toBinary64
  | _ => none

end Json

end CampusQuery
