/-
CampusQuery/Answer/Row.lean

Rows of an answer: values under keys, in the order in which the keys were set.
-/
import CampusQuery.Dataset.Scalar

namespace CampusQuery

/-- Values under keys. -/
structure Row where
  entries : List (String × Scalar)
deriving DecidableEq

namespace Row

/-- The row without keys. -/
def empty : Row := ⟨[]⟩

/-- Entries with `key` set to `value`: in its old place, or else at the end. -/
def setEntry (key : String) (value : Scalar) : List (String × Scalar) → List (String × Scalar)
  | [] => [(key, value)]
  | (k, v) :: rest => if k = key then (k, value) :: rest else (k, v) :: setEntry key value rest

/-- Sets a key. -/
def insert (row : Row) (key : String) (value : Scalar) : Row := ⟨setEntry key value row.entries⟩

/-- Sets a key if there is a value for it. -/
def insert? (row : Row) (key : String) : Option Scalar → Row
  | some value => row.insert key value
  | none => row

/-- The value of a key. -/
def get? (row : Row) (key : String) : Option Scalar :=
  (row.entries.find? (·.1 == key)).map (·.2)

/-- The keys in their order. -/
def keys (row : Row) : List String := row.entries.map (·.1)

/-- The row of the given columns, as often as they are given; a key without a value
is left out. -/
def project (row : Row) (columns : List String) : Row :=
  ⟨columns.filterMap fun c => (row.get? c).map (c, ·)⟩

/-- The row as a document, with its members in the order of its keys. -/
def toJson (row : Row) : Json := .object (row.entries.map fun e => (e.1, e.2.toJson))

end Row

end CampusQuery
