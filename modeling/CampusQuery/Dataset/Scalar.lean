/-
CampusQuery/Dataset/Scalar.lean

The values of fields and of result rows: numbers and texts.

Scalars are ordered numbers before texts, numbers by value and texts by code point.
Their identity (`Scalar.identity`) is what grouping and counting go by: the two
zeros are one value, and a number is never a text.
-/
import CampusQuery.Dataset.Field
import CampusQuery.Json.Write

namespace CampusQuery

/-- A number or a text. -/
inductive Scalar where
  | number (value : Binary64)
  | text (value : String)
deriving DecidableEq, Hashable

namespace Scalar

/-- The type of the value. -/
def valueType : Scalar → ValueType
  | .number _ => .number
  | .text _ => .text

/-- The number, if it is one. -/
def number? : Scalar → Option Binary64
  | .number x => some x
  | .text _ => none

/-- The order of two scalars.  A value that is not a number ties with every
number. -/
def order : Scalar → Scalar → Ordering
  | .number x, .number y => (x.compare? y).getD .eq
  | .text s, .text t => compare s t
  | .number _, .text _ => .lt
  | .text _, .number _ => .gt

/-- The value that stands for all scalars to be taken as the same. -/
def identity : Scalar → Scalar
  | .number x => .number x.foldZero
  | .text s => .text s

/-- Whole numbers of smaller magnitude than this are written as integers. -/
def integerBound : Int := Nat.pow 2 53

/-- The scalar in a document: a whole number below the bound is an integer. -/
def toJson : Scalar → Json
  | .number x =>
    match x.whole? with
    | some i => if i.natAbs < integerBound then .ofInt i else .number (.float x)
    | none => .number (.float x)
  | .text s => .text s

/-- The scalar as bare text. -/
def display : Scalar → String
  | .number x => String.ofList x.plainText
  | .text s => s

end Scalar

end CampusQuery
