/-
CampusQuery/Query/Basic.lean

Queries after they have been checked: every key is resolved to a field of the one
dataset that the query is about.
-/
import CampusQuery.Dataset.Scalar

namespace CampusQuery

/-! ### Keys -/

/-- A key `<dataset>_<field>`, split at its only underscore. -/
structure QualifiedKey where
  dataset : String
  field : String
deriving DecidableEq

namespace QualifiedKey

/-- Splits a key; there is no split without an underscore or with several. -/
def ofText? (key : String) : Option QualifiedKey :=
  let cs := key.toList
  match cs.dropWhile (· != '_') with
  | _ :: field =>
    if field.contains '_' then none
    else some ⟨String.ofList (cs.takeWhile (· != '_')), String.ofList field⟩
  | [] => none

/-- The key as text. -/
def toText (k : QualifiedKey) : String := k.dataset ++ "_" ++ k.field

end QualifiedKey

/-! ### Filters -/

/-- A numerical relation. -/
inductive Comparison where
  | less
  | greater
  | equal
deriving DecidableEq

namespace Comparison

/-- The tag of the relation in a document. -/
def tag : Comparison → String
  | .less => "LT"
  | .greater => "GT"
  | .equal => "EQ"

/-- All relations. -/
def all : List Comparison := [.less, .greater, .equal]

/-- The relation of a tag. -/
def ofTag? (s : String) : Option Comparison := all.find? (·.tag == s)

/-- A value stands in the relation to a bound. -/
def holds : Comparison → Binary64 → Binary64 → Bool
  | .less, value, bound => value.lt bound
  | .greater, value, bound => bound.lt value
  | .equal, value, bound => value.eq bound

end Comparison

/-- A condition on records. -/
inductive Filter where
  | and (parts : List Filter)
  | or (parts : List Filter)
  | not (inner : Filter)
  | compare (relation : Comparison) (field : Field) (bound : Binary64)
  | like (field : Field) (pattern : String)

instance : Inhabited Filter := ⟨.and []⟩

/-! ### Columns, order and groups -/

/-- A column of the answer: its key and, unless it names a group key or an
aggregate, the field it shows. -/
structure Column where
  key : String
  field : Option Field
deriving DecidableEq

/-- The direction of an order. -/
inductive Direction where
  | up
  | down
deriving DecidableEq

namespace Direction

/-- The name of the direction in documents. -/
def name : Direction → String
  | .up => "UP"
  | .down => "DOWN"

/-- The direction of a name. -/
def ofName? (s : String) : Option Direction := [up, down].find? (·.name == s)

end Direction

/-- An order of rows: by the first key, then by the second, and so on. -/
structure Order where
  direction : Direction
  keys : List String
deriving DecidableEq

/-- A way of making one value out of many. -/
inductive Aggregate where
  | max
  | min
  | avg
  | sum
  | count
deriving DecidableEq

namespace Aggregate

/-- The token of the aggregate in documents. -/
def token : Aggregate → String
  | .max => "MAX"
  | .min => "MIN"
  | .avg => "AVG"
  | .sum => "SUM"
  | .count => "COUNT"

/-- All aggregates. -/
def all : List Aggregate := [.max, .min, .avg, .sum, .count]

/-- The aggregate of a token. -/
def ofToken? (s : String) : Option Aggregate := all.find? (·.token == s)

/-- Only counting works on texts as well. -/
def needsNumbers : Aggregate → Bool
  | .count => false
  | _ => true

end Aggregate

/-- A field to group by, and the key under which it stands in a row. -/
structure GroupKey where
  key : String
  field : Field
deriving DecidableEq

/-- An aggregate of a field, and its name in a row. -/
structure ApplyRule where
  name : String
  aggregate : Aggregate
  field : Field
deriving DecidableEq

/-- Grouping with aggregates. -/
structure Transformation where
  group : List GroupKey
  apply : List ApplyRule
deriving DecidableEq

/-- A checked query. -/
structure Query where
  dataset : String
  kind : Kind
  filter : Option Filter
  columns : List Column
  order : Option Order
  transformation : Option Transformation

end CampusQuery
