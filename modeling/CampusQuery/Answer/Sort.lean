/-
CampusQuery/Answer/Sort.lean

Rows in the order that a query asks for.  Rows that tie on all keys keep the order
they come in, whatever the direction.
-/
import CampusQuery.Answer.Row
import CampusQuery.Query.Basic

namespace CampusQuery

/-- The order of two values of a key, of which either may be missing: what is missing
comes first. -/
def Scalar.optionalOrder : Option Scalar → Option Scalar → Ordering
  | none, none => .eq
  | none, some _ => .lt
  | some _, none => .gt
  | some a, some b => a.order b

namespace Order

/-- The order of two values in a direction. -/
def directed (direction : Direction) (o : Ordering) : Ordering :=
  match direction with
  | .up => o
  | .down => o.swap

/-- The order of two rows: that of the first key on which they differ. -/
def compareOn (direction : Direction) : List String → Row → Row → Ordering
  | [], _, _ => .eq
  | key :: keys, a, b =>
    (directed direction (Scalar.optionalOrder (a.get? key) (b.get? key))).then
      (compareOn direction keys a b)

/-- The order of two rows. -/
def compare (o : Order) (a b : Row) : Ordering := compareOn o.direction o.keys a b

/-- The rows sorted. -/
def sort (o : Order) (rows : List Row) : List Row :=
  rows.mergeSort fun a b => (o.compare a b).isLE

end Order

end CampusQuery
