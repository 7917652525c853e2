/-
CampusQuery/Answer/Group.lean

Records grouped by the values of some fields.

Groups stand in the order of their first records, and the records of a group in scan
order.  Two records are in one group when their values have the same identities.
-/
import Std.Data.HashMap
import CampusQuery.Answer.Aggregate
import CampusQuery.Answer.Row
import CampusQuery.Dataset.Record

namespace CampusQuery

/-- Groups of records, and where the group of a tuple of values is. -/
structure Partition where
  index : Std.HashMap (List Scalar) Nat
  groups : Array (Array Record)

namespace Partition

/-- No group. -/
def empty : Partition := ⟨∅, #[]⟩

/-- Adds a record to the group of its tuple, which is a new group the first time. -/
def add (p : Partition) (tuple : List Scalar) (r : Record) : Partition :=
  match p.index[tuple]? with
  | some i => { p with groups := p.groups.modify i (·.push r) }
  | none => ⟨p.index.insert tuple p.groups.size, p.groups.push #[r]⟩

end Partition

namespace Transformation

/-- The tuple that decides which group a record is in. -/
def tuple (t : Transformation) (r : Record) : List Scalar :=
  t.group.filterMap fun g => (r.value? g.field).map Scalar.identity

/-- The groups of a list of records. -/
def partition (t : Transformation) (records : List Record) : List (List Record) :=
  let p := records.foldl (fun p r => p.add (t.tuple r) r) Partition.empty
  p.groups.toList.map Array.toList

/-- The row of a group: the values of its first record under the group keys, then the
aggregates. -/
def row (t : Transformation) (members : List Record) : Row :=
  let keyed := match members with
    | [] => Row.empty
    | first :: _ => t.group.foldl (fun row g => row.insert? g.key (first.value? g.field)) Row.empty
  t.apply.foldl
    (fun row rule =>
      row.insert rule.name (rule.aggregate.apply (members.filterMap (·.value? rule.field))))
    keyed

/-- One row for each group. -/
def rows (t : Transformation) (records : List Record) : List Row :=
  (t.partition records).map t.row

end Transformation

end CampusQuery
