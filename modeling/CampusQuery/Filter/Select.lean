/-
CampusQuery/Filter/Select.lean

Which records of a store satisfy a filter.

Every comparison is looked up in all records, and the sets of positions are combined
as the filter says.  All parts are evaluated whatever the others give, so a
malformed pattern is always found.
-/
import CampusQuery.Dataset.Store
import CampusQuery.Filter.Positions
import CampusQuery.Filter.Wildcard
import CampusQuery.Query.Basic
import CampusQuery.Query.Error

namespace CampusQuery

namespace RecordStore

/-- All scan positions. -/
def positions (s : RecordStore) : Positions := .below s.size fun _ => true

/-- The positions of the records that pass a test. -/
def scan (s : RecordStore) (test : Record → Bool) : Positions :=
  .below s.size fun p => (s.get? p).any test

/-- The records at the positions of a set, in scan order. -/
def select (s : RecordStore) (positions : Positions) : List Record :=
  positions.toList.filterMap s.get?

end RecordStore

namespace Record

/-- The record has a number in the field, and it stands in the relation to the
bound. -/
def compares (r : Record) (relation : Comparison) (field : Field) (bound : Binary64) : Bool :=
  match r.value? field with
  | some (.number x) => relation.holds x bound
  | _ => false

/-- The record has a text in the field, and it fits the pattern. -/
def fits (r : Record) (field : Field) (w : Wildcard) : Bool :=
  match r.value? field with
  | some (.text s) => w.fits s
  | _ => false

end Record

namespace Filter

/-- The set in all of the sets of a list; `all` if there are none. -/
def meet (all : Positions) : List Positions → Positions
  | [] => all
  | s :: rest => rest.foldl Positions.intersect s

/-- The set of what is in one of the sets of a list. -/
def join (sets : List Positions) : Positions := sets.foldl Positions.union .empty

mutual

/-- The positions of the records that satisfy the filter, or the first malformed
pattern. -/
def select (store : RecordStore) : Filter → Except QueryError Positions
  | .and parts => (selectAll store parts).map (meet store.positions)
  | .or parts => (selectAll store parts).map join
  | .not inner => (select store inner).map store.positions.subtract
  | .compare relation field bound => .ok (store.scan (·.compares relation field bound))
  | .like field pattern =>
    match Wildcard.ofText? pattern with
    | some w => .ok (store.scan (·.fits field w))
    | none => .error (.invalidWildcard pattern)

/-- The same for each filter of a list. -/
def selectAll (store : RecordStore) : List Filter → Except QueryError (List Positions)
  | [] => .ok []
  | f :: rest =>
    match select store f with
    | .ok s => (selectAll store rest).map (s :: ·)
    | .error e => .error e

end

/-- The positions that satisfy an optional filter; without one all do. -/
def selectOptional (store : RecordStore) : Option Filter → Except QueryError Positions
  | none => .ok store.positions
  | some f => f.select store

end Filter

end CampusQuery
