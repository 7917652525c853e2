/-
CampusQuery/Dataset/Store.lean

The records of one dataset.

A store holds records of one kind with pairwise different primary keys; both facts
are part of its type.  `RecordStore.ofRecords` checks a list and reports the first
record that breaks one of them.
-/
import Std.Data.HashSet
import CampusQuery.Dataset.Record

namespace CampusQuery

/-- Why a list of records or of rows is no dataset. -/
inductive DatasetError where
  | notAnArray
  | malformedRow (kind : Kind) (fault : Json.Fault)
  | kindMismatch (expected found : Kind)
  | duplicateKey (key : String)
deriving DecidableEq

namespace DatasetError

/-- The code of the error. -/
def code : DatasetError → String
  | .notAnArray | .malformedRow _ _ => "CAMPUS_MALFORMED_RECORDS"
  | .kindMismatch _ _ => "CAMPUS_KIND_MISMATCH"
  | .duplicateKey _ => "CAMPUS_DUPLICATE_PRIMARY_KEY"

/-- The wording of the error. -/
def message : DatasetError → String
  | .notAnArray => "Rows must be a JSON array"
  | .malformedRow .courses fault => s!"Invalid section row: {fault.message}"
  | .malformedRow .rooms fault => s!"Invalid room row: {fault.message}"
  | .kindMismatch expected found => s!"Expected {expected.name} record, found {found.name}"
  | .duplicateKey key => s!"Duplicate primary key '{key}'"

/-- The error on one line. -/
def display (e : DatasetError) : String := s!"[ERROR] {e.code}: {e.message}"

end DatasetError

/-- Reads an array of rows as records of the given kind. -/
def Record.readRows (kind : Kind) : Json → Except DatasetError (List Record)
  | .array rows =>
    ((Json.Tree.ofItems rows).mapM (Record.ofTree kind)).mapError (.malformedRow kind)
  | _ => .error .notAnArray

/-- Records of one kind, each with a primary key of its own. -/
structure RecordStore where
  kind : Kind
  records : Array Record
  ofKind : ∀ r ∈ records.toList, r.kind = kind
  distinct : (records.toList.map Record.primaryKey).Nodup

namespace RecordStore

/-- The first record that is of another kind, or whose key is among those `seen`
before it. -/
def firstFault? (kind : Kind) : Std.HashSet String → List Record → Option DatasetError
  | _, [] => none
  | seen, r :: rest =>
    if r.kind ≠ kind then some (.kindMismatch kind r.kind)
    else if seen.contains r.primaryKey then some (.duplicateKey r.primaryKey)
    else firstFault? kind (seen.insert r.primaryKey) rest

theorem facts_of_firstFault?_eq_none {kind : Kind} {seen : Std.HashSet String}
    {records : List Record} (h : firstFault? kind seen records = none) :
    (∀ r ∈ records, r.kind = kind) ∧ (records.map Record.primaryKey).Nodup ∧
      ∀ r ∈ records, r.primaryKey ∉ seen := by
  induction records generalizing seen with
  | nil => simp
  | cons r rest ih =>
    simp only [firstFault?] at h
    split at h
    · simp at h
    · rename_i hk
      split at h
      · simp at h
      · rename_i hs
        obtain ⟨kinds, nodup, fresh⟩ := ih h
        simp only [Std.HashSet.mem_insert, not_or] at fresh
        refine ⟨?_, ?_, ?_⟩
        · simp only [List.mem_cons, forall_eq_or_imp]
          exact ⟨Decidable.not_not.mp hk, kinds⟩
        · simp only [List.map_cons, List.nodup_cons, List.mem_map, not_exists, not_and]
          exact ⟨fun x hx e => (fresh x hx).1 (by simp [e]), nodup⟩
        · simp only [List.mem_cons, forall_eq_or_imp]
          exact ⟨by simpa using hs, fun x hx => (fresh x hx).2⟩

/-- The store of a list of records, in their order. -/
def ofRecords (kind : Kind) (records : List Record) : Except DatasetError RecordStore :=
  match h : firstFault? kind ∅ records with
  | some e => .error e
  | none =>
    have facts := facts_of_firstFault?_eq_none h
    .ok ⟨kind, records.toArray, by simpa using facts.1, by simpa using facts.2.1⟩

/-- The number of records. -/
def size (s : RecordStore) : Nat := s.records.size

/-- The record at a scan position. -/
def get? (s : RecordStore) (position : Nat) : Option Record := s.records[position]?

end RecordStore

/-- The entry of a dataset in a listing. -/
structure Listing where
  id : String
  kind : Kind
  numRows : Nat
deriving DecidableEq

/-- The entry as a document. -/
def Listing.toJson (l : Listing) : Json :=
  .object [("id", .text l.id), ("kind", .text l.kind.name), ("numRows", .ofNat l.numRows)]

/-- The document of a list of entries. -/
def Listing.listToJson (l : List Listing) : Json := .array (l.map Listing.toJson)

/-- A store under an id. -/
structure Dataset where
  id : String
  store : RecordStore

/-- The dataset's entry in a listing. -/
def Dataset.listing (d : Dataset) : Listing := ⟨d.id, d.store.kind, d.store.size⟩

end CampusQuery
