/-
CampusQuery/Catalog/Error.lean

Why a catalog refuses a call or cannot be opened.

Corruption is fatal: what is stored cannot be trusted, and a catalog with corrupt
files is not opened at all.  All other errors leave the catalog as it is.
-/
import CampusQuery.Dataset.Store
import CampusQuery.Journal.Entry
import CampusQuery.Storage.Path

namespace CampusQuery

/-- The last digits of a number in the base 16, in lower case. -/
def hexDigits : (count : Nat) → Nat → List Char
  | 0, _ => []
  | count + 1, n => hexDigits count (n / 16) ++ [Nat.digitChar (n % 16)]

/-- A checksum as messages show it. -/
def checksumText (sum : UInt32) : String := String.ofList (hexDigits 8 sum.toNat)

/-- What is wrong with the stored files. -/
inductive Corruption where
  /-- The map file is not the map of a catalog. -/
  | mapUnreadable (path : FilePath) (fault : Json.Fault)
  /-- A dataset file is not an envelope. -/
  | datasetUnreadable (path : FilePath) (fault : Json.Fault)
  /-- The envelope has another id or kind than the map says. -/
  | entryMismatch (path : FilePath) (id : String)
  /-- The rows do not have the checksum of the envelope. -/
  | checksumMismatch (id : String) (expected actual : UInt32)
  /-- The rows are no dataset. -/
  | badRows (cause : DatasetError)
  /-- There are more or fewer rows than the map says. -/
  | rowCount (id : String) (held listed : Nat)
deriving DecidableEq

/-- The wording of a corruption. -/
def Corruption.message : Corruption → String
  | .mapUnreadable path fault => s!"Unreadable map file {path.text}: {fault.message}"
  | .datasetUnreadable path fault => s!"Unreadable dataset file {path.text}: {fault.message}"
  | .entryMismatch path id => s!"Dataset file {path.text} does not match catalog entry '{id}'"
  | .checksumMismatch id expected actual =>
    s!"Checksum mismatch for dataset '{id}': expected {checksumText expected}, " ++
      s!"got {checksumText actual}"
  | .badRows cause => cause.message
  | .rowCount id held listed => s!"Dataset '{id}' holds {held} rows, catalog lists {listed}"

/-- Why a call failed. -/
inductive CatalogError where
  | invalidId (id : String)
  | alreadyExists (id : String)
  | notFound (id : String)
  | noRows (id : String)
  /-- The records are no dataset. -/
  | badRecords (id : String) (cause : DatasetError)
  /-- A file or directory could not be read or written. -/
  | unreachable (path : FilePath) (source : FileError)
  /-- A file was written, but could not take its place. -/
  | notCommitted (path : FilePath) (source : FileError)
  | corrupt (cause : Corruption)
deriving DecidableEq

namespace CatalogError

/-- The code of the error. -/
def code : CatalogError → String
  | .invalidId _ => "CAMPUS_INVALID_DATASET_ID"
  | .alreadyExists _ => "CAMPUS_DATASET_EXISTS"
  | .notFound _ => "CAMPUS_DATASET_NOT_FOUND"
  | .noRows _ => "CAMPUS_EMPTY_DATASET"
  | .badRecords _ cause => cause.code
  | .unreachable _ _ | .notCommitted _ _ => "CAMPUS_STORAGE_IO"
  | .corrupt _ => "CAMPUS_DATA_CORRUPTION"

/-- The wording of the error. -/
def message : CatalogError → String
  | .invalidId id => s!"Invalid dataset id '{id}'"
  | .alreadyExists id => s!"Dataset '{id}' already exists"
  | .notFound id => s!"Dataset '{id}' not found"
  | .noRows id => s!"Dataset '{id}' has no valid rows"
  | .badRecords _ cause => cause.message
  | .unreachable path _ => s!"I/O error at {path.text}"
  | .notCommitted path _ => s!"Failed to commit {path.text}"
  | .corrupt cause => cause.message

/-- The dataset that the error is about. -/
def dataset? : CatalogError → Option String
  | .invalidId id | .alreadyExists id | .notFound id | .noRows id | .badRecords id _ => some id
  | .corrupt (.checksumMismatch id _ _) => some id
  | _ => none

/-- The error of the file operation behind this one. -/
def source? : CatalogError → Option FileError
  | .unreachable _ source | .notCommitted _ source => some source
  | _ => none

/-- The stored files cannot be trusted. -/
def isFatal : CatalogError → Bool
  | .corrupt _ => true
  | _ => false

/-- The storage failed, not the caller. -/
def isInternal : CatalogError → Bool
  | .unreachable _ _ | .notCommitted _ _ | .corrupt _ => true
  | _ => false

/-- How serious the error is. -/
def severity (e : CatalogError) : Severity := if e.isFatal then .fatal else .error

/-- The error on one line. -/
def display (e : CatalogError) : String :=
  s!"[{e.severity.name}] {e.code}: {e.message}" ++
    match e.dataset? with
    | some id => s!" (dataset: {id})"
    | none => ""

end CatalogError

end CampusQuery
