/-
CampusQuery/Journal/Event.lean

The events that the database reports, and the entries that frame a piece of work.

A failed request is no failure of the database, so the events about one are warnings;
all others are for information.
-/
import CampusQuery.Journal.Entry

namespace CampusQuery.Journal

/-- What the database reports. -/
inductive Event where
  | bootStart
  | bootComplete
  | configLoaded
  | catalogLoaded
  | datasetAdded
  | datasetRemoved
  | datasetFileOrphaned
  | queryComplete
  | queryRejected
  | queryTooLarge
  | serverListening
deriving DecidableEq

namespace Event

/-- All events. -/
def all : List Event :=
  [.bootStart, .bootComplete, .configLoaded, .catalogLoaded, .datasetAdded, .datasetRemoved,
    .datasetFileOrphaned, .queryComplete, .queryRejected, .queryTooLarge, .serverListening]

/-- The name of an event. -/
def name : Event → String
  | .bootStart => "BOOT_START"
  | .bootComplete => "BOOT_COMPLETE"
  | .configLoaded => "CONFIG_LOADED"
  | .catalogLoaded => "CATALOG_LOADED"
  | .datasetAdded => "DATASET_ADDED"
  | .datasetRemoved => "DATASET_REMOVED"
  | .datasetFileOrphaned => "DATASET_FILE_ORPHANED"
  | .queryComplete => "QUERY_COMPLETE"
  | .queryRejected => "QUERY_REJECTED"
  | .queryTooLarge => "QUERY_TOO_LARGE"
  | .serverListening => "SERVER_LISTENING"

/-- The event with a name. -/
def ofName? (s : String) : Option Event := all.find? (·.name == s)

/-- The event is about something that failed. -/
def isFailure : Event → Bool
  | .queryRejected | .queryTooLarge | .datasetFileOrphaned => true
  | _ => false

/-- How serious an event is. -/
def severity (e : Event) : Severity := if e.isFailure then .warn else .info

/-- The entry about an event. -/
def entry (e : Event) (fields : Fields) : Entry := ⟨e.severity, e.name, fields⟩

end Event

/-! ### Pieces of work -/

/-- A piece of work, whose begin and end are entries of their own. -/
structure Scope where
  name : String
  fields : Fields

namespace Scope

/-- The entry at the begin of the work. -/
def begun (s : Scope) : Entry := ⟨.info, s.name ++ "_BEGIN", s.fields⟩

/-- The entry at the end of work that took `elapsed`. -/
def completed (s : Scope) (extra : Fields) (elapsed : String) : Entry :=
  ⟨.info, s.name ++ "_COMPLETE", s.fields ++ extra ++ [("elapsed_ms", elapsed)]⟩

/-- The entry at the end of work that failed. -/
def failed (s : Scope) (severity : Severity) (reason : String) : Entry :=
  ⟨severity, s.name ++ "_FAILED", [("reason", reason)]⟩

/-- The entry about work that was given up. -/
def abandoned (s : Scope) : Entry :=
  ⟨.warn, s.name ++ "_INCOMPLETE", [("reason", "scope dropped without completion")]⟩

end Scope

end CampusQuery.Journal
