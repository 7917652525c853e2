/-
CampusQuery/Journal/Metrics.lean

Counters of what a catalog did since it was opened.

They have 64 bits, and go on with zero after the largest number.
-/
import CampusQuery.Json.Basic

namespace CampusQuery

/-- The counters of a catalog. -/
structure Metrics where
  queriesExecuted : UInt64
  queriesRejected : UInt64
  resultsTooLarge : UInt64
  rowsReturned : UInt64
  datasetsAdded : UInt64
  datasetsRemoved : UInt64
deriving DecidableEq

namespace Metrics

/-- All counters at their start. -/
def zero : Metrics := ⟨0, 0, 0, 0, 0, 0⟩

/-- A query was answered with so many rows. -/
def countAnswer (m : Metrics) (rows : Nat) : Metrics :=
  { m with queriesExecuted := m.queriesExecuted + 1, rowsReturned := m.rowsReturned + .ofNat rows }

/-- A query was rejected. -/
def countRejected (m : Metrics) : Metrics := { m with queriesRejected := m.queriesRejected + 1 }

/-- A query had too many rows. -/
def countTooLarge (m : Metrics) : Metrics := { m with resultsTooLarge := m.resultsTooLarge + 1 }

/-- A dataset was added. -/
def countAdded (m : Metrics) : Metrics := { m with datasetsAdded := m.datasetsAdded + 1 }

/-- A dataset was removed. -/
def countRemoved (m : Metrics) : Metrics := { m with datasetsRemoved := m.datasetsRemoved + 1 }

/-- The counters as a document, in the order of their names. -/
def toJson (m : Metrics) : Json :=
  .object [("datasets_added", .ofNat m.datasetsAdded.toNat),
    ("datasets_removed", .ofNat m.datasetsRemoved.toNat),
    ("queries_executed", .ofNat m.queriesExecuted.toNat),
    ("queries_rejected", .ofNat m.queriesRejected.toNat),
    ("results_too_large", .ofNat m.resultsTooLarge.toNat),
    ("rows_returned", .ofNat m.rowsReturned.toNat)]

end Metrics

end CampusQuery
