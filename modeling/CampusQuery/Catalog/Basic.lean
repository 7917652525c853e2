/-
CampusQuery/Catalog/Basic.lean

The catalog: registered datasets, where they are stored, and counters.

A call returns its result and the catalog after it, whether it succeeded or failed.
With a data directory every change is stored before it is visible.  A
dataset's file is written before the map lists it, and is removed after the map no
longer does: what the map lists is always there.
-/
import CampusQuery.Catalog.Files
import CampusQuery.Catalog.Registry
import CampusQuery.Journal.Metrics

namespace CampusQuery

open Journal (Event Fields Scope)

/-- Registered datasets, stored in a directory or only in memory. -/
structure Catalog where
  registry : Registry
  directory : Option DataDirectory
  metrics : Metrics

namespace Catalog

/-- An empty catalog that is stored nowhere. -/
def inMemory : Catalog := ⟨.empty, none, .zero⟩

/-! ### Opening -/

variable [FloatReader]

/-- Reports dataset files that could not be removed. -/
def reportOrphans : List String → Program Unit
  | [] => return ()
  | id :: rest => do
    Program.report .datasetFileOrphaned [("id", id)]
    reportOrphans rest

/-- Reads the datasets of entries into a registry; of two entries with one id the last
counts. -/
def readAll (d : DataDirectory) : List Listing → Registry → Action CatalogError Registry
  | [], r => return r
  | entry :: rest, r => do
    let dataset ← d.readDataset entry
    readAll d rest (r.insert dataset)

/-- Restores the catalog of a directory, and removes orphans once every dataset was
read. -/
def restore (d : DataDirectory) : Action CatalogError Catalog := do
  d.prepare
  let entries ← d.readMap
  let registry ← readAll d entries .empty
  reportOrphans (← d.sweep (entries.map Listing.id))
  return ⟨registry, some d, .zero⟩

/-- The work of restoring a catalog. -/
def restoreScope (d : DataDirectory) : Scope := ⟨"CATALOG_RESTORE", [("data_dir", d.path.text)]⟩

/-- Opens the catalog of a directory, and reports how that went. -/
def openAt (d : DataDirectory) : Action CatalogError Catalog :=
  ExceptT.mk do
    Program.log (restoreScope d).begun
    let result ← (restore d).run
    match result with
    | .ok c =>
      let count := [("datasets", toString c.registry.size)]
      let elapsed ← Program.take .elapsed
      Program.log ((restoreScope d).completed count elapsed)
      Program.report .catalogLoaded count
    | .error e => Program.log ((restoreScope d).failed e.severity e.message)
    return result

/-! ### Changing -/

/-- The dataset that records make under an id, if the registry can take it. -/
def checkAddition (r : Registry) (id : String) (kind : Kind) (records : List Record) :
    Except CatalogError Dataset :=
  if !isDatasetId id then .error (.invalidId id)
  else if records.isEmpty then .error (.noRows id)
  else if r.contains id then .error (.alreadyExists id)
  else
    match RecordStore.ofRecords kind records with
    | .ok store => .ok ⟨id, store⟩
    | .error cause => .error (.badRecords id cause)

/-- Stores a new dataset, and then a map that lists it. -/
def storeAdded (dataset : Dataset) (entries : List Listing) :
    Option DataDirectory → Action CatalogError Unit
  | none => return ()
  | some d => do
    d.writeDataset dataset
    d.writeMap entries

/-- Adds a dataset, and returns the ids of all datasets then. -/
def add (c : Catalog) (id : String) (kind : Kind) (records : List Record) :
    Program (Except CatalogError (List String) × Catalog) :=
  match checkAddition c.registry id kind records with
  | .error e => return (.error e, c)
  | .ok dataset => do
    match ← (storeAdded dataset (c.registry.listingsWith dataset) c.directory).run with
    | .error e => return (.error e, c)
    | .ok () =>
      let registry := c.registry.insert dataset
      Program.report .datasetAdded
        [("id", id), ("kind", kind.name), ("rows", toString dataset.store.size)]
      return (.ok registry.ids, { c with registry, metrics := c.metrics.countAdded })

/-- The id can be removed from the registry. -/
def checkRemoval (r : Registry) (id : String) : Except CatalogError Unit :=
  if !isDatasetId id then .error (.invalidId id)
  else if !r.contains id then .error (.notFound id)
  else .ok ()

/-- Stores a map that does not list a dataset any more, and then removes its file.  A
file that is left behind is only reported. -/
def storeRemoved (id : String) (entries : List Listing) :
    Option DataDirectory → Action CatalogError Unit
  | none => return ()
  | some d => do
    d.writeMap entries
    let gone ← d.removeDataset id
    reportOrphans (if gone then [] else [id])

/-- Removes a dataset, and returns its id. -/
def remove (c : Catalog) (id : String) : Program (Except CatalogError String × Catalog) :=
  match checkRemoval c.registry id with
  | .error e => return (.error e, c)
  | .ok () => do
    match ← (storeRemoved id (c.registry.listingsWithout id) c.directory).run with
    | .error e => return (.error e, c)
    | .ok () =>
      let registry := c.registry.erase id
      Program.report .datasetRemoved [("id", id)]
      return (.ok id, { c with registry, metrics := c.metrics.countRemoved })

/-! ### Querying -/

/-- The event of a query's outcome, and what it reports besides the query's name and
time. -/
def outcomeEvent : Except QueryFailure Answer → Event × Fields
  | .ok a => (.queryComplete, [("dataset", a.dataset), ("rows", toString a.rows.length)])
  | .error f@(.tooLarge _) => (.queryTooLarge, [("reason", f.message)])
  | .error f@(.rejected cause) => (.queryRejected, [("code", cause.code), ("reason", f.message)])

/-- The counters after a query with the given outcome. -/
def countOutcome (m : Metrics) : Except QueryFailure Answer → Metrics
  | .ok a => m.countAnswer a.rows.length
  | .error (.tooLarge _) => m.countTooLarge
  | .error (.rejected _) => m.countRejected

/-- Answers a query on a registry, and reports the outcome. -/
def queryRegistry (r : Registry) (document : Json) : Program (Except QueryFailure Answer) := do
  let name ← Program.take .identifier
  let result := r.view.answer document
  let elapsed ← Program.take .elapsed
  let (event, fields) := outcomeEvent result
  Program.report event ([("query_id", name)] ++ fields ++ [("elapsed_ms", elapsed)])
  return result

/-- Answers a query, reports the outcome and counts it. -/
def query (c : Catalog) (document : Json) : Program (Except QueryFailure Answer × Catalog) := do
  let result ← queryRegistry c.registry document
  return (result, { c with metrics := countOutcome c.metrics result })

end Catalog

end CampusQuery
