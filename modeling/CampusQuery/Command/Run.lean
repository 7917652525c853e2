/-
CampusQuery/Command/Run.lean

What the commands do.

Every command reads the configuration and opens the catalog.  The commands that answer
their caller with a line drop all journal entries below errors first, so the line is
all that they write to the channel of answers.
-/
import CampusQuery.Command.Address
import CampusQuery.Command.Arguments
import CampusQuery.Command.Config
import CampusQuery.Dataset.CourseDirectory
import CampusQuery.Service.Handle

namespace CampusQuery

namespace Command

variable [FloatReader]

/-! ### Starting -/

/-- Opens the catalog of a configuration, and reports the start. -/
def openCatalog (config : Config) : Action CommandError Catalog := do
  Program.report .bootStart []
  Program.report .configLoaded [("data_dir", config.dataDir)]
  let catalog ← Action.orFail .notOpened (Catalog.openAt ⟨⟨config.dataDir⟩⟩).run
  Program.report .bootComplete []
  return catalog

/-- Reads the configuration and opens the catalog.  A quiet start drops all entries
below errors, any other those below the configured level. -/
def boot (path : String) (quiet : Bool) : Action CommandError (Config × Catalog) := do
  let (config, level) ← Config.load ⟨path⟩
  Program.setMinimum (if quiet then .error else level)
  let catalog ← openCatalog config
  return (config, catalog)

/-! ### Answers -/

/-- The answer to a command that succeeded. -/
def successLine (data : Json) : String :=
  (Json.object [("data", data), ("status", .text "ok")]).write

/-- The answer to a query that has none. -/
def failureLine (f : QueryFailure) : String :=
  (Json.object [("code", .text f.code), ("message", .text f.message),
    ("status", .text "error")]).write

/-! ### Input -/

/-- Reads the request. -/
def readRequest : Action CommandError Json := do
  let text ← Action.orFail .inputUnreadable Program.requestText
  if Text.allBlank text then throw .inputEmpty
  match Json.read? text.toList with
  | some document => return document
  | none => throw (.malformed .malformed)

/-- Reads the records in a file of rows. -/
def readRows (kind : Kind) (path : FilePath) : Action CommandError (List Record) := do
  let text ← Action.orFail (.unreadable path) (Program.readsText path)
  match Json.read? text.toList with
  | none => throw (.malformed .malformed)
  | some rows =>
    match Record.readRows kind rows with
    | .ok records => return records
    | .error cause => throw (.badRows cause)

/-- Reads the records in a file of rows or a directory of course documents. -/
def readRecords (kind : Kind) (path : FilePath) : Action CommandError (List Record) := do
  if ← Program.asking .isDirectory path then
    match kind with
    | .courses =>
      let sections ← Action.orFail (.unreadable path) (CourseDirectory.read path).run
      return sections.map Record.course
    | .rooms => throw (.directoryOfRooms path)
  else readRows kind path

/-! ### Commands -/

/-- How a command ends that did not fail. -/
inductive Outcome where
  /-- The caller has its answer. -/
  | answered
  /-- The service can listen at an address. -/
  | ready (address : String) (policy : Service.OriginPolicy) (catalog : Catalog)

/-- Starts the service. -/
def runServe (config : String) : Action CommandError Outcome := do
  let (config, catalog) ← boot config false
  match Service.OriginPolicy.ofOrigins? config.http.corsOrigins with
  | none => throw .wildcardOrigin
  | some policy =>
    if SocketAddress.isValid config.http.address then
      return .ready config.http.address policy catalog
    else throw (.badAddress config.http.address)

/-- Answers the query that the caller sends. -/
def runQuery (config : String) : Action CommandError Outcome := do
  let (_, catalog) ← boot config true
  let document ← readRequest
  let (result, _) ← catalog.query document
  match result with
  | .ok answer => Program.reply (successLine answer.rowsJson.sorted)
  | .error f => Program.reply (failureLine f)
  return .answered

/-- Adds the dataset in a file or directory, and answers with the ids. -/
def runAdd (config id kind file : String) : Action CommandError Outcome := do
  match Kind.ofName? kind with
  | none => throw (.unknownKind kind)
  | some kind =>
    let records ← readRecords kind ⟨file⟩
    let (_, catalog) ← boot config true
    let ids ← Action.orFail .catalog (Prod.fst <$> catalog.add id kind records)
    Program.reply (successLine (.array (ids.map .text)))
    return .answered

/-- Removes a dataset, and answers with its id. -/
def runRemove (config id : String) : Action CommandError Outcome := do
  let (_, catalog) ← boot config true
  let removed ← Action.orFail .catalog (Prod.fst <$> catalog.remove id)
  Program.reply (successLine (.text removed))
  return .answered

/-- Answers with the entries of the datasets. -/
def runList (config : String) : Action CommandError Outcome := do
  let (_, catalog) ← boot config true
  Program.reply (successLine (Listing.listToJson catalog.registry.listings))
  return .answered

/-- Runs a command. -/
def run : Command → Action CommandError Outcome
  | .serve config => runServe config
  | .query config => runQuery config
  | .add config id kind file => runAdd config id kind file
  | .remove config id => runRemove config id
  | .list config => runList config

end Command

end CampusQuery
