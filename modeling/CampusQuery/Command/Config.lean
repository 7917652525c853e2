/-
CampusQuery/Command/Config.lean

The configuration file: where the data is, where the service listens, and which
journal entries are wanted.  Only the data directory has to be given.
-/
import CampusQuery.Command.Error
import CampusQuery.Program.Text
import CampusQuery.Text.Blank

namespace CampusQuery

open Json (Slot)

/-- Where the service listens, and which sites may read its answers. -/
structure ListenerConfig where
  host : String
  port : Nat
  corsOrigins : List String
deriving DecidableEq

namespace ListenerConfig

/-- What holds where nothing is given. -/
def initial : ListenerConfig := ⟨"0.0.0.0", 4321, []⟩

/-- The fields of the configuration. -/
def slots : List (Slot ListenerConfig) :=
  [.defaulted "host" Json.Tree.readText fun v c => { c with host := v },
    .defaulted "port" (Json.Tree.readNat "u16" 16) fun v c => { c with port := v },
    .defaulted "cors_origins" (Json.Tree.readList Json.Tree.readText)
      fun v c => { c with corsOrigins := v }]

/-- Reads the configuration. -/
def ofTree : Json.Tree → Except Json.Fault ListenerConfig :=
  Json.Tree.readRecord .text "HttpServerConfig" slots initial

/-- The configuration as a document. -/
def toJson (c : ListenerConfig) : Json :=
  .object [("host", .text c.host), ("port", .ofNat c.port),
    ("cors_origins", .array (c.corsOrigins.map .text))]

/-- The address to listen at. -/
def address (c : ListenerConfig) : String := s!"{c.host}:{c.port}"

end ListenerConfig

/-- The configuration of the program. -/
structure Config where
  dataDir : String
  http : ListenerConfig
  logLevel : String
deriving DecidableEq

namespace Config

/-- What holds where nothing is given. -/
def initial : Config := ⟨"", .initial, "INFO"⟩

/-- The fields of the configuration. -/
def slots : List (Slot Config) :=
  [.required "data_dir" Json.Tree.readText fun v c => { c with dataDir := v },
    .defaulted "http" ListenerConfig.ofTree fun v c => { c with http := v },
    .defaulted "log_level" Json.Tree.readText fun v c => { c with logLevel := v }]

/-- Reads a configuration from its text. -/
def ofText [FloatReader] (text : String) : Except Json.Fault Config :=
  Json.readText (Json.Tree.readRecord .text "Config" slots initial) (.ofText text)

/-- The configuration as a document. -/
def toJson (c : Config) : Json :=
  .object [("data_dir", .text c.dataDir), ("http", c.http.toJson), ("log_level", .text c.logLevel)]

/-- What is wrong with the values of a configuration, and else its journal level. -/
def level (c : Config) : Except ConfigFault Severity :=
  if Text.allBlank c.dataDir then .error .dataDirEmpty
  else if c.http.port = 0 then .error .portZero
  else
    match Severity.ofName? c.logLevel with
    | some s => .ok s
    | none => .error (.unknownLevel c.logLevel)

end Config

/-! ### Reading -/

namespace Config

/-- Reads and checks a configuration file; the result has its journal level too. -/
def load [FloatReader] (path : FilePath) : Action CommandError (Config × Severity) := do
  let text ← Action.orFail (fun e => .config (.unreadable e)) (Program.readsText path)
  match ofText text with
  | .error fault => throw (.config (.malformed fault))
  | .ok c =>
    match c.level with
    | .ok s => return (c, s)
    | .error fault => throw (.config fault)

end Config

end CampusQuery
