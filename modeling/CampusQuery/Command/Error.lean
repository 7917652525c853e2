/-
CampusQuery/Command/Error.lean

Why a command fails.

Every failure ends the program; its code says which part failed: the configuration,
files and streams, what the caller gave, the catalog, or the start.
-/
import CampusQuery.Catalog.Error

namespace CampusQuery

/-- What is wrong with a configuration. -/
inductive ConfigFault where
  | unreadable (source : FileError)
  | malformed (fault : Json.Fault)
  | dataDirEmpty
  | portZero
  | unknownLevel (name : String)
deriving DecidableEq

/-- The wording of a fault in the configuration. -/
def ConfigFault.message : ConfigFault → String
  | .unreadable source => s!"Failed to read config: {source.message}"
  | .malformed fault => s!"Invalid config JSON: {fault.message}"
  | .dataDirEmpty => "data_dir must not be empty"
  | .portZero => "http.port must be > 0"
  | .unknownLevel name =>
    s!"Invalid log_level: '{name}'. Must be one of TRACE, INFO, WARN, ERROR, FATAL."

/-- Why a command fails. -/
inductive CommandError where
  | config (fault : ConfigFault)
  /-- A file or directory of rows could not be read. -/
  | unreadable (path : FilePath) (source : FileError)
  /-- A file of rows or the request is not JSON. -/
  | malformed (fault : Json.Fault)
  | inputUnreadable (source : FileError)
  | inputEmpty
  | unknownKind (name : String)
  /-- Only sections can be read from a directory. -/
  | directoryOfRooms (path : FilePath)
  | badRows (cause : DatasetError)
  | catalog (cause : CatalogError)
  | notOpened (cause : CatalogError)
  /-- The list of allowed sites has the wildcard as an entry. -/
  | wildcardOrigin
  | badAddress (address : String)
deriving DecidableEq

namespace CommandError

/-- The code of the error. -/
def code : CommandError → String
  | .config _ => "CAMPUS_CLI_CONFIG_ERROR"
  | .unreadable _ _ | .malformed _ | .inputUnreadable _ | .inputEmpty => "CAMPUS_CLI_IO_ERROR"
  | .unknownKind _ | .directoryOfRooms _ | .badRows _ => "CAMPUS_CLI_INVALID_INPUT"
  | .catalog _ => "CAMPUS_CLI_CATALOG_ERROR"
  | .notOpened _ | .wildcardOrigin | .badAddress _ => "CAMPUS_CLI_BOOT_FAILED"

/-- The wording of the error. -/
def message : CommandError → String
  | .config fault => fault.message
  | .unreadable path source => s!"Failed to read {path.text}: {source.message}"
  | .malformed fault => s!"JSON error: {fault.message}"
  | .inputUnreadable source => source.message
  | .inputEmpty => "Empty input"
  | .unknownKind name => s!"Invalid kind '{name}': expected courses or rooms"
  | .directoryOfRooms path =>
    s!"{path.text} is a directory; only courses datasets can be read from course documents"
  | .badRows cause => cause.display
  | .catalog cause => cause.display
  | .notOpened cause => s!"Failed to open catalog: {cause.display}"
  | .wildcardOrigin => "HTTP server failed: the wildcard cannot be one of several origins"
  | .badAddress address =>
    s!"HTTP server failed: Invalid socket address '{address}': invalid socket address syntax"

/-- The error on one line. -/
def display (e : CommandError) : String := s!"{e.code}: {e.message}"

end CommandError

end CampusQuery
