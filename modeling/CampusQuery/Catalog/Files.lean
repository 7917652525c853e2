/-
CampusQuery/Catalog/Files.lean

Reading and writing the data directory of a catalog.

The directory holds the map, `catalog.json`, and the directory `datasets` with one
file for each dataset.  A file is written beside its place under a temporary name and
then moved there, so that nobody meets it half written.  A dataset file that the map
does not list is an orphan and is removed when the catalog is opened.
-/
import CampusQuery.Catalog.Envelope
import CampusQuery.Program.World

namespace CampusQuery

/-- The directory that a catalog is stored in. -/
structure DataDirectory where
  path : FilePath
deriving DecidableEq

namespace DataDirectory

/-! ### Paths -/

/-- The path of the map. -/
def mapPath (d : DataDirectory) : FilePath := d.path.join "catalog.json"

/-- The directory of the dataset files. -/
def datasetsPath (d : DataDirectory) : FilePath := d.path.join "datasets"

/-- The name of the file of a dataset. -/
def fileName (id : String) : String := id ++ ".json"

/-- The id of the dataset whose file has a name. -/
def idOfFile? (name : String) : Option String :=
  let cs := name.toList
  let ending := ".json".toList
  if ending.isSuffixOf cs then some (String.ofList (cs.take (cs.length - ending.length))) else none

/-- The path of the file of a dataset. -/
def datasetPath (d : DataDirectory) (id : String) : FilePath := d.datasetsPath.join (fileName id)

/-! ### Reading -/

variable [FloatReader]

/-- Makes the directories that are missing. -/
def prepare (d : DataDirectory) : Action CatalogError Unit :=
  Action.orFail (.unreachable d.datasetsPath) (Program.changing (.makeDirectories d.datasetsPath))

/-- The entries of the map; without a map there are none. -/
def readMap (d : DataDirectory) : Action CatalogError (List Listing) := do
  if ← Program.asking .present d.mapPath then
    let bytes ← Action.orFail (.unreachable d.mapPath) (Program.reads d.mapPath)
    match CatalogMap.ofBytes bytes with
    | .ok m => return m.datasets
    | .error fault => throw (.corrupt (.mapUnreadable d.mapPath fault))
  else return []

/-- The dataset of an entry of the map. -/
def readDataset (d : DataDirectory) (entry : Listing) : Action CatalogError Dataset := do
  let path := d.datasetPath entry.id
  let bytes ← Action.orFail (.unreachable path) (Program.reads path)
  match Envelope.ofBytes bytes with
  | .error fault => throw (.corrupt (.datasetUnreadable path fault))
  | .ok envelope =>
    match envelope.open? path entry with
    | .ok dataset => return dataset
    | .error cause => throw (.corrupt cause)

/-! ### Writing -/

/-- Puts a file with the given content at a path. -/
def replace (path : FilePath) (content : ByteArray) : Action CatalogError Unit := do
  Action.orFail (.unreachable path.temporary) (Program.changing (.create path.temporary))
  Action.orFail (.unreachable path.temporary) (Program.changing (.fill path.temporary content))
  Action.orFail (.notCommitted path) (Program.changing (.rename path.temporary path))

/-- Writes the map. -/
def writeMap (d : DataDirectory) (entries : List Listing) : Action CatalogError Unit := do
  let updatedAt ← Program.take .timestamp
  replace d.mapPath (CatalogMap.toBytes ⟨updatedAt, entries⟩)

/-- Writes the file of a dataset. -/
def writeDataset (d : DataDirectory) (dataset : Dataset) : Action CatalogError Unit := do
  let writtenAt ← Program.take .timestamp
  replace (d.datasetPath dataset.id) (Envelope.ofDataset dataset writtenAt).toBytes

/-- Removes the file of a dataset; the answer tells whether it is gone. -/
def removeDataset (d : DataDirectory) (id : String) : Program Bool := do
  match ← Program.changing (.remove (d.datasetPath id)) with
  | .ok _ | .error .notFound => return true
  | .error _ => return false

/-! ### Orphans -/

/-- The ids of dataset files that are not listed, among the names in the directory. -/
def orphans (listed : List String) (names : List String) : List String :=
  (names.filterMap idOfFile?).filter fun id => !listed.contains id

/-- Removes the files of datasets, and returns the ids of those that are still there. -/
def removeAll (d : DataDirectory) : List String → Program (List String)
  | [] => return []
  | id :: rest => do
    let gone ← d.removeDataset id
    let stuck ← d.removeAll rest
    return if gone then stuck else id :: stuck

/-- Removes the orphans, and returns the ids of those that are still there, in their
order.  If the listing of the directory breaks off, the orphans that were met before are
gone. -/
def sweep (d : DataDirectory) (listed : List String) : Action CatalogError (List String) := do
  let found ← Action.orFail (.unreachable d.datasetsPath) (Program.listing d.datasetsPath)
  let stuck ← d.removeAll (orphans listed found.texts)
  match found.failure with
  | some e => throw (.unreachable d.datasetsPath e)
  | none => return stuck.mergeSort fun a b => a ≤ b

end DataDirectory

end CampusQuery
