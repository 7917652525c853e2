/-
CampusQuery/Catalog/Envelope.lean

The two kinds of files that a catalog is stored in.

The map lists the registered datasets.  Each dataset has a file of its own: an
envelope of its id, its kind, its rows and a checksum of the rows' compact text.  The
times of writing are for readers of the files and mean nothing to the catalog.
-/
import CampusQuery.Catalog.Error
import CampusQuery.Checksum

namespace CampusQuery

open Json (Slot)

/-- The kinds by their names. -/
def Kind.variants : List (String × Kind) := Kind.all.map fun k => (k.name, k)

/-! ### The map -/

namespace Listing

/-- An entry before its fields are read. -/
def blank : Listing := ⟨"", .courses, 0⟩

/-- The fields of an entry. -/
def slots : List (Slot Listing) :=
  [.required "id" Json.Tree.readText fun v l => { l with id := v },
    .required "kind" (Json.Tree.readVariant Kind.variants) fun v l => { l with kind := v },
    .required "numRows" (Json.Tree.readNat "usize" 64) fun v l => { l with numRows := v }]

/-- Reads an entry. -/
def ofTree : Json.Tree → Except Json.Fault Listing :=
  Json.Tree.readRecord .text "DatasetInfo" slots blank

end Listing

/-- The list of the registered datasets, as it is stored. -/
structure CatalogMap where
  updatedAt : String
  datasets : List Listing
deriving DecidableEq

namespace CatalogMap

/-- The map as a document. -/
def toJson (m : CatalogMap) : Json :=
  .object [("updated_at", .text m.updatedAt), ("datasets", Listing.listToJson m.datasets)]

/-- The content of the map file. -/
def toBytes (m : CatalogMap) : ByteArray := m.toJson.pretty.toUTF8

/-- A map before its fields are read. -/
def blank : CatalogMap := ⟨"", []⟩

/-- The fields of a map. -/
def slots : List (Slot CatalogMap) :=
  [.required "updated_at" Json.Tree.readText fun v m => { m with updatedAt := v },
    .required "datasets" (Json.Tree.readList Listing.ofTree) fun v m => { m with datasets := v }]

/-- Reads the content of a map file. -/
def ofBytes [FloatReader] (bytes : ByteArray) : Except Json.Fault CatalogMap :=
  Json.readText (Json.Tree.readRecord .text "CatalogMap" slots blank) (.ofBytes bytes)

end CatalogMap

/-! ### Envelopes -/

/-- A dataset as it is stored. -/
structure Envelope where
  id : String
  kind : Kind
  writtenAt : String
  checksum : UInt32
  rows : Json

namespace Envelope

/-- The rows of a store, members in the order of their names. -/
def rowsOf (s : RecordStore) : Json := (Json.array (s.records.toList.map Record.toJson)).sorted

/-- The checksum of rows. -/
def checksumOf (rows : Json) : UInt32 := Checksum.ofText rows.write

/-- The envelope of a dataset. -/
def ofDataset (d : Dataset) (writtenAt : String) : Envelope :=
  let rows := rowsOf d.store
  ⟨d.id, d.store.kind, writtenAt, checksumOf rows, rows⟩

/-- The envelope as a document. -/
def toJson (e : Envelope) : Json :=
  .object [("id", .text e.id), ("kind", .text e.kind.name), ("written_at", .text e.writtenAt),
    ("checksum", .ofNat e.checksum.toNat), ("rows", e.rows)]

/-- The content of a dataset file. -/
def toBytes (e : Envelope) : ByteArray := e.toJson.write.toUTF8

/-- An envelope before its fields are read. -/
def blank : Envelope := ⟨"", .courses, "", 0, .null⟩

/-- The fields of an envelope.  The rows are one level of brackets further in. -/
def slots : List (Slot Envelope) :=
  [.required "id" Json.Tree.readText fun v e => { e with id := v },
    .required "kind" (Json.Tree.readVariant Kind.variants) fun v e => { e with kind := v },
    .required "written_at" Json.Tree.readText fun v e => { e with writtenAt := v },
    .required "checksum" (Json.Tree.readNat "u32" 32) fun v e => { e with checksum := .ofNat v },
    .required "rows" (Json.Tree.readAny (Json.maxDepth - 1)) fun v e => { e with rows := v }]

/-- Reads the content of a dataset file. -/
def ofBytes [FloatReader] (bytes : ByteArray) : Except Json.Fault Envelope :=
  Json.readText (Json.Tree.readRecord .text "DatasetEnvelope" slots blank) (.ofBytes bytes)

/-- The dataset of rows that an entry of the map describes. -/
def datasetOf (id : String) (kind : Kind) (rows : Json) (entry : Listing) :
    Except Corruption Dataset :=
  match Record.readRows kind rows with
  | .error cause => .error (.badRows cause)
  | .ok records =>
    if records.length ≠ entry.numRows then
      .error (.rowCount entry.id records.length entry.numRows)
    else
      match RecordStore.ofRecords kind records with
      | .ok store => .ok ⟨id, store⟩
      | .error cause => .error (.badRows cause)

/-- The dataset in an envelope that was found at `path` and has to fit an entry of the
map. -/
def open? (e : Envelope) (path : FilePath) (entry : Listing) : Except Corruption Dataset :=
  if e.id ≠ entry.id ∨ e.kind ≠ entry.kind then .error (.entryMismatch path entry.id)
  else if checksumOf e.rows ≠ e.checksum then
    .error (.checksumMismatch entry.id e.checksum (checksumOf e.rows))
  else datasetOf e.id e.kind e.rows entry

end Envelope

end CampusQuery
