/-
CampusQuery/Proofs/Catalog/Codec.lean

What is stored is what is read.

The two kinds of files are read back from their bytes: the map (`ofBytes_toBytes`) and
the envelope of a dataset, which opens to the dataset it was made of
(`open?_ofDataset`).  The numbers have to be those that a document can hold
(`Record.Storable`): finite, and integers of 64 bits.
-/
import CampusQuery.Catalog.Envelope
import CampusQuery.Proofs.Dataset.Stores
import CampusQuery.Proofs.Json.Canonical
import CampusQuery.Proofs.Json.Scans
import Mathlib.Data.String.Basic

namespace CampusQuery

open Json (Tree Canonical)

/-! ### Records -/

/-- An integer of 64 bits with sign. -/
def IsInt64 (i : Int) : Prop := Binary64.minInt64 ≤ i ∧ i ≤ Binary64.maxInt64

/-- The numbers of the section can be stored. -/
structure Section.Storable (s : Section) : Prop where
  avg : s.avg.isFinite = true
  pass : IsInt64 s.pass
  fail : IsInt64 s.fail
  audit : IsInt64 s.audit
  year : IsInt64 s.year

/-- The numbers of the room can be stored. -/
structure Room.Storable (r : Room) : Prop where
  lat : r.lat.isFinite = true
  lon : r.lon.isFinite = true
  seats : IsInt64 r.seats

/-- The numbers of the record can be stored. -/
def Record.Storable : Record → Prop
  | .course s => s.Storable
  | .room r => r.Storable

theorem readInt64_ofInt {i : Int} (h : IsInt64 i) :
    Tree.readInt64 (.number (some (.integer i))) = .ok i := if_pos h

theorem IsInt64.storable {i : Int} (h : IsInt64 i) : (Json.Number.integer i).Storable :=
  ⟨h.1, Int.lt_of_le_of_lt h.2 (by decide)⟩

theorem storable_ofInt {i : Int} (h : IsInt64 i) : Json.Storable (.ofInt i) := .number h.storable

theorem storable_natCast {n : Nat} (h : n < 2 ^ 64) : (Json.Number.integer n).Storable := by
  have hleast : Binary64.minInt64 ≤ 0 := by decide
  exact ⟨by omega, Int.ofNat_lt.mpr h⟩

theorem storable_ofNat {n : Nat} (h : n < 2 ^ 64) : Json.Storable (.ofNat n) :=
  .number (storable_natCast h)

theorem readNat_ofNat {name : String} {bits n : Nat} (h : n < 2 ^ bits) :
    Tree.readNat name bits (Tree.ofJson (.ofNat n)) = .ok n := by
  have hrange : (0 : Int) ≤ n ∧ (n : Int) ≤ (Nat.pow 2 bits : Nat) - 1 := by
    have hlt : (n : Int) < (Nat.pow 2 bits : Nat) := Int.ofNat_lt.mpr h
    omega
  show (Tree.readInteger name 0 _ (.number (some (.integer n)))).map Int.toNat = _
  rw [Tree.readInteger, if_pos hrange]
  rfl

theorem Kind.readVariant_name (k : Kind) :
    Tree.readVariant Kind.variants (.text (some k.name)) = .ok k := by
  cases k <;> rfl

namespace Section

/-- The section as it is stored, members in the order of their names. -/
theorem sorted_toJson (s : Section) : s.toJson.sorted =
    .object [("audit", .ofInt s.audit), ("avg", .number (.float s.avg)), ("dept", .text s.dept),
      ("fail", .ofInt s.fail), ("id", .text s.course), ("instructor", .text s.instructor),
      ("pass", .ofInt s.pass), ("title", .text s.title), ("uuid", .text s.uuid),
      ("year", .ofInt s.year)] := by
  simp [toJson, Json.sorted, Json.sortedMembers, Json.sortMembers, Json.insertMember, Json.ofInt,
    -String.lt_iff_ltb]

theorem ofTree_sorted {s : Section} (h : s.Storable) :
    ofTree (Tree.ofJson s.toJson.sorted) = .ok s := by
  rw [sorted_toJson]
  simp [ofTree, Tree.readRecord, Tree.ofJson, Tree.ofMembers, Tree.readMembers, slots,
    Json.Slot.required, Json.ofInt, Tree.readText, Tree.readBinary64, Except.map,
    Json.Number.toBinary64, readInt64_ofInt h.pass, readInt64_ofInt h.fail,
    readInt64_ofInt h.audit, readInt64_ofInt h.year]
  rfl

theorem storable_sorted {s : Section} (h : s.Storable) : s.toJson.sorted.Storable := by
  rw [sorted_toJson]
  refine .object ?_
  simp only [List.forall_mem_cons, List.not_mem_nil, false_imp_iff, implies_true, and_true]
  exact ⟨storable_ofInt h.audit, .number h.avg, .text _, storable_ofInt h.fail, .text _, .text _,
    storable_ofInt h.pass, .text _, .text _, storable_ofInt h.year⟩

theorem canonical_sorted (s : Section) : Canonical 1 s.toJson.sorted := by
  rw [sorted_toJson]
  refine .object ?_ ?_
  · simp [Json.Increasing, -String.lt_iff_ltb]
  · simp only [List.forall_mem_cons, List.not_mem_nil, false_imp_iff, implies_true, and_true]
    exact ⟨.number _, .number _, .text _, .number _, .text _, .text _, .number _, .text _, .text _,
      .number _⟩

end Section

namespace Room

/-- The room as it is stored, members in the order of their names. -/
theorem sorted_toJson (r : Room) : r.toJson.sorted =
    .object [("address", .text r.address), ("fullname", .text r.fullname),
      ("furniture", .text r.furniture), ("href", .text r.href), ("lat", .number (.float r.lat)),
      ("lon", .number (.float r.lon)), ("name", .text r.name), ("number", .text r.number),
      ("seats", .ofInt r.seats), ("shortname", .text r.shortname), ("type", .text r.type)] := by
  simp [toJson, Json.sorted, Json.sortedMembers, Json.sortMembers, Json.insertMember, Json.ofInt,
    -String.lt_iff_ltb]

theorem ofTree_sorted {r : Room} (h : r.Storable) :
    ofTree (Tree.ofJson r.toJson.sorted) = .ok r := by
  rw [sorted_toJson]
  simp [ofTree, Tree.readRecord, Tree.ofJson, Tree.ofMembers, Tree.readMembers, slots,
    Json.Slot.required, Json.ofInt, Tree.readText, Tree.readBinary64, Except.map,
    Json.Number.toBinary64, readInt64_ofInt h.seats]
  rfl

theorem storable_sorted {r : Room} (h : r.Storable) : r.toJson.sorted.Storable := by
  rw [sorted_toJson]
  refine .object ?_
  simp only [List.forall_mem_cons, List.not_mem_nil, false_imp_iff, implies_true, and_true]
  exact ⟨.text _, .text _, .text _, .text _, .number h.lat, .number h.lon, .text _, .text _,
    storable_ofInt h.seats, .text _, .text _⟩

theorem canonical_sorted (r : Room) : Canonical 1 r.toJson.sorted := by
  rw [sorted_toJson]
  refine .object ?_ ?_
  · simp [Json.Increasing, -String.lt_iff_ltb]
  · simp only [List.forall_mem_cons, List.not_mem_nil, false_imp_iff, implies_true, and_true]
    exact ⟨.text _, .text _, .text _, .text _, .number _, .number _, .text _, .text _, .number _,
      .text _, .text _⟩

end Room

namespace Record

theorem ofTree_sorted {r : Record} (h : r.Storable) :
    ofTree r.kind (Tree.ofJson r.toJson.sorted) = .ok r := by
  rcases r with s | r
  · show (Section.ofTree (Tree.ofJson s.toJson.sorted)).map Record.course = _
    rw [Section.ofTree_sorted h]
    rfl
  · show (Room.ofTree (Tree.ofJson r.toJson.sorted)).map Record.room = _
    rw [Room.ofTree_sorted h]
    rfl

theorem storable_sorted {r : Record} (h : r.Storable) : r.toJson.sorted.Storable := by
  rcases r with s | r
  · exact Section.storable_sorted h
  · exact Room.storable_sorted h

theorem canonical_sorted (r : Record) : Canonical 1 r.toJson.sorted := by
  rcases r with s | r
  · exact s.canonical_sorted
  · exact r.canonical_sorted

end Record

/-! ### Lists -/

/-- Items that are read one by one are read as a list. -/
theorem mapM_ofItems {α : Type} {read : Tree → Except Json.Fault α} {toJson : α → Json}
    {l : List α} (h : ∀ a ∈ l, read (Tree.ofJson (toJson a)) = .ok a) :
    (Tree.ofItems (l.map toJson)).mapM read = .ok l := by
  induction l with
  | nil => rfl
  | cons a l ih =>
    obtain ⟨ha, hl⟩ := List.forall_mem_cons.mp h
    rw [List.map_cons, Tree.ofItems, List.mapM_cons, ha, ih hl]
    rfl

theorem sortedItems_eq_map (items : List Json) :
    Json.sortedItems items = items.map Json.sorted := by
  induction items with
  | nil => rfl
  | cons v items ih => rw [Json.sortedItems, ih, List.map_cons]

/-! ### Envelopes -/

namespace RecordStore

/-- The numbers of all records can be stored. -/
def Storable (s : RecordStore) : Prop := ∀ r ∈ s.records.toList, r.Storable

end RecordStore

namespace Envelope

theorem rowsOf_eq (s : RecordStore) :
    rowsOf s = .array (s.records.toList.map fun r => r.toJson.sorted) := by
  rw [rowsOf, Json.sorted, sortedItems_eq_map, List.map_map]
  rfl

theorem canonical_rowsOf (s : RecordStore) : Canonical 2 (rowsOf s) := by
  rw [rowsOf_eq]
  refine .array fun v hv => ?_
  obtain ⟨r, -, rfl⟩ := List.mem_map.mp hv
  exact r.canonical_sorted

theorem storable_rowsOf {s : RecordStore} (h : s.Storable) : (rowsOf s).Storable := by
  rw [rowsOf_eq]
  refine .array fun v hv => ?_
  obtain ⟨r, hr, rfl⟩ := List.mem_map.mp hv
  exact Record.storable_sorted (h r hr)

/-- Every number of an envelope can be written in a document. -/
theorem storable_toJson {d : Dataset} (h : d.store.Storable) (writtenAt : String) :
    (ofDataset d writtenAt).toJson.Storable := by
  have hsum : (checksumOf (rowsOf d.store)).toNat < 2 ^ 32 := UInt32.toNat_lt _
  refine .object ?_
  simp only [List.forall_mem_cons, List.not_mem_nil, false_imp_iff, implies_true, and_true]
  exact ⟨.text _, .text _, .text _, storable_ofNat (by
    show (checksumOf (rowsOf d.store)).toNat < 2 ^ 64
    omega), storable_rowsOf h⟩

/-- **An envelope is read back** from its bytes by an exact reader. -/
theorem ofBytes_toBytes [FloatReader] [FloatReader.Exact] {d : Dataset} (h : d.store.Storable)
    (writtenAt : String) :
    ofBytes (ofDataset d writtenAt).toBytes = .ok (ofDataset d writtenAt) := by
  have hsum : (checksumOf (rowsOf d.store)).toNat < 2 ^ 32 := UInt32.toNat_lt _
  -- the rows are sorted already, so reading them as any value keeps them
  have hrows : Tree.readAny (Json.maxDepth - 1) (Tree.ofJson (rowsOf d.store)) =
      .ok (rowsOf d.store) := by
    rw [Tree.readAny, Json.toJson?_ofJson ((canonical_rowsOf d.store).mono (by decide))]
  rw [ofBytes, toBytes, Json.readText_write (storable_toJson h writtenAt).readsBack]
  simp [Tree.readRecord, toJson, Tree.ofJson, Tree.ofMembers, Tree.readMembers, slots,
    Json.Slot.required, Tree.readText, Except.map, Kind.readVariant_name, ofDataset,
    readNat_ofNat hsum, hrows]
  rfl

/-- The rows of an envelope are the records of its dataset. -/
theorem readRows_rowsOf {s : RecordStore} (h : s.Storable) :
    Record.readRows s.kind (rowsOf s) = .ok s.records.toList := by
  have hread : ∀ r ∈ s.records.toList,
      Record.ofTree s.kind (Tree.ofJson r.toJson.sorted) = .ok r := by
    intro r hr
    rw [← s.ofKind r hr]
    exact Record.ofTree_sorted (h r hr)
  rw [rowsOf_eq, Record.readRows, mapM_ofItems hread]
  rfl

/-- **An envelope opens to the dataset** that it was made of. -/
theorem open?_ofDataset {d : Dataset} (h : d.store.Storable) (writtenAt : String)
    (path : FilePath) : (ofDataset d writtenAt).open? path d.listing = .ok d := by
  -- none of the checks finds a fault
  have hfits : ¬ ((ofDataset d writtenAt).id ≠ d.listing.id ∨
      (ofDataset d writtenAt).kind ≠ d.listing.kind) := by
    rw [not_or, not_not, not_not]
    exact ⟨rfl, rfl⟩
  have hsum : ¬ checksumOf (ofDataset d writtenAt).rows ≠ (ofDataset d writtenAt).checksum :=
    not_not.mpr rfl
  have hlength : ¬ d.store.records.toList.length ≠ d.listing.numRows :=
    not_not.mpr Array.length_toList
  rw [open?, if_neg hfits, if_neg hsum]
  show datasetOf d.id d.store.kind (rowsOf d.store) d.listing = _
  rw [datasetOf, readRows_rowsOf h]
  simp only [if_neg hlength, RecordStore.ofRecords_records]

end Envelope

/-! ### The map -/

theorem Listing.ofTree_toJson {l : Listing} (h : l.numRows < 2 ^ 64) :
    ofTree (Tree.ofJson l.toJson) = .ok l := by
  simp [ofTree, Tree.readRecord, toJson, Tree.ofJson, Tree.ofMembers, Tree.readMembers, slots,
    Json.Slot.required, Tree.readText, Except.map, Kind.readVariant_name, readNat_ofNat h]
  rfl

theorem Listing.readsBack_toJson [FloatReader] {l : Listing} (h : l.numRows < 2 ^ 64) :
    l.toJson.ReadsBack := by
  refine .object ?_
  simp only [List.forall_mem_cons, List.not_mem_nil, false_imp_iff, implies_true, and_true]
  exact ⟨.text _, .text _, .number (Json.Number.readsBack_integer (storable_natCast h))⟩

/-- **The map is read back** from its bytes, by every reader: all its numbers are integers. -/
theorem CatalogMap.ofBytes_toBytes [FloatReader] {m : CatalogMap}
    (h : ∀ l ∈ m.datasets, l.numRows < 2 ^ 64) :
    ofBytes m.toBytes = .ok m := by
  have hback : m.toJson.ReadsBack := by
    refine .object ?_
    simp only [List.forall_mem_cons, List.not_mem_nil, false_imp_iff, implies_true, and_true]
    refine ⟨.text _, .array fun v hv => ?_⟩
    obtain ⟨l, hl, rfl⟩ := List.mem_map.mp hv
    exact Listing.readsBack_toJson (h l hl)
  have hlist : Tree.readList Listing.ofTree (Tree.ofJson (Listing.listToJson m.datasets)) =
      .ok m.datasets := mapM_ofItems fun l hl => Listing.ofTree_toJson (h l hl)
  rw [ofBytes, toBytes, Json.readText_pretty hback]
  simp [Tree.readRecord, toJson, Tree.ofJson, Tree.ofMembers, Tree.readMembers, slots,
    Json.Slot.required, Tree.readText, Except.map, hlist]
  rfl

end CampusQuery
