/-
CampusQuery/Proofs/Catalog/Restored.lean

Which datasets are registered once a catalog was opened, whatever the files hold.

Opening registers a dataset for each entry of the map, and no others.  That its records are of its
kind and that their keys are distinct is checked again; that its id is one that could be added, and
that it has records, is not: both are as the map has them.  So `openAt_registers` says of each
registered dataset that it could be added just if its id is valid and it has records.  With a
valid id it is of full use (`Usable`): its keys name its fields, its columns can be queried, it can
be removed, and its file is one of the data directory.  At the end there are files with datasets
for which this fails.
-/
import CampusQuery.Proofs.Answer.Classes
import CampusQuery.Proofs.Catalog.Reopened
import CampusQuery.Proofs.Query.Documents

namespace CampusQuery

open Program (Runs)
open Query (recordRow)

variable {faults : Faults} {refuse : Refusals} {t u : FileTree} {w w' : World} {d : DataDirectory}
variable {c : Catalog} {x : Dataset} {id : String} {kind : Kind} {fields : List Field}

/-! ### Asking for columns -/

namespace Query

/-- The document that asks for columns of all records. -/
def selecting (keys : List String) : Json :=
  .object [("WHERE", .object []), ("OPTIONS", .object [("COLUMNS", .array (keys.map .text))])]

/-- The query that asks for fields of all records. -/
def selectingFields (id : String) (kind : Kind) (fields : List Field) : Query :=
  ⟨id, kind, none, fields.map fun f => ⟨f.keyIn id, some f⟩, none, none⟩

theorem document_selecting (hid : isDatasetId id = true) (hne : fields ≠ [])
    (hfields : ∀ f ∈ fields, f.kind = kind) :
    Grammar.Document (selecting (fields.map (Field.keyIn id)))
      (selectingFields id kind fields) := by
  have hfits : ∀ column ∈ (selectingFields id kind fields).columns,
      ColumnFits id kind none column := by
    intro column hcolumn
    obtain ⟨f, hf, rfl⟩ := List.mem_map.mp hcolumn
    exact ⟨f, rfl, hfields f hf ▸ names_keyIn hid⟩
  refine ⟨⟨_, rfl, by simp [clauses]⟩, .none,
    ⟨_, rfl, ⟨_, rfl, .refl _⟩, ⟨_, rfl, ?_, ?_, hfits⟩, .none⟩, ⟨_, rfl, .empty⟩⟩
  · rw [selectingFields, List.map_map, List.map_map]
    rfl
  · rwa [selectingFields, ne_eq, List.map_eq_nil_iff]

/-- **All columns of a dataset can be asked for**, under a valid id. -/
theorem answer_selecting {view : CatalogView} {store : RecordStore} (hid : isDatasetId id = true)
    (hstore : view id = some store) (hne : fields ≠ [])
    (hfields : ∀ f ∈ fields, f.kind = store.kind) :
    view.answer (selecting (fields.map (Field.keyIn id))) =
      if store.size > resultLimit then .error (.tooLarge store.size)
      else .ok ⟨id, store.records.toList.map
        (recordRow (fields.map fun f => ⟨f.keyIn id, some f⟩))⟩ := by
  have hq : ofJson view.kinds (selecting (fields.map (Field.keyIn id))) =
      .ok (selectingFields id store.kind fields) :=
    ofJson_eq_ok.mpr ⟨by rw [CatalogView.kinds, selectingFields, hstore]; rfl,
      document_selecting hid hne hfields⟩
  -- without a condition there are no patterns, and all records match
  have hpatterns : patternsOf (selecting (fields.map (Field.keyIn id))) = [] := by
    simp [patternsOf, selecting, Json.get?, Json.patterns]
  have hmatching : matching (selecting (fields.map (Field.keyIn id))) store =
      store.records.toList := matching_eq_records rfl
  have hlength : ((selectingFields id store.kind fields).rawRows store.records.toList).length =
      store.size := by
    rw [rawRows, selectingFields, List.length_map, Array.length_toList, RecordStore.size]
  obtain ⟨found, hfound, -, hanswer⟩ := answer_eq hq (hpatterns ▸ List.forall_mem_nil _)
  obtain rfl := Option.some.inj (hstore.symm.trans hfound)
  rw [hanswer, hmatching, hlength]
  rfl

end Query

/-! ### Registered datasets -/

namespace Catalog

/-- A dataset could be added just if its id is valid and it has records. -/
theorem checkAddition_empty_iff (x : Dataset) :
    checkAddition .empty x.id x.store.kind x.store.records.toList = .ok x ↔
      isDatasetId x.id = true ∧ x.store.size ≠ 0 := by
  have hempty : x.store.records.toList.isEmpty = true ↔ x.store.size = 0 := by
    rw [List.isEmpty_iff, ← List.length_eq_zero_iff, Array.length_toList, RecordStore.size]
  have hfree : Registry.empty.contains x.id = false := rfl
  unfold checkAddition
  rw [hfree, x.store.ofRecords_records]
  constructor
  · intro h
    split at h
    · cases h
    · rename_i hid
      split at h
      · cases h
      · rename_i hrecords
        exact ⟨by simpa using hid, fun hsize => hrecords (hempty.mpr hsize)⟩
  · rintro ⟨hid, hsize⟩
    rw [if_neg (by simp [hid]), if_neg fun hrecords => hsize (hempty.mp hrecords)]
    rfl

theorem checkRemoval_iff (hx : x ∈ c.registry.datasets) :
    checkRemoval c.registry x.id = .ok () ↔ isDatasetId x.id = true := by
  refine ⟨fun h => (checkRemoval_eq_ok h).1, fun hid => ?_⟩
  have hthere : c.registry.contains x.id = true := Registry.contains_iff.mpr ⟨x, hx, rfl⟩
  rw [checkRemoval, if_neg (by simp [hid]), if_neg (by simp [hthere])]

/-- Storing a removal fails only if the storage fails. -/
theorem runs_storeRemoved {result : Except CatalogError Unit} {entries : List Listing}
    (h : Runs faults (storeRemoved id entries (some d)).run t result u) :
    result = .ok () ∨ ∃ e, result = .error e ∧ e.code = "CAMPUS_STORAGE_IO" := by
  rcases Action.runs_bind h with ⟨_, t', -, hrest⟩ | ⟨e, hmap, rfl⟩
  · obtain ⟨gone, t₂, -, hreport⟩ := Action.runs_lift_bind hrest
    obtain ⟨_, -, rfl⟩ := Action.runs_lift hreport
    exact .inl rfl
  · obtain ⟨updatedAt, hreplace⟩ := Action.runs_silent_bind (Program.silent_take _) hmap
    rcases DataDirectory.runs_replace (d.path.asDirectory_join DataDirectory.isFileName_map)
      hreplace with ⟨he, -⟩ | ⟨⟨e', he, hcode⟩, -⟩
    · cases he
    · cases he
      exact .inr ⟨e, rfl, hcode⟩

end Catalog

/-- The dataset can be used in all ways, and its file is where the files of datasets are. -/
structure Usable (d : DataDirectory) (c : Catalog) (x : Dataset) : Prop where
  /-- Keys are read as the fields of the dataset, in whatever clause they stand. -/
  named : ∀ field : Field, field.kind = x.store.kind →
    Query.Names x.id x.store.kind (field.keyIn x.id) field
  /-- Columns can be asked for. -/
  answered : ∀ fields : List Field, fields ≠ [] → (∀ f ∈ fields, f.kind = x.store.kind) →
    c.registry.view.answer (Query.selecting (fields.map (Field.keyIn x.id))) =
      if x.store.size > resultLimit then .error (.tooLarge x.store.size)
      else .ok ⟨x.id, x.store.records.toList.map
        (recordRow (fields.map fun f => ⟨f.keyIn x.id, some f⟩))⟩
  /-- The dataset is removed, or the storage fails. -/
  removed : ∀ faults t result c' u, Runs faults (c.remove x.id) t (result, c') u →
    (result = .ok x.id ∧ c'.registry = c.registry.erase x.id) ∨
      ∃ e, result = .error e ∧ e.code = "CAMPUS_STORAGE_IO" ∧ c' = c
  /-- The file is in the data directory. -/
  inside : ∃ place ∈ d.below ["datasets", DataDirectory.fileName x.id],
    (d.datasetPath x.id).place? = some place

/-- A registered dataset with a valid id is of full use. -/
theorem usable_of_isDatasetId [FloatReader] (hdirectory : c.directory = some d)
    (hx : x ∈ c.registry.datasets) (hheld : d.HoldsDataset t x) (hid : isDatasetId x.id = true) :
    Usable d c x where
  named field hfield := hfield ▸ names_keyIn hid
  answered fields hne hfields := by
    refine Query.answer_selecting hid ?_ hne hfields
    rw [Registry.view, Registry.find?_eq_some_iff.mpr ⟨hx, rfl⟩, Option.map_some]
  removed faults t result c' u h := by
    rcases Catalog.runs_remove h with ⟨e, hcheck, -⟩ |
      ⟨-, stored, hstored, ⟨e, he, rfl, rfl⟩ | ⟨-, rfl, rfl⟩⟩
    · cases ((Catalog.checkRemoval_iff hx).mpr hid).symm.trans hcheck
    · rw [hdirectory, he] at hstored
      rcases Catalog.runs_storeRemoved hstored with hok | ⟨_, hfailed, hcode⟩
      · cases hok
      · cases hfailed
        exact .inr ⟨e, rfl, hcode, rfl⟩
    · exact .inl ⟨rfl, rfl⟩
  inside := by
    obtain ⟨content, -, hread, -⟩ := hheld
    obtain ⟨place, hlocate, -⟩ := FileTree.read_eq_ok_iff.mp hread
    have hplace := FileTree.place?_of_locate hlocate
    exact ⟨place, DataDirectory.mem_below_datasetPath
      (DataDirectory.noSlash_of_isDatasetId hid) hplace, hplace⟩

/-! ### Opening -/

namespace Catalog

/-- **What opening registers.**  There is one dataset for each entry of the map, found in its file.
Its records are of its kind and have distinct keys.  It could be added just if its id is valid and
it has records, and with a valid id it is of full use. -/
theorem openAt_registers [FloatReader] (h : (openAt d).runIn refuse w = (.ok c, w')) :
    c.directory = some d ∧ ∃ entries, d.Lists refuse (d.prepared w.files) entries ∧
      (∀ entry ∈ entries, ∃ x ∈ c.registry.datasets, x.listing = entry) ∧
      ∀ x ∈ c.registry.datasets,
        x.listing ∈ entries ∧ d.HoldsDataset (d.prepared w.files) x ∧
        (∀ r ∈ x.store.records.toList, r.kind = x.store.kind) ∧
        (x.store.records.toList.map Record.primaryKey).Nodup ∧
        (checkAddition .empty x.id x.store.kind x.store.records.toList = .ok x ↔
          isDatasetId x.id = true ∧ x.store.size ≠ 0) ∧
        (isDatasetId x.id = true → Usable d c x) := by
  obtain ⟨restored, hrestore, -⟩ := runIn_openAt_eq_ok_iff.mp h
  obtain ⟨-, entries, l, stuck, swept, hlists, hl, rfl, -⟩ := runIn_restore_eq_ok_iff.mp hrestore
  rw [World.files_log] at hlists hl
  refine ⟨rfl, entries, hlists, fun entry hentry => ?_, fun x hx => ?_⟩
  · obtain ⟨x, -, hopens⟩ := DataDirectory.exists_opens hl hentry
    exact ⟨x, (DataDirectory.mem_foldl_insert_of_opens hl).mpr ⟨entry, hentry, hopens⟩,
      DataDirectory.listing_of_opens hopens⟩
  · obtain ⟨entry, hentry, hopens⟩ := (DataDirectory.mem_foldl_insert_of_opens hl).mp hx
    have hheld := DataDirectory.holdsDataset_of_opens hopens
    exact ⟨DataDirectory.listing_of_opens hopens ▸ hentry, hheld, x.store.ofKind, x.store.distinct,
      checkAddition_empty_iff x, usable_of_isDatasetId rfl hx hheld⟩

section Sample

attribute [local instance] FloatReader.nearest

/-- A dataset of rooms without any rooms. -/
def sampleEmpty (id : String) : Dataset where
  id := id
  store := { kind := .rooms, records := #[], ofKind := by simp, distinct := by simp }

/-- A map with two datasets without records.  The id of one leads out of the data directory. -/
def sampleStray : FileTree where
  nodes := [(["data"], .directory), (["data", "datasets"], .directory),
    (["data", "catalog.json"],
      .file (CatalogMap.toBytes ⟨"", [(sampleEmpty "rooms").listing,
        (sampleEmpty "../../outside").listing]⟩)),
    (["data", "datasets", "rooms.json"],
      .file (Envelope.ofDataset (sampleEmpty "rooms") "").toBytes),
    (["outside.json"], .file (Envelope.ofDataset (sampleEmpty "../../outside") "").toBytes)]

/-- A world with these files. -/
def sampleStrayWorld : World := { Session.sampleWorld with files := sampleStray }

theorem wellFormed_sampleStray : sampleStray.WellFormed :=
  FileTree.wellFormed_of_nodes (by decide) (by unfold IsProper; decide)

theorem isHome_sampleStray : Session.sampleDirectory.IsHome sampleStray ["data", "datasets"] :=
  ⟨by decide +kernel, rfl⟩

theorem lists_sampleStray : Session.sampleDirectory.Lists .nothing sampleStray
    [(sampleEmpty "rooms").listing, (sampleEmpty "../../outside").listing] := by
  refine .inr ⟨_, _, FileTree.read_eq_ok_iff.mpr
    ⟨["data", "catalog.json"], by decide +kernel, rfl, by decide +kernel⟩,
    CatalogMap.ofBytes_toBytes ?_, rfl⟩
  decide

theorem opens_sampleStray (id : String) (place : Place)
    (hlocate : sampleStray.locate (Session.sampleDirectory.datasetPath id) = .ok place)
    (hget : sampleStray.get? place =
      some (.file (Envelope.ofDataset (sampleEmpty id) "").toBytes))
    (hpath : (Session.sampleDirectory.datasetPath id).asDirectory = false) :
    Session.sampleDirectory.Opens .nothing sampleStray (sampleEmpty id).listing
      (sampleEmpty id) := by
  have hstorable : (sampleEmpty id).store.Storable := fun r hr => absurd hr List.not_mem_nil
  exact ⟨_, _, FileTree.read_eq_ok_iff.mpr ⟨place, hlocate, hget, hpath⟩,
    Envelope.ofBytes_toBytes hstorable "", Envelope.open?_ofDataset hstorable "" _⟩

/-- The catalog of these files. -/
def sampleStrayCatalog : Catalog :=
  ⟨[sampleEmpty "rooms", sampleEmpty "../../outside"].foldl Registry.insert .empty,
    some Session.sampleDirectory, .zero⟩

theorem sampleStray_opens : ∃ w', (openAt Session.sampleDirectory).runIn .nothing
    sampleStrayWorld = (.ok sampleStrayCatalog, w') := by
  refine exists_openAt_eq_ok (by simp [Refusals.nothing]) wellFormed_sampleStray isHome_sampleStray
    rfl Refusals.completes_nothing lists_sampleStray ?_
  exact .cons
    (opens_sampleStray "rooms" ["data", "datasets", "rooms.json"] (by decide +kernel) rfl
      (by decide +kernel))
    (.cons
      (opens_sampleStray "../../outside" ["outside.json"] (by decide +kernel) rfl
        (by decide +kernel))
      .nil)

theorem openAt_registers_sample :
    ∃ w', (openAt Session.sampleDirectory).runIn .nothing sampleStrayWorld =
        (.ok sampleStrayCatalog, w') ∧
      sampleStrayCatalog.directory = some Session.sampleDirectory ∧
      ∃ entries, Session.sampleDirectory.Lists .nothing
          (Session.sampleDirectory.prepared sampleStrayWorld.files) entries ∧
        (∀ entry ∈ entries, ∃ x ∈ sampleStrayCatalog.registry.datasets, x.listing = entry) ∧
        ∀ x ∈ sampleStrayCatalog.registry.datasets,
          x.listing ∈ entries ∧ Session.sampleDirectory.HoldsDataset
            (Session.sampleDirectory.prepared sampleStrayWorld.files) x ∧
          (∀ r ∈ x.store.records.toList, r.kind = x.store.kind) ∧
          (x.store.records.toList.map Record.primaryKey).Nodup ∧
          (checkAddition .empty x.id x.store.kind x.store.records.toList = .ok x ↔
            isDatasetId x.id = true ∧ x.store.size ≠ 0) ∧
          (isDatasetId x.id = true → Usable Session.sampleDirectory sampleStrayCatalog x) := by
  obtain ⟨w', h⟩ := sampleStray_opens
  exact ⟨w', h, openAt_registers h⟩

/-- There are files of which opening registers a dataset without records, and one that cannot be
removed and was read from outside the data directory. -/
theorem opens_stray :
    ((openAt Session.sampleDirectory).run.run sampleStrayWorld).1 = .ok sampleStrayCatalog ∧
      (∃ x ∈ sampleStrayCatalog.registry.datasets, x.id = "rooms" ∧ x.store.size = 0 ∧
        checkAddition .empty x.id x.store.kind x.store.records.toList = .error (.noRows x.id)) ∧
      ∃ x ∈ sampleStrayCatalog.registry.datasets, x.id = "../../outside" ∧
        isDatasetId x.id = false ∧
        checkRemoval sampleStrayCatalog.registry x.id = .error (.invalidId x.id) ∧
        (Session.sampleDirectory.datasetPath x.id).place? = some ["outside.json"] ∧
        Session.sampleDirectory.path.place? = some ["data"] := by
  obtain ⟨w', h⟩ := sampleStray_opens
  have hmem : ∀ id ∈ ["rooms", "../../outside"],
      sampleEmpty id ∈ sampleStrayCatalog.registry.datasets := by
    intro id hid
    refine (Registry.mem_foldl_insert ?_).mpr (List.mem_map_of_mem hid)
    intro x hx y hy heq
    obtain ⟨i, -, rfl⟩ := List.mem_map.mp
      (show x ∈ ["rooms", "../../outside"].map sampleEmpty from hx)
    obtain ⟨j, -, rfl⟩ := List.mem_map.mp
      (show y ∈ ["rooms", "../../outside"].map sampleEmpty from hy)
    exact congrArg sampleEmpty heq
  refine ⟨?_, ⟨_, hmem "rooms" (by simp), rfl, rfl, rfl⟩,
    ⟨_, hmem "../../outside" (by simp), rfl, ?_, ?_, ?_, ?_⟩⟩
  · rw [← Program.runIn_nothing]
    exact congrArg Prod.fst h
  all_goals decide +kernel

end Sample

end Catalog

end CampusQuery
