/-
CampusQuery/Proofs/Catalog/Stored.lean

What it means that a data directory holds a registry, and how writing keeps it so.

`Holds` asks that the map lists the registry and that each listed file opens to its
dataset; any other file may lie around.  `Stores` asks in addition that nothing is in the
way of opening the catalog.  A file is written beside its place and then
moved, so a write that fails or stops touches the temporary place only, and the files
that matter have places of their own (`below`).  Each write has one lemma for its runs
and one for its stops; what they mean for the registry follows in
`CampusQuery.Proofs.Catalog.Edits`.
-/
import CampusQuery.Catalog.Basic
import CampusQuery.Proofs.Catalog.Codec
import CampusQuery.Proofs.Catalog.Registry
import CampusQuery.Proofs.Program.Runs
import CampusQuery.Proofs.Storage.Change

namespace CampusQuery

open Program (Runs Stops)
open FileTree (Grows SameDirectories Spares)

variable {faults : Faults} {t u : FileTree} {r : Registry} {x : Dataset} {S : Set Place}

namespace DataDirectory

variable {d : DataDirectory} {id : String} {place : Place} {names names' : List String}

/-! ### Places -/

/-- The place that names lead to from the data directory. -/
def below (d : DataDirectory) (names : List String) : Set Place :=
  {place | ∃ home, d.path.place? = some home ∧ place = home ++ names}

theorem not_mem_below (hne : names ≠ names') (h : place ∈ d.below names) :
    place ∉ d.below names' := by
  rintro ⟨home', hhome', rfl⟩
  obtain ⟨home, hhome, h⟩ := h
  rw [hhome'] at hhome
  cases hhome
  exact hne (List.append_cancel_left h).symm

theorem isFileName_map : IsFileName "catalog.json" :=
  ⟨by decide, by decide, by decide, by decide⟩

theorem isFileName_datasets : IsFileName "datasets" :=
  ⟨by decide, by decide, by decide, by decide⟩

theorem isFileName_fileName (h : '/' ∉ id.toList) : IsFileName (fileName id) :=
  .of_append h (by decide) (by decide)

theorem isFileName_temporary {name : String} (h : '/' ∉ name.toList) :
    IsFileName (name ++ ".tmp") :=
  .of_append h (by decide) (by decide)

theorem noSlash_of_isDatasetId (h : isDatasetId id = true) : '/' ∉ id.toList := by
  intro hmem
  simp only [isDatasetId, Bool.and_eq_true, Bool.not_eq_true', List.any_eq_false] at h
  simpa using h.2 '/' hmem

theorem mem_below_mapPath (h : d.mapPath.place? = some place) : place ∈ d.below ["catalog.json"] :=
  d.path.place?_join isFileName_map h

theorem mem_below_mapPath_temporary (h : d.mapPath.temporary.place? = some place) :
    place ∈ d.below ["catalog.json.tmp"] := by
  rw [mapPath, FilePath.temporary_join _ isFileName_map.noSlash] at h
  exact d.path.place?_join (isFileName_temporary isFileName_map.noSlash) h

theorem mem_below_join {name : String} (hname : IsFileName name)
    (h : (d.datasetsPath.join name).place? = some place) : place ∈ d.below ["datasets", name] := by
  obtain ⟨directory, hdirectory, rfl⟩ := d.datasetsPath.place?_join hname h
  obtain ⟨home, hhome, rfl⟩ := d.path.place?_join isFileName_datasets hdirectory
  exact ⟨home, hhome, by simp⟩

theorem mem_below_datasetPath (hid : '/' ∉ id.toList)
    (h : (d.datasetPath id).place? = some place) : place ∈ d.below ["datasets", fileName id] :=
  mem_below_join (isFileName_fileName hid) h

theorem mem_below_datasetPath_temporary (hid : '/' ∉ id.toList)
    (h : (d.datasetPath id).temporary.place? = some place) :
    place ∈ d.below ["datasets", fileName id ++ ".tmp"] := by
  rw [datasetPath, FilePath.temporary_join _ (isFileName_fileName hid).noSlash] at h
  exact mem_below_join (isFileName_temporary (isFileName_fileName hid).noSlash) h

/-- The places at which the map is written. -/
def mapPlaces (d : DataDirectory) : Set Place :=
  d.below ["catalog.json.tmp"] ∪ d.below ["catalog.json"]

/-- The places at which the file of a dataset is written. -/
def datasetPlaces (d : DataDirectory) (id : String) : Set Place :=
  d.below ["datasets", fileName id ++ ".tmp"] ∪ d.below ["datasets", fileName id]

theorem fileName_inj {id' : String} : fileName id = fileName id' ↔ id = id' := by
  constructor
  · intro h
    have hlists := congrArg String.toList h
    rw [fileName, fileName, String.toList_append, String.toList_append] at hlists
    exact String.toList_inj.mp (List.append_cancel_right hlists)
  · exact congrArg fileName

theorem temporary_ne_fileName (id id' : String) : fileName id ++ ".tmp" ≠ fileName id' := by
  intro h
  -- the last characters differ
  have hlast := congrArg (fun s => s.toList.getLast?) h
  simp [fileName] at hlast

/-- The map is written apart from the datasets. -/
theorem not_mem_below_of_mapPlaces (h : place ∈ d.mapPlaces) :
    place ∉ d.below ["datasets", fileName id] := by
  rcases h with h | h
  · exact not_mem_below (by simp) h
  · exact not_mem_below (by simp) h

/-- A dataset is written apart from the map. -/
theorem not_mem_below_of_datasetPlaces (h : place ∈ d.datasetPlaces id) :
    place ∉ d.below ["catalog.json"] := by
  rcases h with h | h
  · exact not_mem_below (by simp) h
  · exact not_mem_below (by simp) h

/-- Datasets are written apart from each other. -/
theorem not_mem_below_of_ne {id' : String} (hne : id' ≠ id) (h : place ∈ d.datasetPlaces id) :
    place ∉ d.below ["datasets", fileName id'] := by
  rcases h with h | h
  · refine not_mem_below (fun he => ?_) h
    exact temporary_ne_fileName id id' (by simpa using he)
  · refine not_mem_below (fun he => ?_) h
    exact hne (fileName_inj.mp (by simpa using he)).symm

/-! ### Files that hold a registry -/

/-- The names among the dataset files hold no slashes. -/
def ProperNames (d : DataDirectory) (t : FileTree) : Prop :=
  ∀ place, d.datasetsPath.place? = some place →
    ∀ name, t.get? (place ++ [name]) ≠ none → '/' ∉ name.toList

theorem ProperNames.of_proper
    (hproper : ∀ place, u.get? place ≠ none → t.get? place ≠ none ∨ IsProper place)
    (h : d.ProperNames t) : d.ProperNames u := by
  intro place hplace name hname
  rcases hproper _ hname with hold | hnew
  · exact h place hplace name hold
  · exact hnew name (by simp)

section Reader

variable [FloatReader]

/-- The map lists the registry; if there is no map, there are no datasets. -/
def ListsMap (d : DataDirectory) (t : FileTree) (r : Registry) : Prop :=
  (r = .empty ∧ ∀ place, d.mapPath.place? = some place →
      ∀ content, t.get? place ≠ some (.file content)) ∨
    ∃ content updatedAt, t.read d.mapPath = .ok content ∧
      CatalogMap.ofBytes content = .ok ⟨updatedAt, r.listings⟩

/-- The file of the dataset opens to the dataset. -/
def HoldsDataset (d : DataDirectory) (t : FileTree) (x : Dataset) : Prop :=
  ∃ content envelope, t.read (d.datasetPath x.id) = .ok content ∧
    Envelope.ofBytes content = .ok envelope ∧
    envelope.open? (d.datasetPath x.id) x.listing = .ok x

/-- Each dataset of the registry is in its file. -/
structure HoldsDatasets (d : DataDirectory) (t : FileTree) (r : Registry) : Prop where
  ids : ∀ x ∈ r.datasets, isDatasetId x.id = true
  sizes : ∀ x ∈ r.datasets, x.store.size < 2 ^ 64
  datasets : ∀ x ∈ r.datasets, d.HoldsDataset t x
  names : d.ProperNames t

/-- The files hold the registry: the map lists its datasets, and each of them is in its
file. -/
structure Holds (d : DataDirectory) (t : FileTree) (r : Registry) : Prop
    extends HoldsDatasets d t r where
  map : d.ListsMap t r

/-- The directory is in use: its files hold the registry, the directory of the datasets is
there, and what is in the place of the map can be read. -/
structure Stores (d : DataDirectory) (t : FileTree) (r : Registry) : Prop
    extends Holds d t r where
  directory : t.isDirectory d.datasetsPath = true
  readable : t.present d.mapPath = true → ∃ content, t.read d.mapPath = .ok content

theorem HoldsDataset.of_spares (hid : '/' ∉ x.id.toList) (hs : Spares t u S)
    (hS : ∀ place ∈ S, place ∉ d.below ["datasets", fileName x.id]) (h : d.HoldsDataset t x) :
    d.HoldsDataset u x := by
  obtain ⟨content, envelope, hread, hopen⟩ := h
  refine ⟨content, envelope, FileTree.read_of_spares hs (fun place hplace hmem => ?_) hread, hopen⟩
  exact hS place hmem (mem_below_datasetPath hid hplace)

theorem ListsMap.of_spares (hs : Spares t u S)
    (hS : ∀ place ∈ S, place ∉ d.below ["catalog.json"]) (h : d.ListsMap t r) :
    d.ListsMap u r := by
  have hne : ∀ place, d.mapPath.place? = some place → place ∉ S :=
    fun place hplace hmem => hS place hmem (mem_below_mapPath hplace)
  rcases h with ⟨hr, hnone⟩ | ⟨content, updatedAt, hread, hmap⟩
  · refine .inl ⟨hr, fun place hplace content => ?_⟩
    rw [hs.elsewhere place (hne place hplace)]
    exact hnone place hplace content
  · exact .inr ⟨content, updatedAt, FileTree.read_of_spares hs hne hread, hmap⟩

theorem HoldsDatasets.of_spares (hs : Spares t u S)
    (hS : ∀ x ∈ r.datasets, ∀ place ∈ S, place ∉ d.below ["datasets", fileName x.id])
    (h : d.HoldsDatasets t r) : d.HoldsDatasets u r where
  ids := h.ids
  sizes := h.sizes
  datasets x hx := (h.datasets x hx).of_spares (noSlash_of_isDatasetId (h.ids x hx)) hs (hS x hx)
  names := h.names.of_proper hs.proper

theorem Holds.of_grows (hg : Grows t u) (h : d.Holds t r) : d.Holds u r where
  ids := h.ids
  sizes := h.sizes
  datasets x hx := by
    obtain ⟨content, envelope, hread, hopen⟩ := h.datasets x hx
    exact ⟨content, envelope, FileTree.read_of_grows hg hread, hopen⟩
  names := h.names.of_proper hg.proper
  map := by
    rcases h.map with ⟨hr, hnone⟩ | ⟨content, updatedAt, hread, hmap⟩
    · -- a directory that is new in the place of the map is no map
      refine .inl ⟨hr, fun place hplace content hget => ?_⟩
      rcases hg.same_or_new place with hsame | ⟨-, hdirectory⟩
      · rw [hsame] at hget
        exact hnone place hplace content hget
      · rw [hdirectory] at hget
        cases hget
    · exact .inr ⟨content, updatedAt, FileTree.read_of_grows hg hread, hmap⟩

theorem Stores.of_sameDirectories {r' : Registry} (hsame : SameDirectories t u)
    (hheld : d.Holds u r') (h : d.Stores t r) : d.Stores u r' where
  toHolds := hheld
  directory := FileTree.isDirectory_of_keeps hsame.keeps h.directory
  readable hpresent := by
    rcases FileTree.isDirectory_or_read hpresent with hdirectory | hread
    · -- a directory in the place of the map was there before, and was then no file
      have hbefore := FileTree.isDirectory_of_keeps hsame.symm.keeps hdirectory
      obtain ⟨content, hread⟩ := h.readable (FileTree.present_of_isDirectory hbefore)
      rw [FileTree.not_isDirectory_of_read hread] at hbefore
      cases hbefore
    · exact hread

end Reader

/-! ### Writing a file -/

/-- The places that replacing a file touches before the file is moved. -/
def besides (path : FilePath) : Set Place := {place | path.temporary.place? = some place}

/-- The places that replacing a file touches. -/
def around (path : FilePath) : Set Place := besides path ∪ {place | path.place? = some place}

theorem spares_create {path : FilePath} (h : t.apply (.create path.temporary) = .ok u) :
    Spares t u (besides path) :=
  FileTree.apply_spares h nofun

theorem spares_fill {path : FilePath} {content : ByteArray}
    (h : t.apply (.fill path.temporary content) = .ok u) : Spares t u (besides path) :=
  FileTree.apply_spares h nofun

theorem spares_rename {path : FilePath} (h : t.apply (.rename path.temporary path) = .ok u) :
    Spares t u (around path) :=
  FileTree.apply_spares h nofun

/-- A file is replaced, or the storage failed and only the temporary file was touched. -/
theorem runs_replace {path : FilePath} {content : ByteArray} {result : Except CatalogError Unit}
    (hpath : path.asDirectory = false)
    (h : Runs faults (replace path content).run t result u) :
    (result = .ok () ∧ Spares t u (around path) ∧ u.read path = .ok content) ∨
      (∃ e, result = .error e ∧ e.code = "CAMPUS_STORAGE_IO") ∧ Spares t u (besides path) := by
  rcases Action.runs_change_bind h with ⟨t₁, hcreate, hrest⟩ | ⟨e, rfl, rfl, -⟩
  · have hs₁ := spares_create hcreate
    rcases Action.runs_change_bind hrest with ⟨t₂, hfill, hmove⟩ | ⟨e, rfl, rfl, -⟩
    · have hs₂ := hs₁.trans (spares_fill hfill)
      rcases Action.runs_change hmove with ⟨rfl, hrename⟩ | ⟨e, rfl, rfl, -⟩
      · exact .inl ⟨rfl, (hs₂.mono Set.subset_union_left).trans (spares_rename hrename),
          FileTree.read_of_rename hpath (FileTree.read_of_fill hfill) hrename⟩
      · exact .inr ⟨⟨_, rfl, rfl⟩, hs₂⟩
    · exact .inr ⟨⟨_, rfl, rfl⟩, hs₁⟩
  · exact .inr ⟨⟨_, rfl, rfl⟩, .refl _ _⟩

/-- Stopped while a file was replaced: the file is untouched or complete. -/
theorem stops_replace {path : FilePath} {content : ByteArray} (hpath : path.asDirectory = false)
    (h : Stops faults (replace path content).run t u) :
    (Spares t u (around path) ∧ u.read path = .ok content) ∨ Spares t u (besides path) := by
  rcases Action.stops_change_bind h with hcreate | ⟨t₁, hcreate, hrest⟩
  · rcases Program.stops_changing hcreate with rfl | happly | ⟨_, _, _, hc, -⟩
    · exact .inr (.refl _ _)
    · exact .inr (spares_create happly)
    · cases hc
  · have hs₁ := spares_create hcreate
    rcases Action.stops_change_bind hrest with hfill | ⟨t₂, hfill, hmove⟩
    · -- a content that is torn is still in the temporary place
      rcases Program.stops_changing hfill with rfl | happly | ⟨_, _, part, hc, happly⟩
      · exact .inr hs₁
      · exact .inr (hs₁.trans (spares_fill happly))
      · cases hc
        exact .inr (hs₁.trans (spares_fill happly))
    · have hs₂ := hs₁.trans (spares_fill hfill)
      rcases Program.stops_changing (Action.stops_orFail hmove) with
        rfl | hrename | ⟨_, _, _, hc, -⟩
      · exact .inr hs₂
      · exact .inl ⟨(hs₂.mono Set.subset_union_left).trans (spares_rename hrename),
          FileTree.read_of_rename hpath (FileTree.read_of_fill hfill) hrename⟩
      · cases hc

/-! ### Writing the map -/

theorem besides_mapPath : besides d.mapPath ⊆ d.below ["catalog.json.tmp"] :=
  fun _ => mem_below_mapPath_temporary

theorem around_mapPath : around d.mapPath ⊆ d.mapPlaces :=
  Set.union_subset_union besides_mapPath fun _ => mem_below_mapPath

theorem listsMap_of_read [FloatReader] (hsizes : ∀ x ∈ r.datasets, x.store.size < 2 ^ 64)
    {updatedAt : String} (h : u.read d.mapPath = .ok (CatalogMap.toBytes ⟨updatedAt, r.listings⟩)) :
    d.ListsMap u r := by
  refine .inr ⟨_, updatedAt, h, CatalogMap.ofBytes_toBytes fun l hl => ?_⟩
  obtain ⟨x, hx, rfl⟩ := Registry.mem_listings.mp hl
  exact hsizes x hx

/-- The map is written, or the storage failed and only the temporary file was touched. -/
theorem runs_writeMap_read {entries : List Listing} {result : Except CatalogError Unit}
    (h : Runs faults (d.writeMap entries).run t result u) :
    (result = .ok () ∧ Spares t u d.mapPlaces ∧
        ∃ updatedAt, u.read d.mapPath = .ok (CatalogMap.toBytes ⟨updatedAt, entries⟩)) ∨
      (∃ e, result = .error e ∧ e.code = "CAMPUS_STORAGE_IO") ∧
        Spares t u (d.below ["catalog.json.tmp"]) := by
  obtain ⟨updatedAt, hreplace⟩ := Action.runs_silent_bind (Program.silent_take _) h
  rcases runs_replace (d.path.asDirectory_join isFileName_map) hreplace with
    ⟨hok, hs, hread⟩ | ⟨herror, hs⟩
  · exact .inl ⟨hok, hs.mono around_mapPath, updatedAt, hread⟩
  · exact .inr ⟨herror, hs.mono besides_mapPath⟩

theorem runs_writeMap [FloatReader] {result : Except CatalogError Unit}
    (hsizes : ∀ x ∈ r.datasets, x.store.size < 2 ^ 64)
    (h : Runs faults (d.writeMap r.listings).run t result u) :
    (result = .ok () ∧ Spares t u d.mapPlaces ∧ d.ListsMap u r) ∨
      (∃ e, result = .error e ∧ e.code = "CAMPUS_STORAGE_IO") ∧
        Spares t u (d.below ["catalog.json.tmp"]) := by
  refine (runs_writeMap_read h).imp_left ?_
  rintro ⟨hok, hs, updatedAt, hread⟩
  exact ⟨hok, hs, listsMap_of_read hsizes hread⟩

theorem stops_writeMap [FloatReader] (hsizes : ∀ x ∈ r.datasets, x.store.size < 2 ^ 64)
    (h : Stops faults (d.writeMap r.listings).run t u) :
    (Spares t u d.mapPlaces ∧ d.ListsMap u r) ∨ Spares t u (d.below ["catalog.json.tmp"]) := by
  rcases Action.stops_silent_bind (Program.silent_take _) h with rfl | ⟨updatedAt, hreplace⟩
  · exact .inr (.refl _ _)
  · rcases stops_replace (d.path.asDirectory_join isFileName_map) hreplace with ⟨hs, hread⟩ | hs
    · exact .inl ⟨hs.mono around_mapPath, listsMap_of_read hsizes hread⟩
    · exact .inr (hs.mono besides_mapPath)

/-! ### Writing and removing datasets -/

theorem besides_datasetPath (hid : '/' ∉ id.toList) :
    besides (d.datasetPath id) ⊆ d.below ["datasets", fileName id ++ ".tmp"] :=
  fun _ => mem_below_datasetPath_temporary hid

theorem around_datasetPath (hid : '/' ∉ id.toList) :
    around (d.datasetPath id) ⊆ d.datasetPlaces id :=
  Set.union_subset_union (besides_datasetPath hid) fun _ => mem_below_datasetPath hid

theorem holdsDataset_of_read [FloatReader] [FloatReader.Exact] (hx : x.store.Storable)
    {writtenAt : String}
    (h : u.read (d.datasetPath x.id) = .ok (Envelope.ofDataset x writtenAt).toBytes) :
    d.HoldsDataset u x :=
  ⟨_, _, h, Envelope.ofBytes_toBytes hx writtenAt, Envelope.open?_ofDataset hx writtenAt _⟩

/-- The file of a dataset is written, or the storage failed and only its places were touched. -/
theorem runs_writeDataset_read {result : Except CatalogError Unit} (hid : '/' ∉ x.id.toList)
    (h : Runs faults (d.writeDataset x).run t result u) :
    (result = .ok () ∧ Spares t u (d.datasetPlaces x.id) ∧ ∃ writtenAt,
        u.read (d.datasetPath x.id) = .ok (Envelope.ofDataset x writtenAt).toBytes) ∨
      (∃ e, result = .error e ∧ e.code = "CAMPUS_STORAGE_IO") ∧
        Spares t u (d.datasetPlaces x.id) := by
  obtain ⟨writtenAt, hreplace⟩ := Action.runs_silent_bind (Program.silent_take _) h
  rcases runs_replace (d.datasetsPath.asDirectory_join (isFileName_fileName hid)) hreplace with
    ⟨hok, hs, hread⟩ | ⟨herror, hs⟩
  · exact .inl ⟨hok, hs.mono (around_datasetPath hid), writtenAt, hread⟩
  · exact .inr ⟨herror, hs.mono ((besides_datasetPath hid).trans Set.subset_union_left)⟩

theorem runs_writeDataset [FloatReader] [FloatReader.Exact] {result : Except CatalogError Unit}
    (hid : '/' ∉ x.id.toList) (hx : x.store.Storable)
    (h : Runs faults (d.writeDataset x).run t result u) :
    (result = .ok () ∧ Spares t u (d.datasetPlaces x.id) ∧ d.HoldsDataset u x) ∨
      (∃ e, result = .error e ∧ e.code = "CAMPUS_STORAGE_IO") ∧
        Spares t u (d.datasetPlaces x.id) := by
  refine (runs_writeDataset_read hid h).imp_left ?_
  rintro ⟨hok, hs, writtenAt, hread⟩
  exact ⟨hok, hs, holdsDataset_of_read hx hread⟩

theorem stops_writeDataset (hid : '/' ∉ x.id.toList)
    (h : Stops faults (d.writeDataset x).run t u) : Spares t u (d.datasetPlaces x.id) := by
  rcases Action.stops_silent_bind (Program.silent_take _) h with rfl | ⟨writtenAt, hreplace⟩
  · exact .refl _ _
  · rcases stops_replace (d.datasetsPath.asDirectory_join (isFileName_fileName hid)) hreplace with
      ⟨hs, -⟩ | hs
    · exact hs.mono (around_datasetPath hid)
    · exact hs.mono ((besides_datasetPath hid).trans Set.subset_union_left)

theorem spares_removeDataset (hid : '/' ∉ id.toList)
    (h : t.apply (.remove (d.datasetPath id)) = .ok u) :
    Spares t u (d.below ["datasets", fileName id]) :=
  (FileTree.apply_spares h nofun).mono fun _ hplace => mem_below_datasetPath hid hplace

/-- Removing a dataset touches its file only. -/
theorem stops_removeDataset_below (hid : '/' ∉ id.toList)
    (h : Stops faults (d.removeDataset id) t u) :
    Spares t u (d.below ["datasets", fileName id]) := by
  rcases Program.stops_bind h with h | ⟨result, t', hremove, h⟩
  · rcases Program.stops_changing h with rfl | happly | ⟨_, _, _, hc, -⟩
    · exact .refl _ _
    · exact spares_removeDataset hid happly
    · cases hc
  · have hu : u = t' := by
      split at h
      all_goals exact Program.stops_pure h
    rcases Program.runs_changing hremove with ⟨-, happly⟩ | ⟨e, -, rfl, -⟩
    · rw [hu]
      exact spares_removeDataset hid happly
    · rw [hu]
      exact .refl _ _

theorem stops_removeDataset (hid : '/' ∉ id.toList) (h : Stops faults (d.removeDataset id) t u) :
    Spares t u (d.datasetPlaces id) :=
  (stops_removeDataset_below hid h).mono Set.subset_union_right

end DataDirectory

end CampusQuery
