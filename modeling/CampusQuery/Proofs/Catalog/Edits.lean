/-
CampusQuery/Proofs/Catalog/Edits.lean

What adding and removing datasets does to the stored registry.

Whether a call is accepted, and what registry it leads to, is a matter of the registry
alone (`Edit.outcome`).  A call on a stored catalog has this outcome or fails with a
storage error, and the files hold the registry that the catalog has afterwards
(`runs_perform`).  Wherever the call stops, the files hold the registry before it or
the one after it (`stops_perform`): the map that is moved into place decides.
-/
import CampusQuery.Proofs.Catalog.Registry
import CampusQuery.Proofs.Catalog.Stored

namespace CampusQuery

open Program (Runs Stops)
open FileTree (SameDirectories Spares)

/-! ### Calls that change a catalog -/

/-- A call that changes a catalog. -/
inductive Edit where
  | add (id : String) (kind : Kind) (records : List Record)
  | remove (id : String)

namespace Edit

/-- Makes the call.  It answers with the ids of all datasets, or with the one that was
removed. -/
def perform (c : Catalog) : Edit → Program (Except CatalogError (List String) × Catalog)
  | .add id kind records => c.add id kind records
  | .remove id => do
    let (result, after) ← c.remove id
    return (result.map fun removed => [removed], after)

/-- The registry after the call, or why the call is refused. -/
def outcome (r : Registry) : Edit → Except CatalogError Registry
  | .add id kind records => (Catalog.checkAddition r id kind records).map r.insert
  | .remove id => (Catalog.checkRemoval r id).map fun _ => r.erase id

/-- The call as a change to a finite map. -/
def update (m : String → Option (Kind × List Record)) :
    Edit → String → Option (Kind × List Record)
  | .add id kind records => Function.update m id (some (kind, records))
  | .remove id => Function.update m id none

/-- What the call brings can be stored: its numbers are finite, and its integers and the
number of its records have 64 bits. -/
def Storable : Edit → Prop
  | .add _ _ records => (∀ x ∈ records, x.Storable) ∧ records.length < 2 ^ 64
  | .remove _ => True

end Edit

variable {faults : Faults} {t u : FileTree} {r : Registry} {x : Dataset} {c : Catalog}
variable {d : DataDirectory} {id : String} {kind : Kind} {records : List Record}

namespace Catalog

/-- What is known of a dataset that can be added. -/
theorem checkAddition_eq_ok (h : checkAddition r id kind records = .ok x) :
    x.id = id ∧ isDatasetId id = true ∧ r.contains id = false ∧ x.store.kind = kind ∧
      x.store.records.toList = records := by
  unfold checkAddition at h
  split at h
  · cases h
  · rename_i hid
    split at h
    · cases h
    · split at h
      · cases h
      · rename_i hnew
        split at h
        · rename_i store hstore
          cases h
          exact ⟨rfl, by simpa using hid, by simpa using hnew,
            RecordStore.eq_of_ofRecords hstore⟩
        · cases h

theorem checkRemoval_eq_ok (h : checkRemoval r id = .ok ()) :
    isDatasetId id = true ∧ r.contains id = true := by
  unfold checkRemoval at h
  split at h
  · cases h
  · rename_i hid
    split at h
    · cases h
    · rename_i hthere
      exact ⟨by simpa using hid, by simpa using hthere⟩

end Catalog

namespace Edit

theorem outcome_add_ok (h : Catalog.checkAddition r id kind records = .ok x) :
    (add id kind records).outcome r = .ok (r.insert x) := by
  rw [outcome, h]
  rfl

theorem outcome_add_error {e : CatalogError}
    (h : Catalog.checkAddition r id kind records = .error e) :
    (add id kind records).outcome r = .error e := by
  rw [outcome, h]
  rfl

theorem outcome_remove_ok (h : Catalog.checkRemoval r id = .ok ()) :
    (remove id).outcome r = .ok (r.erase id) := by
  rw [outcome, h]
  rfl

theorem outcome_remove_error {e : CatalogError} (h : Catalog.checkRemoval r id = .error e) :
    (remove id).outcome r = .error e := by
  rw [outcome, h]
  rfl

end Edit

/-- A call that is accepted changes the contents as a map. -/
theorem Edit.contents_of_outcome {e : Edit} {r' : Registry} (h : e.outcome r = .ok r') :
    r'.contents = e.update r.contents := by
  rcases e with ⟨id, kind, records⟩ | id
  · rcases hcheck : Catalog.checkAddition r id kind records with e | x
    · rw [outcome_add_error hcheck] at h
      cases h
    · rw [outcome_add_ok hcheck] at h
      cases h
      obtain ⟨hid, -, -, hkind, hrecords⟩ := Catalog.checkAddition_eq_ok hcheck
      rw [Registry.contents_insert, hid, hkind, hrecords, update]
  · rcases hcheck : Catalog.checkRemoval r id with e | x
    · rw [outcome_remove_error hcheck] at h
      cases h
    · rw [outcome_remove_ok hcheck] at h
      cases h
      exact Registry.contents_erase id

/-! ### Storing an edit -/

namespace DataDirectory

theorem ne_id_of_mem_erase {y : Dataset} (hy : y ∈ (r.erase id).datasets) : y.id ≠ id := by
  simpa using (List.mem_filter.mp hy).2

theorem silent_reportOrphans (ids : List String) : (Catalog.reportOrphans ids).Silent := by
  induction ids with
  | nil => exact trivial
  | cons id ids ih => exact Program.Silent.bind (Program.silent_log _) fun _ => ih

variable [FloatReader]

/-- Files of a dataset that is not registered do not matter. -/
theorem Holds.of_spares_dataset (hnew : ∀ y ∈ r.datasets, y.id ≠ id)
    (hs : Spares t u (d.datasetPlaces id)) (h : d.Holds t r) : d.Holds u r where
  toHoldsDatasets :=
    h.toHoldsDatasets.of_spares hs fun y hy _ hplace => not_mem_below_of_ne (hnew y hy) hplace
  map := h.map.of_spares hs fun _ hplace => not_mem_below_of_datasetPlaces hplace

/-- The temporary file of the map does not matter. -/
theorem Holds.of_spares_map (hs : Spares t u (d.below ["catalog.json.tmp"])) (h : d.Holds t r) :
    d.Holds u r where
  toHoldsDatasets :=
    h.toHoldsDatasets.of_spares hs fun _ _ _ hplace => not_mem_below_of_mapPlaces (.inl hplace)
  map := h.map.of_spares hs fun _ hplace => not_mem_below (by decide) hplace

/-- A map that was written decides which registry the files hold. -/
theorem HoldsDatasets.holds (hs : Spares t u d.mapPlaces) (hmap : d.ListsMap u r)
    (h : d.HoldsDatasets t r) : d.Holds u r where
  toHoldsDatasets := h.of_spares hs fun _ _ _ hplace => not_mem_below_of_mapPlaces hplace
  map := hmap

theorem HoldsDatasets.insert (hid : isDatasetId x.id = true) (hsize : x.store.size < 2 ^ 64)
    (hx : d.HoldsDataset t x) (h : d.HoldsDatasets t r) : d.HoldsDatasets t (r.insert x) := by
  have hmem : ∀ y ∈ (r.insert x).datasets, y = x ∨ y ∈ r.datasets :=
    fun _ => Registry.mem_of_mem_insertInto
  refine ⟨fun y hy => ?_, fun y hy => ?_, fun y hy => ?_, h.names⟩
  · rcases hmem y hy with rfl | hy
    · exact hid
    · exact h.ids y hy
  · rcases hmem y hy with rfl | hy
    · exact hsize
    · exact h.sizes y hy
  · rcases hmem y hy with rfl | hy
    · exact hx
    · exact h.datasets y hy

theorem HoldsDatasets.erase (id : String) (h : d.HoldsDatasets t r) :
    d.HoldsDatasets t (r.erase id) := by
  have hmem : ∀ y ∈ (r.erase id).datasets, y ∈ r.datasets := fun _ => List.mem_of_mem_filter
  exact ⟨fun y hy => h.ids y (hmem y hy), fun y hy => h.sizes y (hmem y hy),
    fun y hy => h.datasets y (hmem y hy), h.names⟩

/-! ### Calls on a stored catalog -/

/-- Storing an added dataset: the files hold the new registry, or the storage failed and
they hold the old one. -/
theorem runs_storeAdded [FloatReader.Exact] {result : Except CatalogError Unit} (h : d.Holds t r)
    (hid : isDatasetId x.id = true) (hsize : x.store.size < 2 ^ 64) (hx : x.store.Storable)
    (hnew : r.contains x.id = false)
    (hrun : Runs faults (Catalog.storeAdded x (r.insert x).listings (some d)).run t result u) :
    (result = .ok () ∧ d.Holds u (r.insert x)) ∨
      (∃ e, result = .error e ∧ e.code = "CAMPUS_STORAGE_IO") ∧ d.Holds u r := by
  have hne : ∀ y ∈ r.datasets, y.id ≠ x.id := fun y => Registry.ne_id_of_mem hnew
  have hslash := noSlash_of_isDatasetId hid
  rcases Action.runs_bind hrun with ⟨_, t', hdataset, hmap⟩ | ⟨e, hdataset, rfl⟩
  · rcases runs_writeDataset hslash hx hdataset with ⟨-, hs, hfile⟩ | ⟨⟨e, he, -⟩, -⟩
    · -- until the map lists the new dataset, the files hold the old registry
      have hold : d.Holds t' r := h.of_spares_dataset hne hs
      have hnext : d.HoldsDatasets t' (r.insert x) := hold.toHoldsDatasets.insert hid hsize hfile
      rcases runs_writeMap hnext.sizes hmap with ⟨rfl, hs', hlists⟩ | ⟨herror, hs'⟩
      · exact .inl ⟨rfl, hnext.holds hs' hlists⟩
      · exact .inr ⟨herror, hold.of_spares_map hs'⟩
    · cases he
  · rcases runs_writeDataset hslash hx hdataset with ⟨he, -⟩ | ⟨herror, hs⟩
    · cases he
    · obtain ⟨e', he, hcode⟩ := herror
      cases he
      exact .inr ⟨⟨_, rfl, hcode⟩, h.of_spares_dataset hne hs⟩

/-- Stopped while an added dataset was stored: the files hold the new registry or the old
one. -/
theorem stops_storeAdded [FloatReader.Exact] (h : d.Holds t r) (hid : isDatasetId x.id = true)
    (hsize : x.store.size < 2 ^ 64) (hx : x.store.Storable) (hnew : r.contains x.id = false)
    (hstop : Stops faults (Catalog.storeAdded x (r.insert x).listings (some d)).run t u) :
    (d.Holds u (r.insert x) ∨ d.Holds u r) ∧ SameDirectories t u := by
  have hne : ∀ y ∈ r.datasets, y.id ≠ x.id := fun y => Registry.ne_id_of_mem hnew
  have hslash := noSlash_of_isDatasetId hid
  rcases Action.stops_bind hstop with hdataset | ⟨_, t', hdataset, hmap⟩
  · -- a dataset that is not listed may be written in part
    have hs := stops_writeDataset hslash hdataset
    exact ⟨.inr (h.of_spares_dataset hne hs), hs.directories⟩
  · rcases runs_writeDataset hslash hx hdataset with ⟨-, hs, hfile⟩ | ⟨⟨e, he, -⟩, -⟩
    · have hold : d.Holds t' r := h.of_spares_dataset hne hs
      have hnext : d.HoldsDatasets t' (r.insert x) := hold.toHoldsDatasets.insert hid hsize hfile
      rcases stops_writeMap hnext.sizes hmap with ⟨hs', hlists⟩ | hs'
      · exact ⟨.inl (hnext.holds hs' hlists), hs.directories.trans hs'.directories⟩
      · exact ⟨.inr (hold.of_spares_map hs'), hs.directories.trans hs'.directories⟩
    · cases he

theorem runs_storeRemoved {result : Except CatalogError Unit} (h : d.Holds t r)
    (hid : isDatasetId id = true)
    (hrun : Runs faults (Catalog.storeRemoved id (r.erase id).listings (some d)).run t result u) :
    (result = .ok () ∧ d.Holds u (r.erase id)) ∨
      (∃ e, result = .error e ∧ e.code = "CAMPUS_STORAGE_IO") ∧ d.Holds u r := by
  have hnext : d.HoldsDatasets t (r.erase id) := h.toHoldsDatasets.erase id
  rcases Action.runs_bind hrun with ⟨_, t', hmap, hrest⟩ | ⟨e, hmap, rfl⟩
  · rcases runs_writeMap hnext.sizes hmap with ⟨-, hs, hlists⟩ | ⟨⟨e, he, -⟩, -⟩
    · -- the map no longer lists the dataset, so its file may stay or go
      have hheld := hnext.holds hs hlists
      obtain ⟨gone, t₂, hremove, hreport⟩ := Action.runs_lift_bind hrest
      obtain ⟨_, hreported, rfl⟩ := Action.runs_lift hreport
      have hs' := stops_removeDataset (noSlash_of_isDatasetId hid) hremove.stops
      rw [← (silent_reportOrphans _).runs hreported] at hs'
      exact .inl ⟨rfl, hheld.of_spares_dataset (fun _ => ne_id_of_mem_erase) hs'⟩
    · cases he
  · rcases runs_writeMap hnext.sizes hmap with ⟨he, -⟩ | ⟨⟨e', he, hcode⟩, hs⟩
    · cases he
    · cases he
      exact .inr ⟨⟨_, rfl, hcode⟩, h.of_spares_map hs⟩

theorem stops_storeRemoved (h : d.Holds t r) (hid : isDatasetId id = true)
    (hstop : Stops faults (Catalog.storeRemoved id (r.erase id).listings (some d)).run t u) :
    (d.Holds u (r.erase id) ∨ d.Holds u r) ∧ SameDirectories t u := by
  have hnext : d.HoldsDatasets t (r.erase id) := h.toHoldsDatasets.erase id
  rcases Action.stops_bind hstop with hmap | ⟨_, t', hmap, hrest⟩
  · rcases stops_writeMap hnext.sizes hmap with ⟨hs, hlists⟩ | hs
    · exact ⟨.inl (hnext.holds hs hlists), hs.directories⟩
    · exact ⟨.inr (h.of_spares_map hs), hs.directories⟩
  · rcases runs_writeMap hnext.sizes hmap with ⟨-, hs, hlists⟩ | ⟨⟨e, he, -⟩, -⟩
    · -- the map is complete, and what is left to do touches the dataset only
      have hremoved : Spares t' u (d.datasetPlaces id) := by
        have hslash := noSlash_of_isDatasetId hid
        rcases Action.stops_lift_bind hrest with hremove | ⟨gone, t₂, hremove, hreport⟩
        · exact stops_removeDataset hslash hremove
        · rw [(silent_reportOrphans _).stops (Action.stops_lift hreport)]
          exact stops_removeDataset hslash hremove.stops
      have hheld := (hnext.holds hs hlists).of_spares_dataset (fun _ => ne_id_of_mem_erase) hremoved
      exact ⟨.inl hheld, hs.directories.trans hremoved.directories⟩
    · cases he

end DataDirectory

/-! ### Calls -/

namespace Catalog

variable {c' : Catalog} {result : Except CatalogError (List String)}
variable {removed : Except CatalogError String}

/-- Adding is refused, or is as good as storing; the catalog changes only if that succeeds. -/
theorem runs_add (h : Runs faults (c.add id kind records) t (result, c') u) :
    (∃ e, checkAddition c.registry id kind records = .error e ∧ result = .error e ∧ c' = c ∧
        u = t) ∨
      ∃ x stored, checkAddition c.registry id kind records = .ok x ∧
        Runs faults (storeAdded x (c.registry.insert x).listings c.directory).run t stored u ∧
        ((∃ e, stored = .error e ∧ result = .error e ∧ c' = c) ∨
          stored = .ok () ∧ result = .ok c'.registry.ids ∧
            c' = { c with registry := c.registry.insert x, metrics := c.metrics.countAdded }) := by
  unfold add at h
  split at h
  · rename_i e hcheck
    obtain ⟨⟨⟩, rfl⟩ := Program.runs_pure h
    exact .inl ⟨_, hcheck, rfl, rfl, rfl⟩
  · rename_i x hcheck
    obtain ⟨rfl, -, hnew, -⟩ := checkAddition_eq_ok hcheck
    rw [Registry.listingsWith_eq hnew] at h
    obtain ⟨stored, t₁, hstore, hrest⟩ := Program.runs_bind h
    rcases stored with e | _
    · obtain ⟨⟨⟩, rfl⟩ := Program.runs_pure hrest
      exact .inr ⟨x, _, hcheck, hstore, .inl ⟨_, rfl, rfl, rfl⟩⟩
    · obtain ⟨⟨⟩, rfl⟩ := Program.runs_log_pure hrest
      exact .inr ⟨x, _, hcheck, hstore, .inr ⟨rfl, rfl, rfl⟩⟩

theorem stops_add (h : Stops faults (c.add id kind records) t u) :
    u = t ∨ ∃ x, checkAddition c.registry id kind records = .ok x ∧
      Stops faults (storeAdded x (c.registry.insert x).listings c.directory).run t u := by
  unfold add at h
  split at h
  · exact .inl (Program.stops_pure h)
  · rename_i x hcheck
    obtain ⟨rfl, -, hnew, -⟩ := checkAddition_eq_ok hcheck
    rw [Registry.listingsWith_eq hnew] at h
    refine .inr ⟨x, hcheck, ?_⟩
    rcases Program.stops_bind h with hstore | ⟨stored, t₁, hstore, hrest⟩
    · exact hstore
    · rcases stored with e | _
      · rw [Program.stops_pure hrest]
        exact hstore.stops
      · rw [Program.stops_log_pure hrest]
        exact hstore.stops

/-- Removing is refused, or is as good as storing; the catalog changes only if that
succeeds. -/
theorem runs_remove (h : Runs faults (c.remove id) t (removed, c') u) :
    (∃ e, checkRemoval c.registry id = .error e ∧ removed = .error e ∧ c' = c ∧ u = t) ∨
      checkRemoval c.registry id = .ok () ∧ ∃ stored,
        Runs faults (storeRemoved id (c.registry.erase id).listings c.directory).run t stored u ∧
        ((∃ e, stored = .error e ∧ removed = .error e ∧ c' = c) ∨
          stored = .ok () ∧ removed = .ok id ∧ c' =
            { c with registry := c.registry.erase id, metrics := c.metrics.countRemoved }) := by
  unfold remove at h
  split at h
  · rename_i e hcheck
    obtain ⟨⟨⟩, rfl⟩ := Program.runs_pure h
    exact .inl ⟨_, hcheck, rfl, rfl, rfl⟩
  · rename_i hcheck
    rw [Registry.listingsWithout_eq] at h
    obtain ⟨stored, t₁, hstore, hrest⟩ := Program.runs_bind h
    refine .inr ⟨hcheck, stored, ?_⟩
    rcases stored with e | _
    · obtain ⟨⟨⟩, rfl⟩ := Program.runs_pure hrest
      exact ⟨hstore, .inl ⟨_, rfl, rfl, rfl⟩⟩
    · obtain ⟨⟨⟩, rfl⟩ := Program.runs_log_pure hrest
      exact ⟨hstore, .inr ⟨rfl, rfl, rfl⟩⟩

theorem stops_remove (h : Stops faults (c.remove id) t u) :
    u = t ∨ checkRemoval c.registry id = .ok () ∧
      Stops faults (storeRemoved id (c.registry.erase id).listings c.directory).run t u := by
  unfold remove at h
  split at h
  · exact .inl (Program.stops_pure h)
  · rename_i hcheck
    rw [Registry.listingsWithout_eq] at h
    refine .inr ⟨hcheck, ?_⟩
    rcases Program.stops_bind h with hstore | ⟨stored, t₁, hstore, hrest⟩
    · exact hstore
    · rcases stored with e | _
      · rw [Program.stops_pure hrest]
        exact hstore.stops
      · rw [Program.stops_log_pure hrest]
        exact hstore.stops

end Catalog

namespace Edit

variable {e : Edit} {c' : Catalog} {result : Except CatalogError (List String)}

/-- A removal goes as that of the catalog does. -/
theorem runs_perform_remove (h : Runs faults ((remove id).perform c) t (result, c') u) :
    ∃ removed, Runs faults (c.remove id) t (removed, c') u ∧
      result = removed.map fun removed => [removed] := by
  obtain ⟨⟨removed, after⟩, t', hremove, hreturn⟩ := Program.runs_bind h
  obtain ⟨⟨⟩, rfl⟩ := Program.runs_pure hreturn
  exact ⟨removed, hremove, rfl⟩

theorem stops_perform_remove (h : Stops faults ((remove id).perform c) t u) :
    Stops faults (c.remove id) t u := by
  rcases Program.stops_bind h with hremove | ⟨_, t', hremove, hreturn⟩
  · exact hremove
  · rw [Program.stops_pure hreturn]
    exact hremove.stops

/-- Nothing is stored for a catalog in memory, so a call on it has its outcome. -/
theorem runs_perform_inMemory (hmemory : c.directory = none)
    (h : Runs faults (e.perform c) t (result, c') u) :
    result.map (fun _ => c'.registry) = e.outcome c.registry := by
  rcases e with ⟨id, kind, records⟩ | id
  · rcases Catalog.runs_add h with ⟨e, hcheck, rfl, -⟩ |
      ⟨x, stored, hcheck, hstore, ⟨e, rfl, -⟩ | ⟨-, rfl, rfl⟩⟩
    · exact (outcome_add_error hcheck).symm
    · rw [hmemory] at hstore
      cases (Action.runs_pure hstore).1
    · exact (outcome_add_ok hcheck).symm
  · obtain ⟨removed, hremove, rfl⟩ := runs_perform_remove h
    rcases Catalog.runs_remove hremove with ⟨e, hcheck, rfl, -⟩ |
      ⟨hcheck, stored, hstore, ⟨e, rfl, -⟩ | ⟨-, rfl, rfl⟩⟩
    · exact (outcome_remove_error hcheck).symm
    · rw [hmemory] at hstore
      cases (Action.runs_pure hstore).1
    · exact (outcome_remove_ok hcheck).symm

theorem storable_of_checkAddition (hedit : (add id kind records).Storable)
    (h : Catalog.checkAddition r id kind records = .ok x) :
    x.store.Storable ∧ x.store.size < 2 ^ 64 := by
  obtain ⟨-, -, -, -, hrecords⟩ := Catalog.checkAddition_eq_ok h
  obtain ⟨hstorable, hlength⟩ := hedit
  refine ⟨fun y hy => hstorable y (hrecords ▸ hy), ?_⟩
  rw [RecordStore.size, ← Array.length_toList, hrecords]
  exact hlength

/-- **A call on a stored catalog** succeeds with its outcome, and the files hold the new
registry; or it is refused or the storage fails, the catalog is as before, and the files hold
its registry. -/
theorem runs_perform [FloatReader] [FloatReader.Exact] (hdirectory : c.directory = some d)
    (hholds : d.Holds t c.registry) (hedit : e.Storable)
    (h : Runs faults (e.perform c) t (result, c') u) :
    (∃ ids, result = .ok ids ∧ e.outcome c.registry = .ok c'.registry ∧ c'.directory = some d ∧
        d.Holds u c'.registry) ∨
      ∃ failure, result = .error failure ∧ c' = c ∧ d.Holds u c.registry ∧
        (e.outcome c.registry = .error failure ∨ failure.code = "CAMPUS_STORAGE_IO") := by
  rcases e with ⟨id, kind, records⟩ | id
  · rcases Catalog.runs_add h with ⟨e, hcheck, rfl, rfl, rfl⟩ | ⟨x, stored, hcheck, hstore, hend⟩
    · -- what is refused is refused before anything is stored
      exact .inr ⟨e, rfl, rfl, hholds, .inl (outcome_add_error hcheck)⟩
    · obtain ⟨hid, hvalid, hnew, -, -⟩ := Catalog.checkAddition_eq_ok hcheck
      obtain ⟨hx, hsize⟩ := storable_of_checkAddition hedit hcheck
      rw [hdirectory] at hstore
      have hstored := DataDirectory.runs_storeAdded hholds (hid ▸ hvalid) hsize hx (hid ▸ hnew)
        hstore
      rcases hend with ⟨failure, rfl, rfl, rfl⟩ | ⟨rfl, rfl, rfl⟩
      · rcases hstored with ⟨he, -⟩ | ⟨⟨_, he, hcode⟩, hheld⟩
        · cases he
        · cases he
          exact .inr ⟨_, rfl, rfl, hheld, .inr hcode⟩
      · rcases hstored with ⟨-, hheld⟩ | ⟨⟨_, he, -⟩, -⟩
        · exact .inl ⟨_, rfl, outcome_add_ok hcheck, hdirectory, hheld⟩
        · cases he
  · obtain ⟨removed, hremove, rfl⟩ := runs_perform_remove h
    rcases Catalog.runs_remove hremove with ⟨e, hcheck, rfl, rfl, rfl⟩ |
      ⟨hcheck, stored, hstore, hend⟩
    · exact .inr ⟨e, rfl, rfl, hholds, .inl (outcome_remove_error hcheck)⟩
    · obtain ⟨hvalid, -⟩ := Catalog.checkRemoval_eq_ok hcheck
      rw [hdirectory] at hstore
      have hstored := DataDirectory.runs_storeRemoved hholds hvalid hstore
      rcases hend with ⟨failure, rfl, rfl, rfl⟩ | ⟨rfl, rfl, rfl⟩
      · rcases hstored with ⟨he, -⟩ | ⟨⟨_, he, hcode⟩, hheld⟩
        · cases he
        · cases he
          exact .inr ⟨_, rfl, rfl, hheld, .inr hcode⟩
      · rcases hstored with ⟨-, hheld⟩ | ⟨⟨_, he, -⟩, -⟩
        · exact .inl ⟨_, rfl, outcome_remove_ok hcheck, hdirectory, hheld⟩
        · cases he

/-- **A call that stops** leaves the registry before the call or the one after it in the
files, and no directory is new or gone. -/
theorem stops_perform [FloatReader] [FloatReader.Exact] (hdirectory : c.directory = some d)
    (hholds : d.Holds t c.registry) (hedit : e.Storable) (h : Stops faults (e.perform c) t u) :
    ((∃ r, e.outcome c.registry = .ok r ∧ d.Holds u r) ∨ d.Holds u c.registry) ∧
      SameDirectories t u := by
  rcases e with ⟨id, kind, records⟩ | id
  · rcases Catalog.stops_add h with rfl | ⟨x, hcheck, hstore⟩
    · exact ⟨.inr hholds, fun _ => Iff.rfl⟩
    · obtain ⟨hid, hvalid, hnew, -, -⟩ := Catalog.checkAddition_eq_ok hcheck
      obtain ⟨hx, hsize⟩ := storable_of_checkAddition hedit hcheck
      rw [hdirectory] at hstore
      obtain ⟨hheld, hsame⟩ :=
        DataDirectory.stops_storeAdded hholds (hid ▸ hvalid) hsize hx (hid ▸ hnew) hstore
      exact ⟨hheld.imp_left fun hheld => ⟨_, outcome_add_ok hcheck, hheld⟩, hsame⟩
  · rcases Catalog.stops_remove (stops_perform_remove h) with rfl | ⟨hcheck, hstore⟩
    · exact ⟨.inr hholds, fun _ => Iff.rfl⟩
    · obtain ⟨hvalid, -⟩ := Catalog.checkRemoval_eq_ok hcheck
      rw [hdirectory] at hstore
      obtain ⟨hheld, hsame⟩ := DataDirectory.stops_storeRemoved hholds hvalid hstore
      exact ⟨hheld.imp_left fun hheld => ⟨_, outcome_remove_ok hcheck, hheld⟩, hsame⟩

end Edit

end CampusQuery
