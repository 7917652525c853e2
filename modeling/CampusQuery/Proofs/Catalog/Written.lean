/-
CampusQuery/Proofs/Catalog/Written.lean

What opening and editing do to the files, byte for byte and whatever the files are.

`CampusQuery.Proofs.Catalog.Edits` says which registry the files hold after a call, and
needs for this that they held one before.  Nothing is assumed of the files here.  Opening
puts no file anywhere (`NoNewFiles`) and registers only datasets that the map lists
(`runs_openAt_listed`).  An edit that succeeds has written the map of its registry; an
edit that fails was refused, with the files untouched, or the storage failed, and then
only temporary files and the file of a dataset that is not registered were touched
(`Edit.runs_perform_written`).
-/
import CampusQuery.Proofs.Catalog.Opened
import CampusQuery.Proofs.Catalog.Reading

namespace CampusQuery

open Program (Runs)
open FileTree (Spares)

variable {faults : Faults} {t t' u : FileTree} {r : Registry} {x : Dataset} {c : Catalog}
variable {d : DataDirectory}

/-! ### What is new in the files -/

namespace FileTree

theorem Spares.trans_union {S S' : Set Place} (h : Spares t t' S) (h' : Spares t' u S') :
    Spares t u (S ∪ S') :=
  (h.mono Set.subset_union_left).trans (h'.mono Set.subset_union_right)

/-- Every file of the second tree is in the first, with the same content. -/
def NoNewFiles (t u : FileTree) : Prop :=
  ∀ place content, u.get? place = some (.file content) → t.get? place = some (.file content)

theorem NoNewFiles.refl (t : FileTree) : NoNewFiles t t := fun _ _ h => h

theorem NoNewFiles.trans (h : NoNewFiles t t') (h' : NoNewFiles t' u) : NoNewFiles t u :=
  fun place content hfile => h place content (h' place content hfile)

theorem Grows.noNewFiles (h : Grows t u) : NoNewFiles t u := by
  intro place content hfile
  rcases h.same_or_new place with hsame | ⟨-, hdirectory⟩
  · rwa [hsame] at hfile
  · cases hdirectory.symm.trans hfile

theorem noNewFiles_erase (place : Place) : NoNewFiles t (t.erase place) := by
  intro other content hfile
  have hother : other ≠ [] := ne_nil_of_get? (t := t.erase place) (by simp [hfile])
  rcases eq_or_ne other place with rfl | hne
  · cases (get?_erase_self hother).symm.trans hfile
  · rwa [get?_erase_of_ne hne] at hfile

end FileTree

open FileTree (NoNewFiles)

namespace DataDirectory

/-! ### Opening -/

theorem noNewFiles_removeDataset {id : String} {gone : Bool}
    (h : Runs faults (d.removeDataset id) t gone u) : NoNewFiles t u := by
  obtain ⟨result, t', hremove, h⟩ := Program.runs_bind h
  have hu : u = t' := by
    split at h
    all_goals exact (Program.runs_pure h).2
  rw [hu]
  rcases Program.runs_changing hremove with ⟨-, happly⟩ | ⟨e, -, rfl, -⟩
  · obtain ⟨place, content, -, rfl⟩ := FileTree.apply_remove_eq_ok happly
    exact FileTree.noNewFiles_erase place
  · exact .refl _

theorem noNewFiles_removeAll {ids stuck : List String}
    (h : Runs faults (d.removeAll ids) t stuck u) : NoNewFiles t u := by
  induction ids generalizing t stuck with
  | nil =>
    obtain ⟨-, rfl⟩ := Program.runs_pure h
    exact .refl _
  | cons id ids ih =>
    obtain ⟨gone, t₁, hremove, h⟩ := Program.runs_bind h
    obtain ⟨others, t₂, hrest, h⟩ := Program.runs_bind h
    obtain ⟨-, rfl⟩ := Program.runs_pure h
    exact (noNewFiles_removeDataset hremove).trans (ih hrest)

theorem noNewFiles_sweep {listed : List String} {result : Except CatalogError (List String)}
    (h : Runs faults (d.sweep listed).run t result u) : NoNewFiles t u := by
  rcases runs_sweep_cases h with ⟨e, -, rfl, -⟩ | ⟨found, stuck, -, hremove, -⟩
  · exact .refl _
  · exact noNewFiles_removeAll hremove

section Reading

variable [FloatReader]

theorem runs_readMap_lists {result : Except CatalogError (List Listing)}
    (h : Runs faults d.readMap.run t result u) :
    u = t ∧ ∀ entries, result = .ok entries → d.Lists .nothing t entries := by
  obtain ⟨present, t₁, hask, hrest⟩ := Action.runs_lift_bind h
  obtain ⟨hpresent, rfl⟩ := Program.runs_asking hask
  split at hrest
  · rcases Action.runs_read_bind hrest with ⟨content, hread, hdecode⟩ | ⟨e, rfl, rfl, -⟩
    · split at hdecode
      · rename_i m hmap
        obtain ⟨rfl, rfl⟩ := Action.runs_pure hdecode
        refine ⟨rfl, fun entries he => .inr ⟨content, m, hread, hmap, ?_⟩⟩
        exact (Except.ok.inj he).symm
      · obtain ⟨rfl, rfl⟩ := Program.runs_pure hdecode
        exact ⟨rfl, nofun⟩
    · exact ⟨rfl, nofun⟩
  · rename_i hthere
    obtain ⟨rfl, rfl⟩ := Action.runs_pure hrest
    rw [hpresent, Bool.not_eq_true] at hthere
    exact ⟨rfl, fun entries he => .inl ⟨hthere, (Except.ok.inj he).symm⟩⟩

theorem runs_readDataset_opens {entry : Listing} {result : Except CatalogError Dataset}
    (h : Runs faults (d.readDataset entry).run t result u) :
    u = t ∧ ∀ x, result = .ok x → d.Opens .nothing t entry x := by
  rcases Action.runs_read_bind h with ⟨content, hread, hrest⟩ | ⟨e, rfl, rfl, -⟩
  · split at hrest
    · obtain ⟨rfl, rfl⟩ := Program.runs_pure hrest
      exact ⟨rfl, nofun⟩
    · rename_i envelope hdecode
      split at hrest
      · rename_i dataset hopen
        obtain ⟨rfl, rfl⟩ := Action.runs_pure hrest
        refine ⟨rfl, fun x he => ?_⟩
        cases he
        exact ⟨content, envelope, hread, hdecode, hopen⟩
      · obtain ⟨rfl, rfl⟩ := Program.runs_pure hrest
        exact ⟨rfl, nofun⟩
  · exact ⟨rfl, nofun⟩

theorem runs_readAll_opens {entries : List Listing} {s : Registry}
    {result : Except CatalogError Registry}
    (h : Runs faults (Catalog.readAll d entries s).run t result u) :
    u = t ∧ ∀ s', result = .ok s' →
      ∃ l, List.Forall₂ (d.Opens .nothing t) entries l ∧ s' = l.foldl Registry.insert s := by
  induction entries generalizing s with
  | nil =>
    obtain ⟨rfl, rfl⟩ := Action.runs_pure h
    exact ⟨rfl, fun s' he => ⟨[], .nil, (Except.ok.inj he).symm⟩⟩
  | cons entry entries ih =>
    rcases Action.runs_bind h with ⟨x, t₁, hread, hrest⟩ | ⟨e, hread, rfl⟩
    · obtain ⟨rfl, hopens⟩ := runs_readDataset_opens hread
      obtain ⟨rfl, hothers⟩ := ih hrest
      refine ⟨rfl, fun s' he => ?_⟩
      obtain ⟨l, hl, rfl⟩ := hothers s' he
      exact ⟨x :: l, .cons (hopens x rfl) hl, rfl⟩
    · exact ⟨(runs_readDataset_opens hread).1, nofun⟩

/-- The map lists every dataset of a catalog that was opened on the files. -/
def Listed (d : DataDirectory) (t : FileTree) (c : Catalog) : Prop :=
  ∃ t' entries, NoNewFiles t t' ∧ d.Lists .nothing t' entries ∧
    ∀ x ∈ c.registry.datasets, x.listing ∈ entries

/-- **Opening puts no file anywhere**, and all that it registers is listed. -/
theorem runs_openAt_listed {result : Except CatalogError Catalog}
    (h : Runs faults (Catalog.openAt d).run t result u) :
    NoNewFiles t u ∧ ∀ c, result = .ok c → c.directory = some d ∧ d.Listed t c := by
  rcases Action.runs_change_bind (runs_restore_of_openAt h) with
    ⟨t₁, happly, h⟩ | ⟨e, rfl, rfl, -⟩
  · have hmade := (FileTree.apply_makeDirectories_eq_ok happly).1.noNewFiles
    rcases Action.runs_bind h with ⟨entries, t₂, hmap, hrest⟩ | ⟨e, hmap, rfl⟩
    · obtain ⟨rfl, hlists⟩ := runs_readMap_lists hmap
      rcases Action.runs_bind hrest with ⟨registry, t₃, hread, hfinish⟩ | ⟨e, hread, rfl⟩
      · obtain ⟨rfl, hopens⟩ := runs_readAll_opens hread
        rcases Action.runs_bind hfinish with ⟨stuck, t₄, hsweep, hreport⟩ | ⟨e, hsweep, rfl⟩
        · have hswept := hmade.trans (noNewFiles_sweep hsweep)
          obtain ⟨_, hreturn⟩ := Action.runs_silent_bind (silent_reportOrphans _) hreport
          obtain ⟨rfl, rfl⟩ := Action.runs_pure hreturn
          refine ⟨hswept, fun c he => ?_⟩
          cases he
          refine ⟨rfl, _, entries, hmade, hlists entries rfl, fun x hx => ?_⟩
          obtain ⟨l, hl, rfl⟩ := hopens registry rfl
          obtain ⟨entry, hentry, hx⟩ := (mem_foldl_insert_of_opens hl).mp hx
          rwa [listing_of_opens hx]
        · exact ⟨hmade.trans (noNewFiles_sweep hsweep), nofun⟩
      · rw [(runs_readAll_opens hread).1]
        exact ⟨hmade, nofun⟩
    · rw [(runs_readMap_lists hmap).1]
      exact ⟨hmade, nofun⟩
  · exact ⟨.refl _, nofun⟩

end Reading

/-! ### Storing an edit -/

/-- Storing an added dataset: its file and the map are written, or the storage failed, and
the map is untouched. -/
theorem runs_storeAdded_written {entries : List Listing} {result : Except CatalogError Unit}
    (hid : '/' ∉ x.id.toList)
    (h : Runs faults (Catalog.storeAdded x entries (some d)).run t result u) :
    (result = .ok () ∧ ∃ t' writtenAt updatedAt,
        Spares t t' (d.datasetPlaces x.id) ∧ Spares t' u d.mapPlaces ∧
        t'.read (d.datasetPath x.id) = .ok (Envelope.ofDataset x writtenAt).toBytes ∧
        u.read d.mapPath = .ok (CatalogMap.toBytes ⟨updatedAt, entries⟩)) ∨
      (∃ e, result = .error e ∧ e.code = "CAMPUS_STORAGE_IO") ∧
        Spares t u (d.datasetPlaces x.id ∪ d.below ["catalog.json.tmp"]) := by
  rcases Action.runs_bind h with ⟨_, t', hdataset, hmap⟩ | ⟨e, hdataset, rfl⟩
  · rcases runs_writeDataset_read hid hdataset with ⟨-, hs, writtenAt, hfile⟩ | ⟨⟨e, he, -⟩, -⟩
    · rcases runs_writeMap_read hmap with ⟨rfl, hs', updatedAt, hlists⟩ | ⟨herror, hs'⟩
      · exact .inl ⟨rfl, t', writtenAt, updatedAt, hs, hs', hfile, hlists⟩
      · exact .inr ⟨herror, hs.trans_union hs'⟩
    · cases he
  · rcases runs_writeDataset_read hid hdataset with ⟨he, -⟩ | ⟨⟨e', he, hcode⟩, hs⟩
    · cases he
    · cases he
      exact .inr ⟨⟨_, rfl, hcode⟩, hs.mono Set.subset_union_left⟩

/-- Storing a removal: the map is written and then the file of the dataset removed or left,
or the storage failed before the map took its place. -/
theorem runs_storeRemoved_written {id : String} {entries : List Listing}
    {result : Except CatalogError Unit}
    (h : Runs faults (Catalog.storeRemoved id entries (some d)).run t result u) :
    (result = .ok () ∧ ∃ t' updatedAt gone, Spares t t' d.mapPlaces ∧
        t'.read d.mapPath = .ok (CatalogMap.toBytes ⟨updatedAt, entries⟩) ∧
        Runs faults (d.removeDataset id) t' gone u) ∨
      (∃ e, result = .error e ∧ e.code = "CAMPUS_STORAGE_IO") ∧
        Spares t u (d.below ["catalog.json.tmp"]) := by
  rcases Action.runs_bind h with ⟨_, t', hmap, hrest⟩ | ⟨e, hmap, rfl⟩
  · rcases runs_writeMap_read hmap with ⟨-, hs, updatedAt, hlists⟩ | ⟨⟨e, he, -⟩, -⟩
    · obtain ⟨gone, t₂, hremove, hreport⟩ := Action.runs_lift_bind hrest
      obtain ⟨_, hreported, rfl⟩ := Action.runs_lift hreport
      obtain rfl := (silent_reportOrphans _).runs hreported
      exact .inl ⟨rfl, t', updatedAt, gone, hs, hlists, hremove⟩
    · cases he
  · rcases runs_writeMap_read hmap with ⟨he, -⟩ | ⟨⟨e', he, hcode⟩, hs⟩
    · cases he
    · cases he
      exact .inr ⟨⟨_, rfl, hcode⟩, hs⟩

/-- The places that a call about an id may have touched when it fails: the temporary file of
the map, and the files of a dataset that is not registered. -/
def footprint (d : DataDirectory) (r : Registry) (id : String) : Set Place :=
  {place | r.contains id = false ∧ place ∈ d.datasetPlaces id} ∪ d.below ["catalog.json.tmp"]

theorem not_mem_mapPath_of_footprint {id : String} {place : Place}
    (h : place ∈ d.footprint r id) : place ∉ d.below ["catalog.json"] := by
  rcases h with ⟨-, h⟩ | h
  · exact not_mem_below_of_datasetPlaces h
  · exact not_mem_below (by decide) h

theorem not_mem_datasetPath_of_footprint {id : String} {place : Place} (hx : x ∈ r.datasets)
    (h : place ∈ d.footprint r id) : place ∉ d.below ["datasets", fileName x.id] := by
  rcases h with ⟨hnew, h⟩ | h
  · exact not_mem_below_of_ne (Registry.ne_id_of_mem hnew hx) h
  · exact not_mem_below_of_mapPlaces (.inl h)

end DataDirectory

namespace Metrics

theorem countAdded_ne (m : Metrics) : m.countAdded ≠ m := fun h => by
  simpa [countAdded] using congrArg datasetsAdded h

theorem countRemoved_ne (m : Metrics) : m.countRemoved ≠ m := fun h => by
  simpa [countRemoved] using congrArg datasetsRemoved h

end Metrics

namespace Edit

/-- The id that the call is about. -/
def id : Edit → String
  | .add id _ _ => id
  | .remove id => id

variable {e : Edit} {c' : Catalog} {ids : List String} {failure : CatalogError}

/-- What the call answers with when it leads to the registry. -/
def reply (r : Registry) : Edit → List String
  | .add _ _ _ => r.ids
  | .remove id => [id]

/-- A call that succeeds has its outcome, says so, and is counted. -/
theorem runs_perform_ok (h : Runs faults (e.perform c) t (.ok ids, c') u) :
    e.outcome c.registry = .ok c'.registry ∧ ids = e.reply c'.registry ∧ c' ≠ c := by
  rcases e with ⟨id, kind, records⟩ | id
  · rcases Catalog.runs_add h with ⟨_, -, he, -⟩ |
      ⟨x, stored, hcheck, -, ⟨_, -, he, -⟩ | ⟨-, he, rfl⟩⟩
    · cases he
    · cases he
    · exact ⟨outcome_add_ok hcheck, Except.ok.inj he,
        fun hsame => c.metrics.countAdded_ne (congrArg Catalog.metrics hsame)⟩
  · obtain ⟨removed, hremove, he⟩ := runs_perform_remove h
    rcases Catalog.runs_remove hremove with ⟨_, -, rfl, -⟩ |
      ⟨hcheck, stored, -, ⟨_, -, rfl, -⟩ | ⟨-, rfl, rfl⟩⟩
    · cases he
    · cases he
    · exact ⟨outcome_remove_ok hcheck, Except.ok.inj he,
        fun hsame => c.metrics.countRemoved_ne (congrArg Catalog.metrics hsame)⟩

/-- A call that fails leaves the catalog as it is.  It was refused, and nothing was touched; or it
was accepted, the storage failed, and nothing but the footprint was touched. -/
theorem runs_perform_error (h : Runs faults (e.perform c) t (.error failure, c') u) :
    c' = c ∧ ((e.outcome c.registry = .error failure ∧ u = t) ∨
      (∃ r, e.outcome c.registry = .ok r) ∧ failure.code = "CAMPUS_STORAGE_IO" ∧
        ∃ d, c.directory = some d ∧ Spares t u (d.footprint c.registry e.id)) := by
  rcases e with ⟨id, kind, records⟩ | id
  · rcases Catalog.runs_add h with ⟨_, hcheck, he, rfl, rfl⟩ |
      ⟨x, stored, hcheck, hstore, ⟨_, rfl, he, rfl⟩ | ⟨-, he, -⟩⟩
    · cases he
      exact ⟨rfl, .inl ⟨outcome_add_error hcheck, rfl⟩⟩
    · cases he
      refine ⟨rfl, .inr ⟨⟨_, outcome_add_ok hcheck⟩, ?_⟩⟩
      obtain ⟨rfl, hvalid, hnew, -⟩ := Catalog.checkAddition_eq_ok hcheck
      rcases hdirectory : c'.directory with - | d
      · rw [hdirectory] at hstore
        cases (Action.runs_pure hstore).1
      · rw [hdirectory] at hstore
        rcases DataDirectory.runs_storeAdded_written
          (DataDirectory.noSlash_of_isDatasetId hvalid) hstore with ⟨hok, -⟩ | ⟨⟨_, he, hcode⟩, hs⟩
        · cases hok
        · cases he
          refine ⟨hcode, d, rfl, hs.mono ?_⟩
          exact Set.union_subset_union_left _ fun place hplace => ⟨hnew, hplace⟩
    · cases he
  · obtain ⟨removed, hremove, he⟩ := runs_perform_remove h
    rcases Catalog.runs_remove hremove with ⟨_, hcheck, rfl, rfl, rfl⟩ |
      ⟨hcheck, stored, hstore, ⟨_, rfl, rfl, rfl⟩ | ⟨-, rfl, -⟩⟩
    · cases he
      exact ⟨rfl, .inl ⟨outcome_remove_error hcheck, rfl⟩⟩
    · cases he
      refine ⟨rfl, .inr ⟨⟨_, outcome_remove_ok hcheck⟩, ?_⟩⟩
      rcases hdirectory : c'.directory with - | d
      · rw [hdirectory] at hstore
        cases (Action.runs_pure hstore).1
      · rw [hdirectory] at hstore
        rcases DataDirectory.runs_storeRemoved_written hstore with ⟨hok, -⟩ | ⟨⟨_, he, hcode⟩, hs⟩
        · cases hok
        · cases he
          exact ⟨hcode, d, rfl, hs.mono Set.subset_union_right⟩
    · cases he

/-- **What a call writes.**  If it succeeds, the map lists the registry of the new catalog.  If it
fails, the catalog is as before, and nothing was touched, or the storage failed and nothing but
the footprint was. -/
theorem runs_perform_written {result : Except CatalogError (List String)}
    (hdirectory : c.directory = some d) (h : Runs faults (e.perform c) t (result, c') u) :
    (∃ ids updatedAt, result = .ok ids ∧ e.outcome c.registry = .ok c'.registry ∧
        c'.directory = some d ∧ Spares t u (d.datasetPlaces e.id ∪ d.mapPlaces) ∧
        u.read d.mapPath = .ok (CatalogMap.toBytes ⟨updatedAt, c'.registry.listings⟩)) ∨
      ∃ failure, result = .error failure ∧ c' = c ∧
        (u = t ∨
          failure.code = "CAMPUS_STORAGE_IO" ∧ Spares t u (d.footprint c.registry e.id)) := by
  rcases result with failure | ids
  · obtain ⟨hsame, ⟨-, rfl⟩ | ⟨-, hcode, d', hdirectory', hs⟩⟩ := runs_perform_error h
    · exact .inr ⟨failure, rfl, hsame, .inl rfl⟩
    · obtain rfl := Option.some.inj (hdirectory.symm.trans hdirectory')
      exact .inr ⟨failure, rfl, hsame, .inr ⟨hcode, hs⟩⟩
  · refine .inl ?_
    rcases e with ⟨id, kind, records⟩ | id
    · rcases Catalog.runs_add h with ⟨_, -, he, -⟩ |
        ⟨x, stored, hcheck, hstore, ⟨_, -, he, -⟩ | ⟨rfl, -, rfl⟩⟩
      · cases he
      · cases he
      · obtain ⟨rfl, hvalid, -⟩ := Catalog.checkAddition_eq_ok hcheck
        rw [hdirectory] at hstore
        rcases DataDirectory.runs_storeAdded_written
          (DataDirectory.noSlash_of_isDatasetId hvalid) hstore with
          ⟨-, t', writtenAt, updatedAt, hs, hs', -, hmap⟩ | ⟨⟨_, hfailed, -⟩, -⟩
        · exact ⟨_, updatedAt, rfl, outcome_add_ok hcheck, hdirectory, hs.trans_union hs', hmap⟩
        · cases hfailed
    · obtain ⟨removed, hremove, he⟩ := runs_perform_remove h
      rcases Catalog.runs_remove hremove with ⟨_, -, rfl, -⟩ |
        ⟨hcheck, stored, hstore, ⟨_, -, rfl, -⟩ | ⟨rfl, -, rfl⟩⟩
      · cases he
      · cases he
      · obtain ⟨hvalid, -⟩ := Catalog.checkRemoval_eq_ok hcheck
        rw [hdirectory] at hstore
        rcases DataDirectory.runs_storeRemoved_written hstore with
          ⟨-, t', updatedAt, gone, hs, hmap, hremoved⟩ | ⟨⟨_, hfailed, -⟩, -⟩
        · have hs' := DataDirectory.stops_removeDataset
            (DataDirectory.noSlash_of_isDatasetId hvalid) hremoved.stops
          refine ⟨_, updatedAt, rfl, outcome_remove_ok hcheck, hdirectory, ?_, ?_⟩
          · rw [Set.union_comm]
            exact hs.trans_union hs'
          · refine FileTree.read_of_spares hs' (fun place hplace hmem => ?_) hmap
            exact DataDirectory.not_mem_below_of_datasetPlaces hmem
              (DataDirectory.mem_below_mapPath hplace)
        · cases hfailed

end Edit

end CampusQuery
