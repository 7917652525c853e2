/-
CampusQuery/Proofs/Catalog/Canonical.lean

The catalog has a canonical form.

A catalog is edited that was opened on an empty directory, and no access to the files fails
(`EditRun`).  However the registry came about, the files are then a function of the registry
and of the times of writing (`canonicalFiles`): one map, one file for each dataset, and
nothing else, neither of datasets that are gone nor temporary files.  Only whether there is a
map depends on the history: there is none before the first edit that succeeds.  So runs that
end with the same datasets cannot be told apart (`EditRun.canonical`), but for that
(`EditRun.map_tells_history`).
-/
import CampusQuery.Proofs.Catalog.Session
import CampusQuery.Proofs.Catalog.Sweep
import CampusQuery.Proofs.Catalog.Written
import CampusQuery.Proofs.Text.Bytes
import CampusQuery.Proofs.Text.Sorted

namespace CampusQuery

open Program (Runs)
open FileTree (NoNewFiles Spares)

variable {faults : Faults} {t t' u : FileTree} {r r' : Registry} {x : Dataset} {c c' : Catalog}
variable {d : DataDirectory} {names : List String} {place : Place} {content : ByteArray}

/-! ### Files by their names -/

/-- The content of the file at a place. -/
def FileTree.content? (t : FileTree) (place : Place) : Option ByteArray :=
  match t.get? place with
  | some (.file content) => some content
  | _ => none

theorem FileTree.content?_eq_some_iff :
    t.content? place = some content ↔ t.get? place = some (.file content) := by
  unfold content?
  constructor
  · intro h
    split at h
    · rename_i hfile
      cases h
      exact hfile
    · cases h
  · intro h
    rw [h]

theorem FileTree.ne_nil_of_file (h : t.get? place = some (.file content)) : place ≠ [] :=
  ne_nil_of_get? (t := t) (by simp [h])

namespace DataDirectory

/-- The files of the data directory, by the names that lead to them from there. -/
def files (d : DataDirectory) (t : FileTree) (names : List String) : Option ByteArray :=
  d.path.place?.bind fun home => t.content? (home ++ names)

theorem files_of_mem (h : place ∈ d.below names) (t : FileTree) :
    d.files t names = t.content? place := by
  obtain ⟨home, hhome, rfl⟩ := h
  rw [files, hhome, Option.bind_some]

theorem files_congr (h : ∀ place ∈ d.below names, u.get? place = t.get? place) :
    d.files u names = d.files t names := by
  rcases hhome : d.path.place? with - | home
  · rw [files, files, hhome]
    rfl
  · have hmem : home ++ names ∈ d.below names := ⟨home, hhome, rfl⟩
    rw [files_of_mem hmem, files_of_mem hmem, FileTree.content?, FileTree.content?, h _ hmem]

theorem files_of_noNewFiles (hnone : NoNewFiles t u) (h : d.files t names = none) :
    d.files u names = none := by
  rw [Option.eq_none_iff_forall_ne_some] at h ⊢
  intro content hcontent
  apply h content
  obtain ⟨home, hhome, hfile⟩ := Option.bind_eq_some_iff.mp hcontent
  rw [files, hhome, Option.bind_some]
  exact FileTree.content?_eq_some_iff.mpr
    (hnone _ _ (FileTree.content?_eq_some_iff.mp hfile))

/-! ### Writing one file -/

/-- Once a file has taken its place, nothing is left where it was written. -/
theorem get?_temporary_of_runs_replace {path : FilePath}
    (h : Runs faults (replace path content).run t (.ok ()) u) :
    ∃ old place, path.temporary.place? = some old ∧ path.place? = some place ∧
      (old ≠ place → u.get? old = none) := by
  rcases Action.runs_change_bind h with ⟨t₁, hcreate, hrest⟩ | ⟨e, he, -⟩
  · rcases Action.runs_change_bind hrest with ⟨t₂, hfill, hmove⟩ | ⟨e, he, -⟩
    · rcases Action.runs_change hmove with ⟨-, hrename⟩ | ⟨e, he, -⟩
      · obtain ⟨old, moved, place, hfind, hlocate, -, rfl⟩ :=
          FileTree.apply_rename_eq_ok hrename
        obtain ⟨hold, hfile, -⟩ := FileTree.find_eq_file_iff.mp hfind
        refine ⟨old, place, FileTree.place?_of_locate hold, FileTree.place?_of_locate hlocate, ?_⟩
        intro hne
        rw [FileTree.get?_set_of_ne hne]
        exact FileTree.get?_erase_self (FileTree.ne_nil_of_file hfile)
      · cases he
    · cases he
  · cases he

/-- **Writing a file changes one file**, if no temporary file was in the way. -/
theorem files_replace {path : FilePath} {temporary : List String} (hpath : path.asDirectory = false)
    (hplace : ∀ place, path.place? = some place → place ∈ d.below names)
    (htemporary : ∀ place, path.temporary.place? = some place → place ∈ d.below temporary)
    (hne : temporary ≠ names) (hclean : d.files t temporary = none)
    (h : Runs faults (replace path content).run t (.ok ()) u) :
    d.files u = Function.update (d.files t) names (some content) := by
  obtain ⟨hspares, hread⟩ : Spares t u (around path) ∧ u.read path = .ok content := by
    rcases runs_replace hpath h with ⟨-, hs, hread⟩ | ⟨⟨e, he, -⟩, -⟩
    · exact ⟨hs, hread⟩
    · cases he
  funext other
  rw [Function.update_apply]
  split
  · rename_i hother
    obtain ⟨place, hlocate, hfile, -⟩ := FileTree.read_eq_ok_iff.mp hread
    rw [hother, files_of_mem (hplace place (FileTree.place?_of_locate hlocate))]
    exact FileTree.content?_eq_some_iff.mpr hfile
  · rename_i hother
    by_cases htemp : other = temporary
    · -- the temporary file was moved
      obtain ⟨old, place, hold, hnew, hgone⟩ := get?_temporary_of_runs_replace h
      have holdMem := htemporary old hold
      have hgone := hgone fun he => not_mem_below hne (he ▸ holdMem) (he ▸ hplace place hnew)
      rw [htemp, hclean, files_of_mem holdMem, FileTree.content?, hgone]
    · apply files_congr
      intro place hmem
      apply hspares.elsewhere
      rintro (hplaceTemp | hplaceNew)
      · exact not_mem_below (Ne.symm htemp) (htemporary place hplaceTemp) hmem
      · exact not_mem_below (Ne.symm hother) (hplace place hplaceNew) hmem

theorem files_writeMap {entries : List Listing}
    (hclean : d.files t ["catalog.json.tmp"] = none)
    (h : Runs faults (d.writeMap entries).run t (.ok ()) u) :
    ∃ updatedAt, d.files u = Function.update (d.files t) ["catalog.json"]
      (some (CatalogMap.toBytes ⟨updatedAt, entries⟩)) := by
  obtain ⟨updatedAt, hreplace⟩ := Action.runs_silent_bind (Program.silent_take _) h
  exact ⟨updatedAt, files_replace (d.path.asDirectory_join isFileName_map)
    (fun _ => mem_below_mapPath) (fun _ => mem_below_mapPath_temporary) (by decide) hclean hreplace⟩

theorem files_writeDataset (hid : '/' ∉ x.id.toList)
    (hclean : d.files t ["datasets", fileName x.id ++ ".tmp"] = none)
    (h : Runs faults (d.writeDataset x).run t (.ok ()) u) :
    ∃ writtenAt, d.files u = Function.update (d.files t) ["datasets", fileName x.id]
      (some (Envelope.ofDataset x writtenAt).toBytes) := by
  obtain ⟨writtenAt, hreplace⟩ := Action.runs_silent_bind (Program.silent_take _) h
  exact ⟨writtenAt, files_replace (d.datasetsPath.asDirectory_join (isFileName_fileName hid))
    (fun _ => mem_below_datasetPath hid) (fun _ => mem_below_datasetPath_temporary hid) (by simp)
    hclean hreplace⟩

theorem files_removeDataset {id : String} {gone : Bool} (hid : '/' ∉ id.toList)
    (h : Runs .never (d.removeDataset id) t gone u) :
    d.files u = Function.update (d.files t) ["datasets", fileName id] none := by
  obtain ⟨result, t', hremove, h⟩ := Program.runs_bind h
  have hu : u = t' := by
    split at h
    all_goals exact (Program.runs_pure h).2
  rw [hu]
  rcases Program.runs_changing hremove with ⟨-, happly⟩ | ⟨e, -, -, hfault⟩
  · obtain ⟨place, old, hfind, rfl⟩ := FileTree.apply_remove_eq_ok happly
    obtain ⟨hlocate, hfile, -⟩ := FileTree.find_eq_file_iff.mp hfind
    have hplace := mem_below_datasetPath hid (FileTree.place?_of_locate hlocate)
    funext other
    rw [Function.update_apply]
    split
    · rename_i hother
      rw [hother, files_of_mem hplace, FileTree.content?,
        FileTree.get?_erase_self (FileTree.ne_nil_of_file hfile)]
    · rename_i hother
      apply files_congr
      intro place' hmem
      apply FileTree.get?_erase_of_ne
      rintro rfl
      exact not_mem_below (Ne.symm hother) hplace hmem
  · exact hfault.elim

/-! ### Storing without failures -/

theorem ok_of_runs_replace {path : FilePath} {result : Except CatalogError Unit}
    (h : Runs .never (replace path content).run t result u) : result = .ok () := by
  rcases Action.runs_change_bind h with ⟨t₁, -, hrest⟩ | ⟨e, -, -, hfault⟩
  · rcases Action.runs_change_bind hrest with ⟨t₂, -, hmove⟩ | ⟨e, -, -, hfault⟩
    · rcases Action.runs_change hmove with ⟨hok, -⟩ | ⟨e, -, -, hfault⟩
      · exact hok
      · exact hfault.elim
    · exact hfault.elim
  · exact hfault.elim

theorem ok_of_runs_writeMap {entries : List Listing} {result : Except CatalogError Unit}
    (h : Runs .never (d.writeMap entries).run t result u) : result = .ok () := by
  obtain ⟨_, hreplace⟩ := Action.runs_silent_bind (Program.silent_take _) h
  exact ok_of_runs_replace hreplace

theorem ok_of_runs_writeDataset {result : Except CatalogError Unit}
    (h : Runs .never (d.writeDataset x).run t result u) : result = .ok () := by
  obtain ⟨_, hreplace⟩ := Action.runs_silent_bind (Program.silent_take _) h
  exact ok_of_runs_replace hreplace

/-- Storing an added dataset writes its file and the map. -/
theorem files_storeAdded {entries : List Listing} {result : Except CatalogError Unit}
    (hid : '/' ∉ x.id.toList)
    (hdataset : d.files t ["datasets", fileName x.id ++ ".tmp"] = none)
    (hmap : d.files t ["catalog.json.tmp"] = none)
    (h : Runs .never (Catalog.storeAdded x entries (some d)).run t result u) :
    result = .ok () ∧ ∃ writtenAt updatedAt, d.files u =
      Function.update (Function.update (d.files t) ["datasets", fileName x.id]
        (some (Envelope.ofDataset x writtenAt).toBytes))
      ["catalog.json"] (some (CatalogMap.toBytes ⟨updatedAt, entries⟩)) := by
  rcases Action.runs_bind h with ⟨_, t', hwrite, hrest⟩ | ⟨e, hwrite, -⟩
  · obtain ⟨writtenAt, hwritten⟩ := files_writeDataset hid hdataset hwrite
    obtain rfl := ok_of_runs_writeMap hrest
    have hclean : d.files t' ["catalog.json.tmp"] = none := by
      rwa [hwritten, Function.update_of_ne (by simp)]
    obtain ⟨updatedAt, hupdated⟩ := files_writeMap hclean hrest
    exact ⟨rfl, writtenAt, updatedAt, hupdated.trans (by rw [hwritten])⟩
  · cases ok_of_runs_writeDataset hwrite

/-- Storing a removal writes the map and removes the file of the dataset. -/
theorem files_storeRemoved {id : String} {entries : List Listing}
    {result : Except CatalogError Unit} (hid : '/' ∉ id.toList)
    (hmap : d.files t ["catalog.json.tmp"] = none)
    (h : Runs .never (Catalog.storeRemoved id entries (some d)).run t result u) :
    result = .ok () ∧ ∃ updatedAt, d.files u =
      Function.update (Function.update (d.files t) ["catalog.json"]
        (some (CatalogMap.toBytes ⟨updatedAt, entries⟩))) ["datasets", fileName id] none := by
  rcases Action.runs_bind h with ⟨_, t', hwrite, hrest⟩ | ⟨e, hwrite, -⟩
  · obtain ⟨updatedAt, hupdated⟩ := files_writeMap hmap hwrite
    obtain ⟨gone, t₂, hremove, hreport⟩ := Action.runs_lift_bind hrest
    obtain ⟨_, hreported, rfl⟩ := Action.runs_lift hreport
    obtain rfl := (silent_reportOrphans _).runs hreported
    exact ⟨rfl, updatedAt, (files_removeDataset hid hremove).trans (by rw [hupdated])⟩
  · cases ok_of_runs_writeMap hwrite

end DataDirectory

/-! ### The canonical form of the files -/

open DataDirectory (fileName idOfFile?)

/-- The files of a registry, by the names that lead to them from the data directory.  There
may be no map yet. -/
def canonicalFiles (r : Registry) (updatedAt : Option String) (writtenAt : String → String) :
    List String → Option ByteArray
  | ["catalog.json"] => updatedAt.map fun time => CatalogMap.toBytes ⟨time, r.listings⟩
  | ["datasets", name] =>
    ((idOfFile? name).bind r.find?).map fun x => (Envelope.ofDataset x (writtenAt x.id)).toBytes
  | _ => none

section CanonicalFiles

variable {updatedAt updatedAt' : Option String} {writtenAt writtenAt' : String → String}

theorem canonicalFiles_dataset (id : String) :
    canonicalFiles r updatedAt writtenAt ["datasets", fileName id] =
      (r.find? id).map fun x => (Envelope.ofDataset x (writtenAt id)).toBytes := by
  show ((idOfFile? (fileName id)).bind r.find?).map _ = _
  rw [DataDirectory.idOfFile?_eq_some_iff.mpr rfl, Option.bind_some]
  rcases hfind : r.find? id with - | x
  · rfl
  · rw [Option.map_some, Option.map_some, (Registry.find?_eq_some_iff.mp hfind).2]

/-- No file of a registry is a temporary one. -/
theorem canonicalFiles_temporary (id : String) :
    canonicalFiles r updatedAt writtenAt ["datasets", fileName id ++ ".tmp"] = none := by
  show ((idOfFile? (fileName id ++ ".tmp")).bind r.find?).map _ = _
  have hnone : idOfFile? (fileName id ++ ".tmp") = none := by
    rw [Option.eq_none_iff_forall_ne_some]
    intro id' hid'
    exact DataDirectory.temporary_ne_fileName id id' (DataDirectory.idOfFile?_eq_some_iff.mp hid')
  rw [hnone]
  rfl

/-- Registries that agree but for one id have the same files, but for the map and one file. -/
theorem canonicalFiles_congr {id : String} (hmap : names ≠ ["catalog.json"])
    (hdataset : names ≠ ["datasets", fileName id])
    (hfind : ∀ id' ≠ id, r'.find? id' = r.find? id')
    (hwritten : ∀ id' ≠ id, writtenAt' id' = writtenAt id') :
    canonicalFiles r' updatedAt' writtenAt' names = canonicalFiles r updatedAt writtenAt names := by
  unfold canonicalFiles
  split
  · exact absurd rfl hmap
  · rename_i name
    rcases hid : idOfFile? name with - | id'
    · rfl
    · have hne : id' ≠ id := by
        rintro rfl
        exact hdataset (by rw [DataDirectory.idOfFile?_eq_some_iff.mp hid])
      rw [Option.bind_some, Option.bind_some, hfind id' hne]
      rcases hx : r.find? id' with - | x
      · rfl
      · have hxid : x.id = id' := (Registry.find?_eq_some_iff.mp hx).2
        rw [Option.map_some, Option.map_some, hxid, hwritten id' hne]
  · rfl

/-- The files after a dataset was added. -/
theorem canonicalFiles_insert {files : List String → Option ByteArray} {time written : String}
    (h : ∀ names ≠ [], files names = canonicalFiles r updatedAt writtenAt names) :
    ∀ names ≠ [],
      Function.update (Function.update files ["datasets", fileName x.id]
          (some (Envelope.ofDataset x written).toBytes))
        ["catalog.json"] (some (CatalogMap.toBytes ⟨time, (r.insert x).listings⟩)) names =
      canonicalFiles (r.insert x) (some time) (Function.update writtenAt x.id written) names := by
  intro names hnames
  by_cases hmap : names = ["catalog.json"]
  · rw [hmap, Function.update_self]
    rfl
  · rw [Function.update_of_ne hmap]
    by_cases hdataset : names = ["datasets", fileName x.id]
    · rw [hdataset, Function.update_self, canonicalFiles_dataset, Registry.find?_insert,
        if_pos rfl, Option.map_some, Function.update_self]
    · rw [Function.update_of_ne hdataset, h names hnames]
      refine (canonicalFiles_congr hmap hdataset (fun id' hne => ?_) fun id' hne => ?_).symm
      · rw [Registry.find?_insert, if_neg hne]
      · rw [Function.update_of_ne hne]

/-- The files after a dataset was removed. -/
theorem canonicalFiles_erase {files : List String → Option ByteArray} {id time : String}
    (h : ∀ names ≠ [], files names = canonicalFiles r updatedAt writtenAt names) :
    ∀ names ≠ [],
      Function.update (Function.update files ["catalog.json"]
          (some (CatalogMap.toBytes ⟨time, (r.erase id).listings⟩)))
        ["datasets", fileName id] none names =
      canonicalFiles (r.erase id) (some time) writtenAt names := by
  intro names hnames
  by_cases hdataset : names = ["datasets", fileName id]
  · rw [hdataset, Function.update_self, canonicalFiles_dataset, Registry.find?_erase, if_pos rfl]
    rfl
  · rw [Function.update_of_ne hdataset]
    by_cases hmap : names = ["catalog.json"]
    · rw [hmap, Function.update_self]
      rfl
    · rw [Function.update_of_ne hmap, h names hnames]
      refine (canonicalFiles_congr hmap hdataset (fun id' hne => ?_) fun _ _ => rfl).symm
      rw [Registry.find?_erase, if_neg hne]

end CanonicalFiles

/-! ### Runs without failures -/

namespace Edit

variable {e : Edit} {result : Except CatalogError (List String)}
variable {updatedAt : Option String} {writtenAt : String → String}

/-- **Without failures** a call is refused, and the catalog and the files are as before; or it
succeeds, and the files are those of the registry that it leads to. -/
theorem runs_perform_never (hdirectory : c.directory = some d)
    (hfiles : ∀ names ≠ [], d.files t names =
      canonicalFiles c.registry updatedAt writtenAt names)
    (h : Runs .never (e.perform c) t (result, c') u) :
    (∃ failure, result = .error failure ∧ e.outcome c.registry = .error failure ∧ c' = c ∧
        u = t) ∨
      ∃ ids, result = .ok ids ∧ c'.directory = some d ∧ ∃ time writtenAt', ∀ names ≠ [],
        d.files u names = canonicalFiles c'.registry (some time) writtenAt' names := by
  have hmap : d.files t ["catalog.json.tmp"] = none := hfiles _ (by simp)
  rcases e with ⟨id, kind, records⟩ | id
  · rcases Catalog.runs_add h with ⟨e, hcheck, rfl, rfl, rfl⟩ | ⟨x, stored, hcheck, hstore, hend⟩
    · exact .inl ⟨e, rfl, outcome_add_error hcheck, rfl, rfl⟩
    · obtain ⟨rfl, hvalid, -⟩ := Catalog.checkAddition_eq_ok hcheck
      have hdataset : d.files t ["datasets", fileName x.id ++ ".tmp"] = none := by
        rw [hfiles _ (by simp), canonicalFiles_temporary]
      rw [hdirectory] at hstore
      obtain ⟨rfl, written, time, hstored⟩ := DataDirectory.files_storeAdded
        (DataDirectory.noSlash_of_isDatasetId hvalid) hdataset hmap hstore
      rcases hend with ⟨_, he, -⟩ | ⟨-, rfl, rfl⟩
      · cases he
      · refine .inr ⟨_, rfl, hdirectory, time, Function.update writtenAt x.id written,
          fun names hnames => ?_⟩
        rw [hstored]
        exact canonicalFiles_insert hfiles names hnames
  · obtain ⟨removed, hremove, rfl⟩ := runs_perform_remove h
    rcases Catalog.runs_remove hremove with ⟨e, hcheck, rfl, rfl, rfl⟩ |
      ⟨hcheck, stored, hstore, hend⟩
    · exact .inl ⟨e, rfl, outcome_remove_error hcheck, rfl, rfl⟩
    · obtain ⟨hvalid, -⟩ := Catalog.checkRemoval_eq_ok hcheck
      rw [hdirectory] at hstore
      obtain ⟨rfl, time, hstored⟩ := DataDirectory.files_storeRemoved
        (DataDirectory.noSlash_of_isDatasetId hvalid) hmap hstore
      rcases hend with ⟨_, he, -⟩ | ⟨-, rfl, rfl⟩
      · cases he
      · refine .inr ⟨_, rfl, hdirectory, time, writtenAt, fun names hnames => ?_⟩
        rw [hstored]
        exact canonicalFiles_erase hfiles names hnames

end Edit

/-- The catalog and the files after calls, which are listed with their answers.  The catalog was
opened on an empty directory, and no access fails. -/
inductive EditRun [FloatReader] (d : DataDirectory) :
    List (Edit × Except CatalogError (List String)) → Catalog → FileTree → Prop
  | opened {start t : FileTree} {c : Catalog} (hempty : d.IsEmpty start)
      (h : Runs .never (Catalog.openAt d).run start (.ok c) t) : EditRun d [] c t
  | called {history : List (Edit × Except CatalogError (List String))} {c c' : Catalog}
      {t u : FileTree} {e : Edit} {answer : Except CatalogError (List String)}
      (hrun : EditRun d history c t) (h : Runs .never (e.perform c) t (answer, c') u) :
      EditRun d (history ++ [(e, answer)]) c' u

namespace EditRun

variable {history : List (Edit × Except CatalogError (List String))} {e : Edit}
variable {result : Except CatalogError (List String)}

section Runs

variable [FloatReader]

/-- What is opened on an empty directory is empty, and so is the directory. -/
theorem of_opened (hempty : d.IsEmpty t) (h : Runs faults (Catalog.openAt d).run t (.ok c) u) :
    c.directory = some d ∧ c.registry = .empty ∧ ∀ names ≠ [], d.files u names = none := by
  obtain ⟨hnone, hopened⟩ := DataDirectory.runs_openAt_listed h
  obtain ⟨hdirectory, t', entries, hmade, hlists, hentries⟩ := hopened c rfl
  have hgone : ∀ names ≠ [], d.files t names = none := by
    intro names hnames
    rw [Option.eq_none_iff_forall_ne_some]
    intro content hcontent
    obtain ⟨home, hhome, hfile⟩ := Option.bind_eq_some_iff.mp hcontent
    rw [FileTree.content?_eq_some_iff, hempty names hnames _ ⟨home, hhome, rfl⟩] at hfile
    cases hfile
  have hnil : entries = [] := by
    rcases hlists with ⟨-, hnil⟩ | ⟨content, m, hread, -⟩
    · exact hnil
    · -- there is no map that could be read
      obtain ⟨place, hlocate, hfile, -⟩ := FileTree.read_eq_ok_iff.mp hread
      have hmem := DataDirectory.mem_below_mapPath (FileTree.place?_of_locate hlocate)
      cases (hempty _ (by simp) place hmem).symm.trans (hmade place content hfile)
  refine ⟨hdirectory, Registry.eq_of_find? fun id => ?_, fun names hnames => ?_⟩
  · have hdatasets : c.registry.datasets = [] := by
      rw [List.eq_nil_iff_forall_not_mem]
      intro x hx
      rw [hnil] at hentries
      cases hentries x hx
    rw [Registry.find?, hdatasets]
    rfl
  · exact DataDirectory.files_of_noNewFiles hnone (hgone names hnames)

/-- **After every run** the files are those of the registry.  There is a map just if a call
succeeded. -/
theorem files (h : EditRun d history c t) : c.directory = some d ∧
    ∃ updatedAt writtenAt,
      (updatedAt = none ↔ ∀ x ∈ history, ∃ failure, x.2 = .error failure) ∧
      ∀ names ≠ [], d.files t names = canonicalFiles c.registry updatedAt writtenAt names := by
  induction h with
  | opened hempty hopened =>
    obtain ⟨hdirectory, hregistry, hfiles⟩ := of_opened hempty hopened
    refine ⟨hdirectory, none, fun _ => "", by simp, fun names hnames => ?_⟩
    rw [hfiles names hnames, hregistry]
    unfold canonicalFiles
    split
    · rfl
    · rename_i name
      rcases idOfFile? name with - | id
      · rfl
      · rfl
    · rfl
  | @called history c c' t u e _ _ hcall ih =>
    obtain ⟨hdirectory, updatedAt, writtenAt, hnone, hfiles⟩ := ih
    rcases Edit.runs_perform_never hdirectory hfiles hcall with
      ⟨failure, rfl, -, rfl, rfl⟩ | ⟨ids, rfl, hdirectory', time, writtenAt', hfiles'⟩
    · refine ⟨hdirectory, updatedAt, writtenAt, ?_, hfiles⟩
      rw [hnone, List.forall_mem_append]
      exact ⟨fun hall => ⟨hall, by simp⟩, And.left⟩
    · refine ⟨hdirectory', some time, writtenAt', ⟨nofun, fun hall => ?_⟩, hfiles'⟩
      obtain ⟨failure, he⟩ := hall (e, .ok ids) (by simp)
      cases he

/-- A further call leads to its outcome and answers with it. -/
theorem outcome (h : EditRun d history c t) (hrun : Runs .never (e.perform c) t (result, c') u) :
    result = (e.outcome c.registry).map e.reply ∧
      (e.outcome c.registry = .ok c'.registry ∨
        ∃ failure, e.outcome c.registry = .error failure ∧ c' = c) := by
  obtain ⟨hdirectory, updatedAt, writtenAt, -, hfiles⟩ := h.files
  rcases Edit.runs_perform_never hdirectory hfiles hrun with
    ⟨failure, rfl, houtcome, hsame, -⟩ | ⟨ids, rfl, -⟩
  · rw [houtcome]
    exact ⟨rfl, .inr ⟨failure, rfl, hsame⟩⟩
  · obtain ⟨houtcome, rfl, -⟩ := Edit.runs_perform_ok hrun
    rw [houtcome]
    exact ⟨rfl, .inl rfl⟩

/-- The last call of a run. -/
theorem of_append_singleton (h : EditRun d (history ++ [(e, result)]) c u) :
    ∃ before t, EditRun d history before t ∧ Runs .never (e.perform before) t (result, c) u := by
  generalize hlist : history ++ [(e, result)] = calls at h
  cases h with
  | opened => simp at hlist
  | called hrun hcall =>
    obtain ⟨rfl, hlast⟩ := List.append_inj' hlist rfl
    cases hlast
    exact ⟨_, _, hrun, hcall⟩

/-- As long as later calls fail, what is registered is what the last addition answered. -/
theorem ids_of_all_refused {id : String} {kind : Kind} {records : List Record} {ids : List String}
    {before after : List (Edit × Except CatalogError (List String))}
    (h : EditRun d (before ++ (.add id kind records, .ok ids) :: after) c t)
    (hafter : ∀ x ∈ after, ∃ failure, x.2 = .error failure) : ids = c.registry.ids := by
  induction after using List.reverseRecOn generalizing c t with
  | nil =>
    obtain ⟨previous, t', hrun, hcall⟩ := of_append_singleton h
    exact (Edit.runs_perform_ok hcall).2.1
  | append_singleton after last ih =>
    rw [← List.cons_append, ← List.append_assoc] at h
    obtain ⟨failure, hfailure⟩ := hafter last (by simp)
    obtain ⟨previous, t', hrun, hcall⟩ := of_append_singleton (e := last.1) h
    rw [hfailure] at hcall
    rw [(Edit.runs_perform_error hcall).1]
    exact ih hrun fun x hx => hafter x (List.mem_append_left _ hx)

/-- **The catalog has a canonical form.**  Two runs that end with the same datasets list the same
entries, give the same answer to a further call and list the same ids after it, and leave the same
files but for the times of writing; there is a map just if a call succeeded.  The ids that are
listed increase by their bytes, in whatever order the datasets are met, and they are those that
the last addition returned, if no call succeeded after it. -/
theorem canonical {d₁ d₂ : DataDirectory}
    {history₁ history₂ : List (Edit × Except CatalogError (List String))} {c₁ c₂ : Catalog}
    {t₁ t₂ : FileTree} (h₁ : EditRun d₁ history₁ c₁ t₁) (h₂ : EditRun d₂ history₂ c₂ t₂)
    (hsame : c₁.registry.contents = c₂.registry.contents) :
    c₁.registry.listings = c₂.registry.listings ∧
    (∀ e answer₁ answer₂ c₁' c₂' u₁ u₂, Runs .never (Edit.perform c₁ e) t₁ (answer₁, c₁') u₁ →
      Runs .never (Edit.perform c₂ e) t₂ (answer₂, c₂') u₂ →
      answer₁ = answer₂ ∧ c₁'.registry.ids = c₂'.registry.ids) ∧
    (∃ updated₁ updated₂ written₁ written₂,
      (updated₁ = none ↔ ∀ x ∈ history₁, ∃ failure, x.2 = .error failure) ∧
      (updated₂ = none ↔ ∀ x ∈ history₂, ∃ failure, x.2 = .error failure) ∧
      (∀ names ≠ [],
        d₁.files t₁ names = canonicalFiles c₁.registry updated₁ written₁ names) ∧
      ∀ names ≠ [],
        d₂.files t₂ names = canonicalFiles c₁.registry updated₂ written₂ names) ∧
    (c₁.registry.ids.Pairwise fun a b => Text.bytes a < Text.bytes b) ∧
    c₁.registry.listings.map Listing.id = c₁.registry.ids ∧
    (∀ l : List Dataset, l.Perm c₁.registry.datasets →
      Listing.inOrder (l.map Dataset.listing) = c₁.registry.listings ∧
      (l.map Dataset.id).mergeSort (fun a b => a ≤ b) = c₁.registry.ids ∧
      (∀ x, c₁.registry.contains x.id = false →
        Listing.inOrder (l.map Dataset.listing ++ [x.listing]) = (c₁.registry.insert x).listings) ∧
      ∀ id, Listing.inOrder ((l.filter (·.id != id)).map Dataset.listing) =
        (c₁.registry.erase id).listings) ∧
    ∀ before id kind records ids after,
      history₁ = before ++ (.add id kind records, .ok ids) :: after →
      (∀ x ∈ after, ∃ failure, x.2 = .error failure) → ids = c₁.registry.ids := by
  have hregistry : c₁.registry = c₂.registry := Registry.contents_inj.mp hsame
  refine ⟨by rw [hregistry], ?_, ?_, ?_, ?_, fun l hl => Registry.inOrder_of_perm hl, ?_⟩
  · intro e answer₁ answer₂ c₁' c₂' u₁ u₂ hrun₁ hrun₂
    obtain ⟨hanswer₁, houtcome₁⟩ := h₁.outcome hrun₁
    obtain ⟨hanswer₂, houtcome₂⟩ := h₂.outcome hrun₂
    rw [← hregistry] at hanswer₂ houtcome₂
    refine ⟨hanswer₁.trans hanswer₂.symm, congrArg Registry.ids ?_⟩
    rcases houtcome₁ with hok₁ | ⟨_, herror₁, rfl⟩
    · rcases houtcome₂ with hok₂ | ⟨_, herror₂, -⟩
      · exact Except.ok.inj (hok₁.symm.trans hok₂)
      · cases hok₁.symm.trans herror₂
    · rcases houtcome₂ with hok₂ | ⟨_, -, rfl⟩
      · cases herror₁.symm.trans hok₂
      · exact hregistry
  · obtain ⟨-, updated₁, written₁, hmap₁, hfiles₁⟩ := h₁.files
    obtain ⟨-, updated₂, written₂, hmap₂, hfiles₂⟩ := h₂.files
    exact ⟨updated₁, updated₂, written₁, written₂, hmap₁, hmap₂, hfiles₁, hregistry ▸ hfiles₂⟩
  · exact c₁.registry.increasing_ids.imp Text.bytes_lt
  · rw [Registry.listings_eq, Registry.ids_eq, List.map_map]
    rfl
  · rintro before id kind records ids after rfl hafter
    exact h₁.ids_of_all_refused hafter

end Runs

/-! ### Sample runs -/

section Sample

open Session (sampleDirectory sampleWorld sampleCatalog sampleOpened sampleEdit sampleAdded
  sampleStore sampleStored)

attribute [local instance] FloatReader.nearest

theorem sample_opened : EditRun sampleDirectory [] sampleCatalog sampleOpened.files := by
  have hrun := Program.runs_of_succeeds (p := (Catalog.openAt sampleDirectory).run)
    (w := sampleWorld) (by decide +kernel)
  rw [Session.sample_opens.1] at hrun
  exact .opened Session.isEmpty_sample hrun

theorem sample_added :
    EditRun sampleDirectory [(sampleEdit, .ok ["rooms"])] sampleAdded sampleStored.files := by
  have hsucceeds : (sampleEdit.perform sampleCatalog).succeeds sampleOpened = true := by
    rw [sampleEdit, Edit.perform, Catalog.add, sampleCatalog, Session.checkAddition_sample]
    decide +kernel
  have hrun := Program.runs_of_succeeds hsucceeds
  rw [Session.run_sampleEdit] at hrun
  exact .called sample_opened hrun

/-- The catalog after the room was removed again. -/
def sampleRemoved : Catalog :=
  ⟨sampleAdded.registry.erase "rooms", some sampleDirectory, sampleAdded.metrics.countRemoved⟩

/-- The world after that. -/
def sampleEmptied : World := (((Edit.remove "rooms").perform sampleAdded).run sampleStored).2

theorem sample_removed : EditRun sampleDirectory
    [(sampleEdit, .ok ["rooms"]), (.remove "rooms", .ok ["rooms"])] sampleRemoved
    sampleEmptied.files := by
  have hsucceeds : ((Edit.remove "rooms").perform sampleAdded).succeeds sampleStored = true := by
    rw [sampleStored, sampleEdit, Edit.perform, Catalog.add, sampleCatalog,
      Session.checkAddition_sample]
    decide +kernel
  have hrun := Program.runs_of_succeeds hsucceeds
  obtain ⟨hanswer, -⟩ := sample_added.outcome hrun
  have hresult : (((Edit.remove "rooms").perform sampleAdded).run sampleStored).1 =
      (.ok ["rooms"], sampleRemoved) := by
    obtain ⟨removed, hremove, hremoved⟩ := Edit.runs_perform_remove hrun
    refine Prod.ext hanswer ?_
    rcases Catalog.runs_remove hremove with ⟨_, -, rfl, -⟩ |
      ⟨-, stored, -, ⟨_, -, rfl, -⟩ | ⟨-, -, hafter⟩⟩
    · cases hanswer.symm.trans hremoved
    · cases hanswer.symm.trans hremoved
    · exact hafter
  rw [hresult] at hrun
  exact .called sample_added hrun

theorem registry_sampleRemoved : sampleRemoved.registry = .empty := by
  refine Registry.eq_of_find? fun id => ?_
  show (sampleAdded.registry.erase "rooms").find? id = none
  rw [Registry.find?_erase]
  split
  · rfl
  · rename_i hne
    show (Registry.empty.insert ⟨"rooms", sampleStore⟩).find? id = none
    rw [Registry.find?_insert, if_neg hne]
    rfl

/-- **Two forms of the empty catalog.**  Before the first call there is no map, and after a dataset
was added and removed there is one; and what was returned last by an addition is not what is
listed after a removal. -/
theorem map_tells_history :
    EditRun sampleDirectory [] sampleCatalog sampleOpened.files ∧
    EditRun sampleDirectory
      [(sampleEdit, .ok ["rooms"]), (.remove "rooms", .ok ["rooms"])] sampleRemoved
      sampleEmptied.files ∧
    sampleCatalog.registry.contents = sampleRemoved.registry.contents ∧
    sampleDirectory.files sampleOpened.files ["catalog.json"] = none ∧
    sampleDirectory.files sampleEmptied.files ["catalog.json"] ≠ none ∧
    sampleRemoved.registry.ids ≠ ["rooms"] := by
  refine ⟨sample_opened, sample_removed, ?_, ?_, ?_, ?_⟩
  · rw [registry_sampleRemoved]
    rfl
  · obtain ⟨-, updatedAt, writtenAt, hmap, hfiles⟩ := sample_opened.files
    rw [hfiles _ (by simp), hmap.mpr (by simp)]
    rfl
  · obtain ⟨-, updatedAt, writtenAt, hmap, hfiles⟩ := sample_removed.files
    rw [hfiles _ (by simp)]
    rcases updatedAt with - | time
    · obtain ⟨failure, he⟩ := hmap.mp rfl (sampleEdit, .ok ["rooms"]) (by simp)
      cases he
    · exact nofun
  · rw [registry_sampleRemoved, Registry.ids_eq]
    decide

/-- The room is added, removed and added once more. -/
theorem sample_restored : ∃ restored t, EditRun sampleDirectory
    [(sampleEdit, .ok ["rooms"]), (.remove "rooms", .ok ["rooms"]),
      (sampleEdit, .ok ["rooms"])] restored t ∧
    restored.registry.contents = sampleAdded.registry.contents := by
  have hsucceeds : (sampleEdit.perform sampleRemoved).succeeds sampleEmptied = true := by
    simp only [sampleEmptied, sampleStored, sampleEdit, Edit.perform, Catalog.add,
      registry_sampleRemoved, sampleCatalog, Session.checkAddition_sample]
    decide +kernel
  have hrun := Program.runs_of_succeeds hsucceeds
  obtain ⟨hdirectory, _, _, -, hfiles⟩ := sample_removed.files
  rcases Edit.runs_perform_never hdirectory hfiles hrun with ⟨_, -, hrefused, -⟩ | ⟨ids, he, -⟩
  · rw [registry_sampleRemoved, sampleEdit,
      Edit.outcome_add_ok Session.checkAddition_sample] at hrefused
    cases hrefused
  · obtain ⟨rfl, hrestored⟩ := Session.result_sampleEdit registry_sampleRemoved (Prod.ext he rfl)
    have hrun' := EditRun.called sample_removed hrun
    rw [he] at hrun'
    exact ⟨_, _, hrun', congrArg (fun c => c.registry.contents) hrestored⟩

theorem canonical_sample : ∃ restored t, EditRun sampleDirectory
      [(sampleEdit, .ok ["rooms"])] sampleAdded sampleStored.files ∧
    EditRun sampleDirectory
      [(sampleEdit, .ok ["rooms"]), (.remove "rooms", .ok ["rooms"]),
        (sampleEdit, .ok ["rooms"])] restored t ∧
    sampleAdded.registry.contents = restored.registry.contents ∧
    sampleAdded.registry.listings = restored.registry.listings ∧
    ∃ updated₁ updated₂ written₁ written₂,
      (∀ names ≠ [], sampleDirectory.files sampleStored.files names =
        canonicalFiles sampleAdded.registry (some updated₁) written₁ names) ∧
      ∀ names ≠ [], sampleDirectory.files t names =
        canonicalFiles sampleAdded.registry (some updated₂) written₂ names := by
  obtain ⟨restored, t, hrun, hsame⟩ := sample_restored
  obtain ⟨hlistings, -, hforms, -⟩ := canonical sample_added hrun hsame.symm
  obtain ⟨updated₁, updated₂, written₁, written₂, hmap₁, hmap₂, hfiles₁, hfiles₂⟩ := hforms
  -- in both runs a call succeeded, so there is a map in both
  rcases updated₁ with - | updated₁
  · obtain ⟨failure, he⟩ := hmap₁.mp rfl (sampleEdit, .ok ["rooms"]) (by simp)
    cases he
  · rcases updated₂ with - | updated₂
    · obtain ⟨failure, he⟩ := hmap₂.mp rfl (sampleEdit, .ok ["rooms"]) (by simp)
      cases he
    · exact ⟨restored, t, sample_added, hrun, hsame.symm, hlistings, updated₁, updated₂, written₁,
        written₂, hfiles₁, hfiles₂⟩

end Sample

end EditRun

end CampusQuery
