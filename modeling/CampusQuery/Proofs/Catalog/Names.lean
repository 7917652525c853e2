/-
CampusQuery/Proofs/Catalog/Names.lean

The names of the files of datasets.

The temporary name of a file is its name with another extension (`withExtension_append`), and this
only appends to it.  So the names of all files are known as lists of segments below the data
directory (`Leads`), and paths with different lists never lead to one place.  Which ids the sweep
takes a file for is decided by the end of the name, and a temporary name has another end; so a sweep
leaves the files of listed datasets and all temporary files alone (`paths_apart`).
-/
import CampusQuery.Proofs.Catalog.Opened
import CampusQuery.Proofs.Catalog.Sweep

namespace CampusQuery

open Program (Runs)
open FileTree (Spares)

variable {faults : Faults} {t u : FileTree} {d : DataDirectory} {p q : FilePath} {place : Place}
variable {a b id name : String} {ids listed names names' : List String}

/-! ### Extensions -/

namespace FilePath

/-- A name without its extension, which is what follows its last dot.  A dot that is its first
character starts no extension. -/
def stem (name : String) : String :=
  match (name.toList.reverse.dropWhile (· != '.')).tail with
  | [] => name
  | before => String.ofList before.reverse

/-- A name with another extension. -/
def withExtension (name extension : String) : String := stem name ++ "." ++ extension

theorem stem_append {base extension : String} (hbase : base ≠ "")
    (hdot : '.' ∉ extension.toList) : stem (base ++ "." ++ extension) = base := by
  -- from the end, the first dot is the one before the extension
  have hdrop : ((base ++ "." ++ extension).toList.reverse.dropWhile (· != '.')).tail =
      base.toList.reverse := by
    rw [String.toList_append, String.toList_append, List.reverse_append, List.reverse_append,
      List.dropWhile_append_of_pos]
    · rfl
    · intro c hc
      simpa using fun he : c = '.' => hdot (he ▸ List.mem_reverse.mp hc)
  unfold stem
  rw [hdrop]
  split
  · rename_i hnil
    rw [List.reverse_eq_nil_iff, String.toList_eq_nil_iff] at hnil
    exact absurd hnil hbase
  · rw [List.reverse_reverse, String.ofList_toList]

theorem withExtension_append {base extension : String} (other : String) (hbase : base ≠ "")
    (hdot : '.' ∉ extension.toList) :
    withExtension (base ++ "." ++ extension) other = base ++ "." ++ other := by
  rw [withExtension, stem_append hbase hdot]

/-! ### Paths that are apart -/

/-- The paths differ, and they never lead to one place. -/
structure Apart (p q : FilePath) : Prop where
  steps_ne : p.steps ≠ q.steps
  place_ne : ∀ place, p.place? = some place → q.place? ≠ some place

/-- The path is that of a file in the directory. -/
structure IsChild (directory : FilePath) (name : String) (p : FilePath) : Prop where
  isFileName : IsFileName name
  path : p = directory.join name
  steps : p.steps = directory.steps ++ [name]

theorem isChild_join (directory : FilePath) (h : IsFileName name) :
    IsChild directory name (directory.join name) :=
  ⟨h, rfl, directory.steps_join h⟩

/-- No temporary path has the ending of a dataset file. -/
theorem not_json_temporary (p : FilePath) :
    ¬ ".json".toList <:+ p.temporary.text.toList := by
  intro h
  have hending : ".tmp".toList <:+ p.temporary.text.toList := by
    rw [temporary, String.toList_append]
    exact List.suffix_append _ _
  -- of two endings, the shorter one is an ending of the longer one
  exact absurd (List.suffix_of_suffix_length_le hending h (by decide)) (by decide)

end FilePath

namespace DataDirectory

open FilePath (Apart IsChild withExtension)

/-! ### Names -/

theorem ne_empty_of_isDatasetId (h : isDatasetId id = true) : id ≠ "" := by
  rintro rfl
  revert h
  decide

theorem withExtension_fileName (hid : id ≠ "") :
    withExtension (fileName id) "json.tmp" = fileName id ++ ".tmp" := by
  have hname : fileName id = id ++ "." ++ "json" := by
    rw [fileName, String.append_assoc]
    rfl
  rw [hname, FilePath.withExtension_append _ hid (by decide), @String.append_assoc _ "json"]
  rfl

theorem idOfFile?_temporary (name : String) : idOfFile? (name ++ ".tmp") = none := by
  refine Option.eq_none_iff_forall_ne_some.mpr fun id hid => ?_
  have hname := idOfFile?_eq_some_iff.mp hid
  refine FilePath.not_json_temporary ⟨name⟩ ⟨id.toList, ?_⟩
  rw [FilePath.temporary, hname, fileName, String.toList_append]

/-- What the files of a dataset are called: the temporary file has another extension, and of the
two names only that of the dataset is one from which the id is read off. -/
structure IsNamed (d : DataDirectory) (id : String) : Prop where
  path : IsChild d.datasetsPath (fileName id) (d.datasetPath id)
  temporary :
    IsChild d.datasetsPath (withExtension (fileName id) "json.tmp") (d.datasetPath id).temporary
  idOfFile : idOfFile? (fileName id) = some id
  idOfTemporary : idOfFile? (withExtension (fileName id) "json.tmp") = none

theorem isNamed (d : DataDirectory) (h : isDatasetId id = true) : d.IsNamed id := by
  have hname := isFileName_fileName (noSlash_of_isDatasetId h)
  have hextension := withExtension_fileName (ne_empty_of_isDatasetId h)
  refine ⟨FilePath.isChild_join _ hname, ?_, idOfFile?_eq_some_iff.mpr rfl, ?_⟩
  · rw [datasetPath, FilePath.temporary_join _ hname.noSlash, hextension]
    exact FilePath.isChild_join _ (isFileName_temporary hname.noSlash)
  · rw [hextension]
    exact idOfFile?_temporary _

/-! ### Different paths -/

/-- The path goes on from the data directory with the names. -/
structure Leads (d : DataDirectory) (p : FilePath) (names : List String) : Prop where
  steps : p.steps = d.path.steps ++ names
  below : ∀ place, p.place? = some place → place ∈ d.below names

theorem Leads.apart (hp : d.Leads p names) (hq : d.Leads q names') (hne : names ≠ names') :
    p.Apart q where
  steps_ne h := by
    rw [hp.steps, hq.steps] at h
    exact hne (List.append_cancel_left h)
  place_ne place hplace hplace' :=
    not_mem_below hne (hp.below place hplace) (hq.below place hplace')

theorem leads_mapPath : d.Leads d.mapPath ["catalog.json"] :=
  ⟨d.path.steps_join isFileName_map, fun _ => mem_below_mapPath⟩

theorem leads_mapPath_temporary : d.Leads d.mapPath.temporary ["catalog.json.tmp"] := by
  refine ⟨?_, fun _ => mem_below_mapPath_temporary⟩
  rw [mapPath, FilePath.temporary_join _ isFileName_map.noSlash]
  exact d.path.steps_join (isFileName_temporary isFileName_map.noSlash)

theorem leads_child (h : IsChild d.datasetsPath name p) : d.Leads p ["datasets", name] where
  steps := by
    rw [h.steps, datasetsPath, FilePath.steps_join _ isFileName_datasets, List.append_assoc]
    rfl
  below place hplace := by
    rw [h.path] at hplace
    exact mem_below_join h.isFileName hplace

/-- Paths that lead on with different names are apart. -/
theorem pairwise_apart {paths : List FilePath} {routes : List (List String)}
    (h : List.Forall₂ d.Leads paths routes) (hnodup : routes.Nodup) :
    paths.Pairwise Apart := by
  induction h with
  | nil => exact .nil
  | @cons p names paths routes hp hrest ih =>
    obtain ⟨hnew, hnodup⟩ := List.nodup_cons.mp hnodup
    refine List.pairwise_cons.mpr ⟨fun q hq => ?_, ih hnodup⟩
    obtain ⟨i, hi, rfl⟩ := List.getElem_of_mem hq
    have hleads := hrest.get hi (hrest.length_eq ▸ hi)
    refine hp.apart hleads ?_
    rintro rfl
    exact hnew (List.getElem_mem _)

/-! ### What a sweep leaves alone -/

/-- Nothing changes at the path while orphans are removed, whatever the storage does. -/
def SweepSpares (d : DataDirectory) (listed : List String) (p : FilePath) : Prop :=
  ∀ faults t u result, d.ProperNames t → Runs faults (d.sweep listed).run t result u →
    ∀ place, p.place? = some place → u.get? place = t.get? place

theorem runs_removeAll_spares {stuck : List String} (hids : ∀ id ∈ ids, '/' ∉ id.toList)
    (h : Runs faults (d.removeAll ids) t stuck u) :
    Spares t u {place | ∃ id ∈ ids, place ∈ d.below ["datasets", fileName id]} := by
  induction ids generalizing t stuck with
  | nil =>
    obtain ⟨-, rfl⟩ := Program.runs_pure h
    exact .refl _ _
  | cons id ids ih =>
    obtain ⟨hid, hids⟩ := List.forall_mem_cons.mp hids
    obtain ⟨gone, t₁, hremove, h⟩ := Program.runs_bind h
    obtain ⟨others, t₂, hrest, h⟩ := Program.runs_bind h
    obtain ⟨-, rfl⟩ := Program.runs_pure h
    have hfirst := stops_removeDataset_below hid hremove.stops
    refine (hfirst.mono fun place hplace => ?_).trans ((ih hids hrest).mono ?_)
    · exact ⟨id, List.mem_cons_self, hplace⟩
    · rintro place ⟨id', hid', hplace⟩
      exact ⟨id', List.mem_cons_of_mem _ hid', hplace⟩

/-- A sweep touches the files of datasets that are not listed, and nothing else. -/
theorem runs_sweep_spares {result : Except CatalogError (List String)}
    (hnames : d.ProperNames t) (h : Runs faults (d.sweep listed).run t result u) :
    Spares t u {place | ∃ id ∉ listed, place ∈ d.below ["datasets", fileName id]} := by
  rcases runs_sweep_cases h with ⟨e, -, rfl, -⟩ | ⟨found, stuck, hmeets, hremove, -⟩
  · exact .refl _ _
  · obtain ⟨names, hlist, hprefix⟩ := hmeets.exists_prefix
    obtain ⟨home, hlocate, rfl⟩ := FileTree.list_eq_ok hlist
    have hids : ∀ id ∈ orphans listed found.texts, '/' ∉ id.toList :=
      fun id => hnames.noSlash_of_mem_orphans hlocate hprefix.subset
    refine (runs_removeAll_spares hids hremove).mono ?_
    rintro place ⟨id, hid, hplace⟩
    exact ⟨id, (mem_orphans_iff.mp hid).2, hplace⟩

theorem sweepSpares_of_leads (hp : d.Leads p names)
    (hne : ∀ id ∉ listed, names ≠ ["datasets", fileName id]) : d.SweepSpares listed p := by
  intro faults t u result hnames h place hplace
  refine (runs_sweep_spares hnames h).elsewhere place ?_
  rintro ⟨id, hid, hmem⟩
  exact not_mem_below (hne id hid) (hp.below place hplace) hmem

theorem sweepSpares_datasetPath (hid : isDatasetId id = true) (hlisted : id ∈ listed) :
    d.SweepSpares listed (d.datasetPath id) := by
  refine sweepSpares_of_leads (leads_child (d.isNamed hid).path) fun other hother he => ?_
  obtain rfl : id = other := fileName_inj.mp (by simpa using he)
  exact hother hlisted

theorem sweepSpares_temporary (hid : isDatasetId id = true) :
    d.SweepSpares listed (d.datasetPath id).temporary := by
  refine sweepSpares_of_leads (leads_child (d.isNamed hid).temporary) fun other _ he => ?_
  rw [withExtension_fileName (ne_empty_of_isDatasetId hid)] at he
  exact temporary_ne_fileName id other (by simpa using he)

/-- **The files of datasets are apart** from each other, from the map and from all temporary files;
all are named in the directory of the datasets.  A sweep takes the file of a listed dataset for its
own, and a temporary file for none, so it leaves both alone. -/
theorem paths_apart (d : DataDirectory) (ha : isDatasetId a = true) (hb : isDatasetId b = true)
    (hne : a ≠ b) :
    [d.mapPath, d.mapPath.temporary, d.datasetPath a, (d.datasetPath a).temporary,
        d.datasetPath b, (d.datasetPath b).temporary].Pairwise Apart ∧
      (∀ p ∈ [d.mapPath, d.datasetPath a, d.datasetPath b],
        ¬ ".json".toList <:+ p.temporary.text.toList) ∧
      ∀ id ∈ [a, b], d.IsNamed id ∧ ∀ listed,
        (id ∈ listed → d.SweepSpares listed (d.datasetPath id)) ∧
          d.SweepSpares listed (d.datasetPath id).temporary := by
  refine ⟨?_, fun p _ => p.not_json_temporary, fun id hid => ?_⟩
  · have hnamed : ∀ {id}, isDatasetId id = true →
        d.Leads (d.datasetPath id) ["datasets", fileName id] ∧
          d.Leads (d.datasetPath id).temporary ["datasets", fileName id ++ ".tmp"] := by
      intro id hid
      rw [← withExtension_fileName (ne_empty_of_isDatasetId hid)]
      exact ⟨leads_child (d.isNamed hid).path, leads_child (d.isNamed hid).temporary⟩
    refine pairwise_apart (.cons leads_mapPath (.cons leads_mapPath_temporary
      (.cons (hnamed ha).1 (.cons (hnamed ha).2 (.cons (hnamed hb).1 (.cons (hnamed hb).2 .nil))))))
      ?_
    -- a temporary name is no name of a dataset file, and different ids have different names
    have htemporary := temporary_ne_fileName
    simp [fileName_inj, hne, htemporary, (htemporary _ _).symm]
  · have hvalid : isDatasetId id = true := by
      rcases List.mem_pair.mp hid with rfl | rfl
      exacts [ha, hb]
    exact ⟨d.isNamed hvalid, fun listed =>
      ⟨sweepSpares_datasetPath hvalid, sweepSpares_temporary hvalid⟩⟩

/-- An id can end as a temporary name does. -/
theorem paths_apart_sample :
    isDatasetId "rooms" = true ∧ isDatasetId "rooms.json.tmp" = true ∧
      "rooms" ≠ "rooms.json.tmp" ∧
      ((DataDirectory.mk ⟨"data"⟩).datasetPath "rooms").temporary.Apart
        ((DataDirectory.mk ⟨"data"⟩).datasetPath "rooms.json.tmp") ∧
      (DataDirectory.mk ⟨"data"⟩).IsNamed "rooms.json.tmp" :=
  have h := paths_apart (DataDirectory.mk ⟨"data"⟩) (a := "rooms") (b := "rooms.json.tmp")
    (by decide) (by decide) (by decide)
  ⟨by decide, by decide, by decide,
    List.pairwise_iff_getElem.mp h.1 3 4 (by decide) (by decide) (by decide),
    (h.2.2 _ (by simp)).1⟩

end DataDirectory

end CampusQuery
