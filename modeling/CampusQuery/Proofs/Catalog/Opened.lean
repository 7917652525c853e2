/-
CampusQuery/Proofs/Catalog/Opened.lean

What opening a catalog restores.

Of files that hold a registry, opening restores this registry, or an access that it
needs has failed (`runs_openAt`): it never finds anything corrupt, and never a part of
the registry.  Opening removes orphans only, so the files still hold the registry
afterwards, and removing them may fail.  The accesses that opening needs are listed
(`Obstructed`), so that it is seen when none of them can fail (`Stores.not_obstructed`).
-/
import CampusQuery.Proofs.Catalog.Edits

namespace CampusQuery

open Program (Runs)
open FileTree (SameDirectories)

variable {faults : Faults} {t u : FileTree} {r : Registry} {x : Dataset} {d : DataDirectory}

namespace DataDirectory

/-! ### The names of orphans -/

theorem noSlash_of_idOfFile? {name id : String} (hname : '/' ∉ name.toList)
    (h : idOfFile? name = some id) : '/' ∉ id.toList := by
  unfold idOfFile? at h
  dsimp only at h
  split at h
  · cases h
    rw [String.toList_ofList]
    exact fun hmem => hname (List.mem_of_mem_take hmem)
  · cases h

/-- Names of files hold no slashes, and so neither do the ids of orphans. -/
theorem ProperNames.noSlash_of_mem_orphans {place : Place} {listed names : List String}
    {id : String} (hproper : d.ProperNames t) (hlocate : t.locate d.datasetsPath = .ok place)
    (hnames : names ⊆ t.names place) (hid : id ∈ orphans listed names) : '/' ∉ id.toList := by
  obtain ⟨name, hname, hfile⟩ := List.mem_filterMap.mp (List.mem_filter.mp hid).1
  have hslash := hproper place (FileTree.place?_of_locate hlocate) name
    (FileTree.mem_names_iff.mp (hnames hname))
  exact noSlash_of_idOfFile? hslash hfile

/-- A sweep fails at once if the directory cannot be listed; else it goes on with the names that are
met, and fails after that if the listing broke off. -/
theorem runs_sweep_cases {listed : List String} {result : Except CatalogError (List String)}
    (h : Runs faults (d.sweep listed).run t result u) :
    (∃ e, result = .error (.unreachable d.datasetsPath e) ∧ u = t ∧
        faults t (.list d.datasetsPath) e) ∨
      ∃ found stuck, Meets faults t d.datasetsPath found ∧
        Runs faults (d.removeAll (orphans listed found.texts)) t stuck u ∧
        result = match found.failure with
          | some e => .error (.unreachable d.datasetsPath e)
          | none => .ok (stuck.mergeSort fun a b => a ≤ b) := by
  rcases Action.runs_list_bind h with ⟨found, hmeets, hrest⟩ | ⟨e, rfl, rfl, hfault⟩
  · obtain ⟨stuck, t₂, hremove, hend⟩ := Action.runs_lift_bind hrest
    rcases found with ⟨met, - | e⟩
    · obtain ⟨rfl, rfl⟩ := Action.runs_pure hend
      exact .inr ⟨_, stuck, hmeets, hremove, rfl⟩
    · obtain ⟨rfl, rfl⟩ := Program.runs_pure hend
      exact .inr ⟨_, stuck, hmeets, hremove, rfl⟩
  · exact .inl ⟨e, rfl, rfl, hfault⟩

/-! ### Accesses that can fail -/

/-- The directory of the dataset files can fail to be listed to its end. -/
def Unlistable (faults : Faults) (d : DataDirectory) (t : FileTree) (e : FileError) : Prop :=
  faults t (.list d.datasetsPath) e ∨ ∃ met, faults t (.advance d.datasetsPath met) e

/-- A file or directory that opening the catalog reads can fail to be read. -/
def Unreadable (faults : Faults) (d : DataDirectory) (t : FileTree) (r : Registry) : Prop :=
  ∃ e, t.present d.mapPath = true ∧ faults t (.read d.mapPath) e ∨
    (∃ x ∈ r.datasets, faults t (.read (d.datasetPath x.id)) e) ∨ Unlistable faults d t e

/-- An access that opening the catalog needs can fail. -/
def Obstructed (faults : Faults) (d : DataDirectory) (t : FileTree) (r : Registry) : Prop :=
  (∃ e, faults t (.change (.makeDirectories d.datasetsPath)) e) ∨
    ∃ t', t.apply (.makeDirectories d.datasetsPath) = .ok t' ∧ Unreadable faults d t' r

variable [FloatReader]

/-! ### Reading -/

theorem runs_readMap {result : Except CatalogError (List Listing)} (hmap : d.ListsMap t r)
    (h : Runs faults d.readMap.run t result u) :
    u = t ∧ ((result = .ok r.listings ∧
        (t.present d.mapPath = true → ∃ content, t.read d.mapPath = .ok content)) ∨
      ∃ e, result = .error (.unreachable d.mapPath e) ∧ t.present d.mapPath = true ∧
        faults t (.read d.mapPath) e) := by
  obtain ⟨present, t₁, hask, hrest⟩ := Action.runs_lift_bind h
  obtain ⟨hpresent, rfl⟩ := Program.runs_asking hask
  change present = t₁.present d.mapPath at hpresent
  split at hrest
  · rename_i hthere
    rw [hthere] at hpresent
    rcases Action.runs_read_bind hrest with ⟨content, hread, hdecode⟩ | ⟨e, rfl, rfl, hfault⟩
    · -- what is read is the map that lists the registry
      rcases hmap with ⟨-, hnone⟩ | ⟨content', updatedAt, hread', hmap⟩
      · obtain ⟨place, hlocate, hget, -⟩ := FileTree.read_eq_ok_iff.mp hread
        exact absurd hget (hnone place (FileTree.place?_of_locate hlocate) content)
      · rw [hread] at hread'
        cases hread'
        rw [hmap] at hdecode
        obtain ⟨rfl, rfl⟩ := Action.runs_pure hdecode
        exact ⟨rfl, .inl ⟨rfl, fun _ => ⟨_, hread⟩⟩⟩
    · exact ⟨rfl, .inr ⟨_, rfl, hpresent.symm, hfault⟩⟩
  · -- no map: then the registry is empty
    rename_i hthere
    obtain ⟨rfl, rfl⟩ := Action.runs_pure hrest
    rw [hpresent] at hthere
    rcases hmap with ⟨rfl, -⟩ | ⟨content, updatedAt, hread, -⟩
    · exact ⟨rfl, .inl ⟨congrArg Except.ok Registry.listings_empty.symm,
        fun hpresent => absurd hpresent hthere⟩⟩
    · exact absurd (FileTree.present_of_read hread) hthere

theorem runs_readDataset {result : Except CatalogError Dataset} (hx : d.HoldsDataset t x)
    (h : Runs faults (d.readDataset x.listing).run t result u) :
    u = t ∧ (result = .ok x ∨
      ∃ e, result = .error (.unreachable (d.datasetPath x.id) e) ∧
        faults t (.read (d.datasetPath x.id)) e) := by
  obtain ⟨content, envelope, hread, hdecode, hopen⟩ := hx
  rcases Action.runs_read_bind h with ⟨content', hread', hrest⟩ | ⟨e, rfl, rfl, hfault⟩
  · have heq : content' = content := Except.ok.inj (hread'.symm.trans hread)
    replace hopen : envelope.open? (d.datasetPath x.listing.id) x.listing = .ok x := hopen
    rw [heq] at hrest
    simp only [hdecode, hopen] at hrest
    obtain ⟨rfl, rfl⟩ := Action.runs_pure hrest
    exact ⟨rfl, .inl rfl⟩
  · exact ⟨rfl, .inr ⟨_, rfl, hfault⟩⟩

/-- The datasets are read one after the other into the registry. -/
theorem runs_readAll {result : Except CatalogError Registry} {l : List Dataset} {s : Registry}
    (hl : ∀ x ∈ l, d.HoldsDataset t x)
    (h : Runs faults (Catalog.readAll d (l.map Dataset.listing) s).run t result u) :
    u = t ∧ (result = .ok (l.foldl Registry.insert s) ∨
      ∃ x ∈ l, ∃ e, result = .error (.unreachable (d.datasetPath x.id) e) ∧
        faults t (.read (d.datasetPath x.id)) e) := by
  induction l generalizing s with
  | nil =>
    obtain ⟨rfl, rfl⟩ := Action.runs_pure h
    exact ⟨rfl, .inl rfl⟩
  | cons x l ih =>
    obtain ⟨hx, hl⟩ := List.forall_mem_cons.mp hl
    rcases Action.runs_bind h with ⟨dataset, t₁, hread, hrest⟩ | ⟨e, hread, rfl⟩
    · obtain ⟨rfl, he | ⟨e, he, -⟩⟩ := runs_readDataset hx hread
      · cases he
        obtain ⟨hu, hok | ⟨y, hy, e, herror, hfault⟩⟩ := ih hl hrest
        · exact ⟨hu, .inl hok⟩
        · exact ⟨hu, .inr ⟨y, List.mem_cons_of_mem _ hy, e, herror, hfault⟩⟩
      · cases he
    · obtain ⟨rfl, he | ⟨e', he, hfault⟩⟩ := runs_readDataset hx hread
      · cases he
      · cases he
        exact ⟨rfl, .inr ⟨x, List.mem_cons_self, _, rfl, hfault⟩⟩

/-! ### Removing orphans -/

theorem runs_removeAll {ids stuck : List String} (hids : ∀ id ∈ ids, '/' ∉ id.toList)
    (hunlisted : ∀ id ∈ ids, ∀ x ∈ r.datasets, x.id ≠ id) (hheld : d.Holds t r)
    (h : Runs faults (d.removeAll ids) t stuck u) : d.Holds u r ∧ SameDirectories t u := by
  induction ids generalizing t stuck with
  | nil =>
    obtain ⟨-, rfl⟩ := Program.runs_pure h
    exact ⟨hheld, fun _ => Iff.rfl⟩
  | cons id ids ih =>
    obtain ⟨hid, hids⟩ := List.forall_mem_cons.mp hids
    obtain ⟨hnew, hunlisted⟩ := List.forall_mem_cons.mp hunlisted
    obtain ⟨gone, t₁, hremove, h⟩ := Program.runs_bind h
    obtain ⟨others, t₂, hrest, h⟩ := Program.runs_bind h
    obtain ⟨-, rfl⟩ := Program.runs_pure h
    have hs := stops_removeDataset hid hremove.stops
    obtain ⟨hheld', hsame⟩ := ih hids hunlisted (hheld.of_spares_dataset hnew hs) hrest
    exact ⟨hheld', hs.directories.trans hsame⟩

/-- Removing orphans leaves the registry as it is, also if the listing breaks off. -/
theorem runs_sweep {result : Except CatalogError (List String)} (hheld : d.Holds t r)
    (h : Runs faults (d.sweep (r.listings.map Listing.id)).run t result u) :
    d.Holds u r ∧ SameDirectories t u ∧ ((∃ stuck, result = .ok stuck) ∨
      ∃ e, result = .error (.unreachable d.datasetsPath e) ∧ Unlistable faults d t e) := by
  rcases runs_sweep_cases h with ⟨e, rfl, rfl, hfault⟩ | ⟨found, stuck, hmeets, hremove, rfl⟩
  · exact ⟨hheld, fun _ => Iff.rfl, .inr ⟨_, rfl, .inl hfault⟩⟩
  · obtain ⟨names, hlist, hprefix⟩ := hmeets.exists_prefix
    obtain ⟨place, hlocate, rfl⟩ := FileTree.list_eq_ok hlist
    -- removing stays among the dataset files, as the names there hold no slashes
    have hids : ∀ id ∈ orphans (r.listings.map Listing.id) found.texts, '/' ∉ id.toList :=
      fun id => hheld.names.noSlash_of_mem_orphans hlocate hprefix.subset
    have hunlisted : ∀ id ∈ orphans (r.listings.map Listing.id) found.texts,
        ∀ x ∈ r.datasets, x.id ≠ id := by
      rintro _ hid x hx rfl
      have hlisted := (List.mem_filter.mp hid).2
      rw [Bool.not_eq_true', List.contains_eq_mem, decide_eq_false_iff_not] at hlisted
      exact hlisted (List.mem_map_of_mem (Registry.mem_listings.mpr ⟨x, hx, rfl⟩))
    obtain ⟨hheld', hsame⟩ := runs_removeAll hids hunlisted hheld hremove
    refine ⟨hheld', hsame, ?_⟩
    cases hmeets with
    | whole _ => exact .inl ⟨_, rfl⟩
    | cut _ _ hfault => exact .inr ⟨_, rfl, .inr ⟨_, hfault⟩⟩

/-- What is left to do once every dataset was read. -/
theorem runs_finish {result : Except CatalogError Catalog} {c : Catalog} (hheld : d.Holds t r)
    (h : Runs faults (do
      Catalog.reportOrphans (← d.sweep (r.listings.map Listing.id))
      return c : Action CatalogError Catalog).run t result u) :
    d.Holds u r ∧ SameDirectories t u ∧
      (result = .ok c ∨ ∃ e, result = .error (.unreachable d.datasetsPath e) ∧
        Unlistable faults d t e) := by
  rcases Action.runs_bind h with ⟨stuck, t₁, hsweep, hrest⟩ | ⟨e, hsweep, rfl⟩
  · obtain ⟨hheld', hsame, -⟩ := runs_sweep hheld hsweep
    obtain ⟨_, hreturn⟩ := Action.runs_silent_bind (silent_reportOrphans _) hrest
    obtain ⟨rfl, rfl⟩ := Action.runs_pure hreturn
    exact ⟨hheld', hsame, .inl rfl⟩
  · obtain ⟨hheld', hsame, ⟨stuck, he⟩ | ⟨e', he, hfault⟩⟩ := runs_sweep hheld hsweep
    · cases he
    · cases he
      exact ⟨hheld', hsame, .inr ⟨_, rfl, hfault⟩⟩

/-! ### Opening -/

/-- Where the registry is stored, opening fails only if an access fails that the files
allow. -/
theorem Stores.not_obstructed (h : d.Stores t r) : ¬ Obstructed .genuine d t r := by
  have hmade := FileTree.apply_makeDirectories_of_isDirectory h.directory
  rintro (⟨e, happly⟩ | ⟨t', happly, e, hread⟩)
  · cases happly.symm.trans hmade
  · rw [hmade] at happly
    cases happly
    rcases hread with ⟨hpresent, hmap⟩ | ⟨x, hx, hdataset⟩ | hlist | ⟨_, hnever⟩
    · obtain ⟨content, hread⟩ := h.readable hpresent
      cases hmap.symm.trans hread
    · obtain ⟨content, -, hread, -⟩ := h.datasets x hx
      cases hdataset.symm.trans hread
    · obtain ⟨names, hnames⟩ := FileTree.list_of_isDirectory h.directory
      cases hlist.symm.trans hnames
    · exact hnever

/-- Restoring, once the directories are there. -/
theorem runs_restoreRead {result : Except CatalogError Catalog} (hheld : d.Holds t r)
    (hdirectory : t.isDirectory d.datasetsPath = true)
    (h : Runs faults (do
      let entries ← d.readMap
      let registry ← Catalog.readAll d entries .empty
      Catalog.reportOrphans (← d.sweep (entries.map Listing.id))
      return ⟨registry, some d, .zero⟩ : Action CatalogError Catalog).run t result u) :
    d.Holds u r ∧ ((result = .ok ⟨r, some d, .zero⟩ ∧ d.Stores u r) ∨
      (∃ e, result = .error e ∧ e.code = "CAMPUS_STORAGE_IO") ∧ Unreadable faults d t r) := by
  rcases Action.runs_bind h with ⟨entries, t₁, hmap, hrest⟩ | ⟨e, hmap, rfl⟩
  · obtain ⟨rfl, ⟨he, hreadable⟩ | ⟨e, he, -⟩⟩ := runs_readMap hheld.map hmap
    · cases he
      rcases Action.runs_bind hrest with ⟨registry, t₂, hread, hfinish⟩ | ⟨e, hread, rfl⟩
      · rw [r.listings_eq] at hread
        obtain ⟨rfl, he | ⟨x, -, e, he, -⟩⟩ := runs_readAll hheld.datasets hread
        · cases he
          -- the datasets that were read make up the registry
          rw [r.foldl_insert_empty] at hfinish
          obtain ⟨hheld', hsame, rfl | ⟨e, rfl, hfault⟩⟩ := runs_finish hheld hfinish
          · have hstores : d.Stores t₂ r := ⟨hheld, hdirectory, hreadable⟩
            exact ⟨hheld', .inl ⟨rfl, hstores.of_sameDirectories hsame hheld'⟩⟩
          · exact ⟨hheld', .inr ⟨⟨_, rfl, rfl⟩, e, .inr (.inr hfault)⟩⟩
        · cases he
      · rw [r.listings_eq] at hread
        obtain ⟨rfl, he | ⟨x, hx, e', he, hfault⟩⟩ := runs_readAll hheld.datasets hread
        · cases he
        · cases he
          exact ⟨hheld, .inr ⟨⟨_, rfl, rfl⟩, e', .inr (.inl ⟨x, hx, hfault⟩)⟩⟩
    · cases he
  · obtain ⟨rfl, ⟨he, -⟩ | ⟨e', he, hpresent, hfault⟩⟩ := runs_readMap hheld.map hmap
    · cases he
    · cases he
      exact ⟨hheld, .inr ⟨⟨_, rfl, rfl⟩, e', .inl ⟨hpresent, hfault⟩⟩⟩

theorem runs_restore {result : Except CatalogError Catalog} (hheld : d.Holds t r)
    (h : Runs faults (Catalog.restore d).run t result u) :
    d.Holds u r ∧ ((result = .ok ⟨r, some d, .zero⟩ ∧ d.Stores u r) ∨
      (∃ e, result = .error e ∧ e.code = "CAMPUS_STORAGE_IO") ∧ Obstructed faults d t r) := by
  rcases Action.runs_change_bind h with ⟨t₁, happly, hrest⟩ | ⟨e, rfl, rfl, hfault⟩
  · obtain ⟨hgrows, hdirectory⟩ := FileTree.apply_makeDirectories_eq_ok happly
    obtain ⟨hheld', hresult⟩ := runs_restoreRead (hheld.of_grows hgrows) hdirectory hrest
    exact ⟨hheld', hresult.imp_right fun herror => ⟨herror.1, .inr ⟨t₁, happly, herror.2⟩⟩⟩
  · exact ⟨hheld, .inr ⟨⟨_, rfl, rfl⟩, .inl ⟨_, hfault⟩⟩⟩

/-- Around the restoring, opening only writes entries to the journal. -/
theorem runs_restore_of_openAt {result : Except CatalogError Catalog}
    (h : Runs faults (Catalog.openAt d).run t result u) :
    Runs faults (Catalog.restore d).run t result u := by
  obtain ⟨_, t₁, hbegun, h⟩ := Program.runs_bind h
  obtain ⟨restored, t₂, hrestore, h⟩ := Program.runs_bind h
  have hreported : result = restored ∧ u = t₂ := by
    rcases restored with e | c
    · obtain ⟨_, t₃, hreport, h⟩ := Program.runs_bind h
      obtain ⟨rfl, rfl⟩ := Program.runs_pure h
      exact ⟨rfl, (Program.silent_log _).runs hreport⟩
    · obtain ⟨_, t₃, htake, h⟩ := Program.runs_bind h
      obtain ⟨_, t₄, hcompleted, h⟩ := Program.runs_bind h
      obtain ⟨_, t₅, hloaded, h⟩ := Program.runs_bind h
      obtain ⟨rfl, rfl⟩ := Program.runs_pure h
      refine ⟨rfl, ?_⟩
      rw [(Program.silent_log _).runs hloaded, (Program.silent_log _).runs hcompleted,
        (Program.silent_take _).runs htake]
  rw [(Program.silent_log _).runs hbegun] at hrestore
  rw [hreported.1, hreported.2]
  exact hrestore

/-- **Opening restores the registry** that the files hold, and the files go on holding
it; if it fails, the storage failed. -/
theorem runs_openAt {result : Except CatalogError Catalog} (hheld : d.Holds t r)
    (h : Runs faults (Catalog.openAt d).run t result u) :
    d.Holds u r ∧ ((result = .ok ⟨r, some d, .zero⟩ ∧ d.Stores u r) ∨
      (∃ e, result = .error e ∧ e.code = "CAMPUS_STORAGE_IO") ∧ Obstructed faults d t r) :=
  runs_restore hheld (runs_restore_of_openAt h)

end DataDirectory

end CampusQuery
