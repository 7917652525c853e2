/-
CampusQuery/Proofs/Catalog/Reopened.lean

What opening a catalog does to the files, and what opening it again does.

An opening makes the directories that are missing, reads the map and the datasets that it lists, and
only then removes orphans.  So an opening that fails has removed nothing, unless everything could be
read and the listing for the sweep broke off (`grows_of_error`).  One that ends well has removed the
orphans that could be removed and reports the others (`Sweeps`, `openingEntries`).  The map and the
datasets are read as before after that, and no file is left that a sweep would remove, so opening
once more has the same result and changes no file (`openAt_sweeps`).
-/
import CampusQuery.Proofs.Catalog.Session
import CampusQuery.Proofs.Catalog.Sweep
import CampusQuery.Proofs.Program.Journal
import CampusQuery.Proofs.Text.Sorted

namespace CampusQuery

open FileTree (Grows Spares)
open Journal (Entry)

variable {refuse : Refusals} {t u : FileTree} {w w' v : World} {d : DataDirectory}
variable {home place : Place} {id : String} {listed : List String} {entries : List Listing}
variable {c : Catalog} {x : Dataset} {entry : Listing}

/-! ### What a sweep leaves alone -/

namespace DataDirectory

/-- The map is not touched. -/
theorem not_mem_of_mapPath (place : Place) (h : d.mapPath.place? = some place) :
    place ∉ {place | ∃ id ∉ listed, place ∈ d.below ["datasets", fileName id]} := by
  rintro ⟨id, -, hmem⟩
  exact not_mem_below (by simp) (mem_below_mapPath h) hmem

/-- Listed datasets are not touched. -/
theorem not_mem_of_datasetPath (hid : isDatasetId id = true) (hlisted : id ∈ listed)
    (place : Place) (h : (d.datasetPath id).place? = some place) :
    place ∉ {place | ∃ id ∉ listed, place ∈ d.below ["datasets", fileName id]} := by
  rintro ⟨id', hunlisted, hmem⟩
  refine not_mem_below (fun he => hunlisted ?_)
    (mem_below_datasetPath (noSlash_of_isDatasetId hid) h) hmem
  obtain rfl : id = id' := fileName_inj.mp (by simpa using he)
  exact hlisted

/-- Where the directory of the datasets is there, no directory is missing. -/
theorem IsHome.makeDirectories (h : d.IsHome t home) :
    t.apply (.makeDirectories d.datasetsPath) = .ok t :=
  FileTree.apply_makeDirectories_of_isDirectory
    (FileTree.isDirectory_iff.mpr ⟨home, h.locate, h.directory⟩)

theorem IsHome.prepared (h : d.IsHome t home) : d.prepared t = t := by
  rw [DataDirectory.prepared, h.makeDirectories]

theorem WellFormed.prepared (h : t.WellFormed) : (d.prepared t).WellFormed := by
  unfold DataDirectory.prepared
  split
  · rename_i hmade
    exact h.apply hmade
  · exact h

/-- After a sweep there are not more names in the directory. -/
theorem length_names_swept :
    ((d.swept refuse t home listed).names home).length ≤ (t.names home).length := by
  rw [swept, FileTree.names_without]
  exact List.length_filter_le _ _

/-! ### What an opening leaves -/

/-- The ids that a sweep reports, in their order. -/
def reported (d : DataDirectory) (refuse : Refusals) (t : FileTree) (home : Place)
    (listed : List String) : List String :=
  (d.stuck refuse t home listed).mergeSort fun a b => a ≤ b

/-- What a sweep of the files `t` leaves, where the map has the given entries and some ids are
reported. -/
structure Sweeps (d : DataDirectory) (refuse : Refusals) (t u : FileTree) (entries : List Listing)
    (reported : List String) : Prop where
  /-- Orphans are gone if they can be removed; they are files then. -/
  removed : ∀ id place, d.IsOrphan t (entries.map Listing.id) id place →
    d.removable refuse t id = true →
      (∃ content, t.get? place = some (.file content)) ∧ u.get? place = none
  /-- Everything else is as before. -/
  kept : ∀ place, (∀ id, d.IsOrphan t (entries.map Listing.id) id place →
    d.removable refuse t id = false) → u.get? place = t.get? place
  /-- The map is as before. -/
  map : ∀ content, u.read d.mapPath = .ok content ↔ t.read d.mapPath = .ok content
  /-- The files of listed datasets are as before. -/
  datasets : ∀ l ∈ entries, ∀ content,
    u.read (d.datasetPath l.id) = .ok content ↔ t.read (d.datasetPath l.id) = .ok content
  /-- Orphans are reported if they cannot be removed. -/
  reports : ∀ id, id ∈ reported ↔ d.removable refuse t id = false ∧
    ∃ place, d.IsOrphan t (entries.map Listing.id) id place
  /-- Each of them is reported once, in their order. -/
  sorted : reported.Pairwise (· < ·)

theorem sorted_reported (hwell : t.WellFormed) :
    (d.reported refuse t home listed).Pairwise (· < ·) := by
  have hnodup : (d.stuck refuse t home listed).Nodup :=
    (nodup_orphans (hwell.nodup_names home)).filter _
  exact pairwise_lt_mergeSort (by rwa [List.map_id'])

theorem sweeps_swept (hwell : t.WellFormed) (hhome : d.IsHome t home)
    (hids : ∀ l ∈ entries, isDatasetId l.id = true) :
    d.Sweeps refuse t (d.swept refuse t home (entries.map Listing.id)) entries
      (d.reported refuse t home (entries.map Listing.id)) where
  removed id place horphan hremovable := by
    have hgone := (mem_sweptPlaces_iff hhome).mpr ⟨id, horphan, hremovable⟩
    obtain ⟨-, rfl⟩ := (isOrphan_iff hhome).mp horphan
    exact ⟨isFile_of_removable hwell hhome horphan hremovable,
      FileTree.get?_without_of_mem hgone (by simp)⟩
  kept place hplace := by
    refine FileTree.get?_without_of_not_mem fun hmem => ?_
    obtain ⟨id, horphan, hremovable⟩ := (mem_sweptPlaces_iff hhome).mp hmem
    cases hremovable.symm.trans (hplace id horphan)
  map content :=
    FileTree.read_eq_ok_iff_of_spares (spares_swept hwell hhome) not_mem_of_mapPath
  datasets l hl content :=
    FileTree.read_eq_ok_iff_of_spares (spares_swept hwell hhome)
      (not_mem_of_datasetPath (hids l hl) (List.mem_map_of_mem hl))
  reports id := by
    rw [reported, List.mem_mergeSort, stuck, List.mem_filter, Bool.not_eq_true', and_comm]
    refine and_congr_right fun _ => ?_
    constructor
    · exact fun hid => ⟨_, (isOrphan_iff hhome).mpr ⟨hid, rfl⟩⟩
    · rintro ⟨place, horphan⟩
      exact ((isOrphan_iff hhome).mp horphan).1
  sorted := sorted_reported hwell

/-! ### Reading after a sweep -/

variable [FloatReader]

theorem Lists.of_spares (hs : Spares t u {place | ∃ id ∉ listed,
    place ∈ d.below ["datasets", fileName id]}) (h : d.Lists refuse t entries) :
    d.Lists refuse u entries := by
  rcases h with ⟨hnone, rfl⟩ | ⟨content, m, hread, hmap⟩
  · exact .inl ⟨(FileTree.present_of_spares hs not_mem_of_mapPath).trans hnone, rfl⟩
  · obtain ⟨hfree, hread⟩ := Refusals.answer_eq_ok_iff.mp hread
    exact .inr ⟨content, m, Refusals.answer_eq_ok_iff.mpr
      ⟨hfree, FileTree.read_of_spares hs not_mem_of_mapPath hread⟩, hmap⟩

theorem Opens.of_spares (hs : Spares t u {place | ∃ id ∉ listed,
    place ∈ d.below ["datasets", fileName id]}) (hid : isDatasetId entry.id = true)
    (hlisted : entry.id ∈ listed) (h : d.Opens refuse t entry x) : d.Opens refuse u entry x := by
  obtain ⟨content, envelope, hread, hopen⟩ := h
  obtain ⟨hfree, hread⟩ := Refusals.answer_eq_ok_iff.mp hread
  exact ⟨content, envelope, Refusals.answer_eq_ok_iff.mpr
    ⟨hfree, FileTree.read_of_spares hs (not_mem_of_datasetPath hid hlisted) hread⟩, hopen⟩

/-- Everything could be read, and then the listing for the sweep broke off: nothing is gone but
orphans that can be removed. -/
structure BreaksOff (d : DataDirectory) (refuse : Refusals) (t u : FileTree)
    (entries : List Listing) : Prop where
  /-- The map and the datasets could be read. -/
  read : d.Lists refuse t entries ∧ ∃ l, List.Forall₂ (d.Opens refuse t) entries l
  refused : ∃ met e, refuse (.advance d.datasetsPath met) = some e
  kept : ∀ place, u.get? place = t.get? place ∨
    (∃ id, d.IsOrphan t (entries.map Listing.id) id place ∧ d.removable refuse t id = true) ∧
      u.get? place = none

end DataDirectory

/-! ### Opening -/

namespace Catalog

/-- The entries that an opening writes which ends well and took the time `elapsed`. -/
def openingEntries (d : DataDirectory) (c : Catalog) (reported : List String) (elapsed : String) :
    List Entry :=
  [(restoreScope d).begun] ++ reported.map orphanEntry ++
    [(restoreScope d).completed [("datasets", toString c.registry.size)] elapsed,
      Journal.Event.catalogLoaded.entry [("datasets", toString c.registry.size)]]

/-- The world after an opening that ends well. -/
def opened (d : DataDirectory) (c : Catalog) (files : FileTree) (reported : List String)
    (w : World) : World :=
  closed d c ((reported.map orphanEntry).foldl World.log
    { w.log (restoreScope d).begun with files })

theorem files_opened (d : DataDirectory) (c : Catalog) (files : FileTree) (reported : List String)
    (w : World) : (opened d c files reported w).files = files := by
  rw [opened, closed, World.files_log, World.files_log]
  exact World.files_foldl_log _ _

theorem journal_closed (d : DataDirectory) (c : Catalog) (h : w.journal = v.journal) :
    ∃ elapsed, (closed d c w).journal =
      ((v.log ((restoreScope d).completed [("datasets", toString c.registry.size)] elapsed)).log
        (Journal.Event.catalogLoaded.entry [("datasets", toString c.registry.size)])).journal :=
  ⟨w.readings w.taken .elapsed, World.journal_log (World.journal_log
    (show ({ w with taken := w.taken + 1 } : World).journal = v.journal from h) _) _⟩

theorem journal_opened (d : DataDirectory) (c : Catalog) (files : FileTree)
    (reported : List String) (w : World) : ∃ elapsed,
      (opened d c files reported w).journal =
        ((openingEntries d c reported elapsed).foldl World.log w).journal := by
  simp only [openingEntries, List.foldl_append]
  exact journal_closed d c (World.journal_foldl_log _ rfl)

section Openings

variable [FloatReader]

/-- **Opening ends well** just if everything can be read; what it leaves can be read off the files
before it. -/
theorem runIn_openAt_eq_ok_iff_swept
    (hrefuse : ∀ p, refuse (.change (.remove p)) ≠ some .notFound) (hwell : w.files.WellFormed) :
    (openAt d).runIn refuse w = (.ok c, w') ↔
      refuse.apply w.files (.makeDirectories d.datasetsPath) = .ok (d.prepared w.files) ∧
        ∃ entries l home, d.Lists refuse (d.prepared w.files) entries ∧
          List.Forall₂ (d.Opens refuse (d.prepared w.files)) entries l ∧
          d.IsHome (d.prepared w.files) home ∧
          refuse.Completes d.datasetsPath ((d.prepared w.files).names home).length ∧
          c = ⟨l.foldl Registry.insert .empty, some d, .zero⟩ ∧
          w' = opened d c (d.swept refuse (d.prepared w.files) home (entries.map Listing.id))
            (d.reported refuse (d.prepared w.files) home (entries.map Listing.id)) w := by
  have hprepared : (d.prepared w.files).WellFormed := DataDirectory.WellFormed.prepared hwell
  rw [runIn_openAt_eq_ok_iff]
  simp only [runIn_restore_eq_ok_iff, World.files_log]
  constructor
  · rintro ⟨_, ⟨hmade, entries, l, stuck, middle, hlists, hl, hc, hsweep, rfl⟩, rfl⟩
    obtain ⟨home, hhome, hlist⟩ := DataDirectory.runIn_sweep_eq_ok hrefuse hprepared hsweep
    rw [DataDirectory.runIn_sweep hrefuse hprepared hhome hlist] at hsweep
    obtain ⟨hstuck, rfl⟩ := Prod.mk.inj hsweep
    obtain rfl := Except.ok.inj hstuck
    exact ⟨hmade, entries, l, home, hlists, hl, hhome, hlist, hc, rfl⟩
  · rintro ⟨hmade, entries, l, home, hlists, hl, hhome, hlist, hc, rfl⟩
    exact ⟨_, ⟨hmade, entries, l, _, _, hlists, hl, hc,
      DataDirectory.runIn_sweep hrefuse hprepared hhome hlist, rfl⟩, rfl⟩

/-- Where no directory is missing and everything can be read, opening ends well. -/
theorem exists_openAt_eq_ok {l : List Dataset}
    (hrefuse : ∀ p, refuse (.change (.remove p)) ≠ some .notFound) (hwell : w.files.WellFormed)
    (hhome : d.IsHome w.files home)
    (hmake : refuse (.change (.makeDirectories d.datasetsPath)) = none)
    (hlist : refuse.Completes d.datasetsPath (w.files.names home).length)
    (hlists : d.Lists refuse w.files entries)
    (hl : List.Forall₂ (d.Opens refuse w.files) entries l) :
    ∃ w', (openAt d).runIn refuse w =
      (.ok ⟨l.foldl Registry.insert .empty, some d, .zero⟩, w') := by
  simp only [runIn_openAt_eq_ok_iff_swept hrefuse hwell, hhome.prepared]
  exact ⟨_, Refusals.answer_eq_ok_iff.mpr ⟨hmake, hhome.makeDirectories⟩, entries, l, home, hlists,
    hl, hhome, hlist, rfl, rfl⟩

/-- Restoring that fails has made directories at most, unless its sweep broke off. -/
theorem grows_of_restore_error (hrefuse : ∀ p, refuse (.change (.remove p)) ≠ some .notFound)
    (hwell : w.files.WellFormed) {e : CatalogError}
    (h : (restore d).runIn refuse w = (.error e, w')) :
    Grows w.files w'.files ∨
      ∃ entries, d.BreaksOff refuse (d.prepared w.files) w'.files entries := by
  rcases Action.runIn_bind_eq_error h with hprepare | ⟨_, made, hprepare, h⟩
  · rw [Action.runIn_change_eq_error hprepare]
    exact .inl (.refl _)
  · obtain ⟨-, hmade⟩ := DataDirectory.runIn_prepare_eq_ok_iff.mp hprepare
    have hfiles : made.files = d.prepared w.files := by rw [hmade]
    have hgrows : Grows w.files made.files := hfiles ▸ DataDirectory.grows_prepared
    have hmadeWell : made.files.WellFormed := hfiles ▸ DataDirectory.WellFormed.prepared hwell
    rw [← hfiles]
    -- nothing that follows changes the files before the sweep
    rcases Action.runIn_bind_eq_error h with hmap | ⟨entries, middle, hmap, h⟩
    · rw [DataDirectory.world_readMap hmap]
      exact .inl hgrows
    · obtain rfl := (DataDirectory.world_readMap hmap).symm
      rcases Action.runIn_bind_eq_error h with hread | ⟨registry, middle, hread, h⟩
      · rw [DataDirectory.world_readAll hread]
        exact .inl hgrows
      · obtain rfl := (DataDirectory.world_readAll hread).symm
        rcases Action.runIn_bind_eq_error h with hsweep | ⟨stuck, middle, -, h⟩
        · rcases DataDirectory.runIn_sweep_eq_error hrefuse hmadeWell hsweep with
            rfl | ⟨u, hsome, rfl⟩
          · exact .inl hgrows
          · obtain ⟨l, hl, -⟩ := DataDirectory.opens_of_readAll hread
            exact .inr ⟨entries, ⟨DataDirectory.lists_of_readMap hmap, l, hl⟩, hsome.refused,
              hsome.get?⟩
        · rw [Action.runIn_lift_bind] at h
          cases h

theorem grows_of_error (hrefuse : ∀ p, refuse (.change (.remove p)) ≠ some .notFound)
    (hwell : w.files.WellFormed) {e : CatalogError}
    (h : (openAt d).runIn refuse w = (.error e, w')) :
    Grows w.files w'.files ∨
      ∃ entries, d.BreaksOff refuse (d.prepared w.files) w'.files entries := by
  obtain ⟨restored, hrestore, hfiles⟩ := restore_of_openAt_error h
  have hsame := World.files_log w (restoreScope d).begun
  have hgrows := grows_of_restore_error hrefuse (by rwa [hsame]) hrestore
  rwa [hsame, ← hfiles] at hgrows

/-- **Opening removes orphans only**, and only where everything could be read.  Which accesses are
refused is fixed, but nothing that is there is refused as missing; the map lists valid ids only.  An
opening that fails has made directories at most, unless everything could be read and the listing for
the sweep broke off; then it removed orphans at most.  After one that ends well all orphans that can
be removed are gone, all other files are as they were, and the other orphans are reported in the
journal.  Then opening again ends well with the same catalog, reports the same, and changes no
file. -/
theorem openAt_sweeps
    (hrefuse : ∀ p, refuse (.change (.remove p)) ≠ some .notFound) (hwell : w.files.WellFormed)
    (hids : ∀ entries, d.Lists refuse (d.prepared w.files) entries →
      ∀ l ∈ entries, isDatasetId l.id = true) :
    (∀ e w', (openAt d).runIn refuse w = (.error e, w') →
        Grows w.files w'.files ∨ Grows w.files (d.prepared w.files) ∧
          ∃ entries, d.BreaksOff refuse (d.prepared w.files) w'.files entries) ∧
      ∀ c w', (openAt d).runIn refuse w = (.ok c, w') →
        Grows w.files (d.prepared w.files) ∧
        ∃ entries reported, d.Lists refuse (d.prepared w.files) entries ∧
          d.Sweeps refuse (d.prepared w.files) w'.files entries reported ∧
          (∃ elapsed, w'.journal =
            ((openingEntries d c reported elapsed).foldl World.log w).journal) ∧
          ∀ v, v.files = w'.files → ∃ v', (openAt d).runIn refuse v = (.ok c, v') ∧
            v'.files = v.files ∧ ∃ elapsed, v'.journal =
              ((openingEntries d c reported elapsed).foldl World.log v).journal := by
  refine ⟨fun e w' h => (grows_of_error hrefuse hwell h).imp_right fun hbreaks =>
    ⟨DataDirectory.grows_prepared, hbreaks⟩, fun c w' h => ⟨DataDirectory.grows_prepared, ?_⟩⟩
  have hprepared : (d.prepared w.files).WellFormed := DataDirectory.WellFormed.prepared hwell
  obtain ⟨hmade, entries, l, home, hlists, hl, hhome, hlist, rfl, rfl⟩ :=
    (runIn_openAt_eq_ok_iff_swept hrefuse hwell).mp h
  have hvalid := hids entries hlists
  refine ⟨entries, _, hlists, ?_, journal_opened _ _ _ _ _, fun v hv => ?_⟩
  · rw [files_opened]
    exact DataDirectory.sweeps_swept hprepared hhome hvalid
  rw [files_opened] at hv
  -- the second opening reads the same
  have hspares : Spares (d.prepared w.files) v.files _ :=
    hv ▸ DataDirectory.spares_swept hprepared hhome
  have hhome' : d.IsHome v.files home := hhome.of_keeps hspares.keeps
  have hopens : List.Forall₂ (d.Opens refuse v.files) entries l :=
    ((List.forall₂_and_left entries l).mpr ⟨fun _ h => h, hl⟩).imp fun entry x h =>
      h.2.of_spares hspares (hvalid entry h.1) (List.mem_map_of_mem h.1)
  -- and it finds nothing to remove
  have hwell' : v.files.WellFormed := hv ▸ hprepared.without _
  have hswept : d.swept refuse v.files home (entries.map Listing.id) = v.files := by
    rw [hv, DataDirectory.swept_swept hprepared hhome]
  have hreported : d.reported refuse v.files home (entries.map Listing.id) =
      d.reported refuse (d.prepared w.files) home (entries.map Listing.id) := by
    rw [DataDirectory.reported, hv, DataDirectory.stuck_swept hprepared hhome,
      DataDirectory.reported]
  have hprepared' : d.prepared v.files = v.files := hhome'.prepared
  have hmade' : refuse.apply v.files (.makeDirectories d.datasetsPath) = .ok v.files :=
    Refusals.answer_of_answer hmade hhome'.makeDirectories
  have hlist' : refuse.Completes d.datasetsPath (v.files.names home).length :=
    hlist.mono (hv ▸ DataDirectory.length_names_swept)
  refine ⟨_, (runIn_openAt_eq_ok_iff_swept hrefuse hwell').mpr ⟨?_, entries, l, home, ?_⟩,
    files_opened _ _ v.files _ v, journal_opened _ _ _ _ _⟩
  · rwa [hprepared']
  · rw [hprepared', hswept, hreported]
    exact ⟨hlists.of_spares hspares, hopens, hhome', hlist', rfl, rfl⟩

end Openings

section Sample

attribute [local instance] FloatReader.nearest

/-- One file of a dataset that is listed, and several that are not: one that can be removed, one of
which this is refused, and a directory.  The configuration stands beside the data. -/
def sampleOrphans : FileTree where
  nodes := [(["campus.json"], .file (Json.object [("data_dir", .text "data")]).write.toUTF8),
    (["data"], .directory), (["data", "datasets"], .directory),
    (["data", "catalog.json"],
      .file (CatalogMap.toBytes ⟨"", [⟨"rooms", .rooms, 1⟩]⟩)),
    (["data", "datasets", "rooms.json"],
      .file (Envelope.ofDataset ⟨"rooms", Session.sampleStore⟩ "").toBytes),
    (["data", "datasets", "rooms.json.tmp"], .file .empty),
    (["data", "datasets", "old.json"], .file .empty),
    (["data", "datasets", "locked.json"], .file .empty),
    (["data", "datasets", "kept.json"], .directory)]

/-- One of the files may not be removed. -/
def sampleRefusals : Refusals
  | .change (.remove p) =>
    if p = Session.sampleDirectory.datasetPath "locked" then some .permissionDenied else none
  | _ => none

/-- A world with these files. -/
def sampleOrphansWorld : World := { Session.sampleWorld with files := sampleOrphans }

theorem wellFormed_sampleOrphans : sampleOrphans.WellFormed :=
  FileTree.wellFormed_of_nodes (by decide) (by unfold IsProper; decide)

theorem isHome_sampleOrphans :
    Session.sampleDirectory.IsHome sampleOrphans ["data", "datasets"] :=
  ⟨by decide +kernel, rfl⟩

theorem read_sampleOrphans : sampleOrphans.read Session.sampleDirectory.mapPath =
    .ok (CatalogMap.toBytes ⟨"", [⟨"rooms", .rooms, 1⟩]⟩) :=
  FileTree.read_eq_ok_iff.mpr
    ⟨["data", "catalog.json"], by decide +kernel, rfl, by decide +kernel⟩

theorem ofBytes_sampleOrphans :
    CatalogMap.ofBytes (CatalogMap.toBytes ⟨"", [⟨"rooms", .rooms, 1⟩]⟩) =
      .ok ⟨"", [⟨"rooms", .rooms, 1⟩]⟩ :=
  CatalogMap.ofBytes_toBytes (by decide)

theorem opens_sampleOrphans : Session.sampleDirectory.Opens sampleRefusals sampleOrphans
    ⟨"rooms", .rooms, 1⟩ ⟨"rooms", Session.sampleStore⟩ := by
  have hstorable : Session.sampleStore.Storable := Session.storable_sampleEdit.1
  exact ⟨_, _, FileTree.read_eq_ok_iff.mpr
    ⟨["data", "datasets", "rooms.json"], by decide +kernel, rfl, by decide +kernel⟩,
    Envelope.ofBytes_toBytes hstorable "", Envelope.open?_ofDataset hstorable "" _⟩

theorem sampleRefusals_ne_notFound (p : FilePath) :
    sampleRefusals (.change (.remove p)) ≠ some .notFound := by
  unfold sampleRefusals
  split <;> simp

theorem lists_sampleOrphans :
    Session.sampleDirectory.Lists sampleRefusals sampleOrphans [⟨"rooms", .rooms, 1⟩] :=
  .inr ⟨_, _, read_sampleOrphans, ofBytes_sampleOrphans, rfl⟩

/-- The catalog of these files. -/
def sampleOrphansCatalog : Catalog :=
  ⟨[⟨"rooms", Session.sampleStore⟩].foldl Registry.insert .empty, some Session.sampleDirectory,
    .zero⟩

theorem sampleOrphans_opens (hfiles : w.files = sampleOrphans) :
    ∃ w', (openAt Session.sampleDirectory).runIn sampleRefusals w =
      (.ok sampleOrphansCatalog, w') := by
  have hlists : Session.sampleDirectory.Lists sampleRefusals w.files [⟨"rooms", .rooms, 1⟩] :=
    hfiles ▸ lists_sampleOrphans
  exact exists_openAt_eq_ok sampleRefusals_ne_notFound (hfiles ▸ wellFormed_sampleOrphans)
    (hfiles ▸ isHome_sampleOrphans) rfl ⟨rfl, fun _ _ => rfl⟩ hlists
    (.cons (hfiles ▸ opens_sampleOrphans) .nil)

theorem openAt_sweeps_sample :
    (∀ p, sampleRefusals (.change (.remove p)) ≠ some .notFound) ∧
      sampleOrphansWorld.files.WellFormed ∧
      (∀ entries, Session.sampleDirectory.Lists sampleRefusals
          (Session.sampleDirectory.prepared sampleOrphansWorld.files) entries →
        ∀ l ∈ entries, isDatasetId l.id = true) ∧
      ∃ w' reported, (openAt Session.sampleDirectory).runIn sampleRefusals sampleOrphansWorld =
          (.ok sampleOrphansCatalog, w') ∧
        Session.sampleDirectory.Sweeps sampleRefusals
          (Session.sampleDirectory.prepared sampleOrphansWorld.files) w'.files
          [⟨"rooms", .rooms, 1⟩] reported ∧
        (∃ elapsed, w'.journal =
          ((openingEntries Session.sampleDirectory sampleOrphansCatalog reported elapsed).foldl
            World.log sampleOrphansWorld).journal) ∧
        ∀ v, v.files = w'.files → ∃ v', (openAt Session.sampleDirectory).runIn sampleRefusals v =
            (.ok sampleOrphansCatalog, v') ∧ v'.files = v.files ∧
          ∃ elapsed, v'.journal =
            ((openingEntries Session.sampleDirectory sampleOrphansCatalog reported elapsed).foldl
              World.log v).journal := by
  have hprepared : Session.sampleDirectory.prepared sampleOrphansWorld.files = sampleOrphans :=
    isHome_sampleOrphans.prepared
  have honly : ∀ entries, Session.sampleDirectory.Lists sampleRefusals
      (Session.sampleDirectory.prepared sampleOrphansWorld.files) entries →
        entries = [⟨"rooms", .rooms, 1⟩] := fun entries h =>
    DataDirectory.eq_of_lists h (hprepared ▸ lists_sampleOrphans)
  have hids : ∀ entries, Session.sampleDirectory.Lists sampleRefusals
      (Session.sampleDirectory.prepared sampleOrphansWorld.files) entries →
        ∀ l ∈ entries, isDatasetId l.id = true := by
    intro entries hentries l hl
    obtain rfl := honly entries hentries
    obtain rfl := List.mem_singleton.mp hl
    decide +kernel
  obtain ⟨w', h⟩ := sampleOrphans_opens (w := sampleOrphansWorld) rfl
  obtain ⟨-, entries, reported, hentries, hsweeps, hjournal, hagain⟩ :=
    (openAt_sweeps sampleRefusals_ne_notFound wellFormed_sampleOrphans hids).2 _ _ h
  obtain rfl := honly entries hentries
  exact ⟨sampleRefusals_ne_notFound, wellFormed_sampleOrphans, hids, w', reported, h, hsweeps,
    hjournal, hagain⟩

end Sample

end Catalog

end CampusQuery
