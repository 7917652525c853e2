/-
CampusQuery/Proofs/Catalog/Reading.lean

What is read when a catalog is opened, whatever the files hold.

Opening reads the map and then the datasets that it lists.  None of this changes the world, and what
comes of it is a matter of the files alone: `Lists` says which entries the map has and `Opens` which
dataset is found for an entry.  Each reading has one lemma, with all that can be said about its
result.  The dataset of an entry fits the entry (`listing_of_opens`), and entries with one id have
the same dataset (`eq_of_opens`), so the datasets that were read are those that are registered
(`mem_foldl_insert`).  At the end opening is taken apart into these readings and the sweep
(`runIn_openAt_eq_ok_iff`).
-/
import CampusQuery.Proofs.Catalog.Edits
import CampusQuery.Proofs.Program.Refused
import Mathlib.Data.List.Induction

namespace CampusQuery

open Program (Runs)

variable {refuse : Refusals} {t : FileTree} {w w' : World} {d : DataDirectory}
variable {entry entry' : Listing} {entries : List Listing} {x y : Dataset} {r : Registry}

/-! ### Registries made of datasets -/

namespace Registry

theorem mem_insert_iff : y ∈ (r.insert x).datasets ↔ y = x ∨ y ∈ r.datasets ∧ y.id ≠ x.id := by
  have hfind : ∀ (s : Registry), y ∈ s.datasets ↔ s.find? y.id = some y := by
    intro s
    rw [find?_eq_some_iff, and_iff_left rfl]
  rw [hfind, find?_insert]
  constructor
  · intro h
    split at h
    · exact .inl (Option.some.inj h).symm
    · rename_i hne
      exact .inr ⟨(hfind r).mpr h, hne⟩
  · rintro (rfl | ⟨hy, hne⟩)
    · rw [if_pos rfl]
    · rw [if_neg hne]
      exact (hfind r).mp hy

/-- Datasets among which an id determines the dataset make up a registry. -/
theorem mem_foldl_insert {l : List Dataset} (h : ∀ x ∈ l, ∀ y ∈ l, x.id = y.id → x = y) :
    y ∈ (l.foldl insert empty).datasets ↔ y ∈ l := by
  induction l using List.reverseRecOn with
  | nil => rfl
  | append_singleton l x ih =>
    have hl := ih fun a ha b hb => h a (List.mem_append_left _ ha) b (List.mem_append_left _ hb)
    rw [List.foldl_append, List.foldl_cons, List.foldl_nil, mem_insert_iff, hl, List.mem_append,
      List.mem_singleton, or_comm]
    constructor
    · exact Or.imp_left And.left
    · rintro (hy | rfl)
      · -- a dataset that is replaced is replaced by itself
        by_cases hid : y.id = x.id
        · exact .inr (h y (List.mem_append_left _ hy) x (by simp) hid)
        · exact .inl ⟨hy, hid⟩
      · exact .inr rfl

end Registry

/-! ### Envelopes -/

/-- An envelope opens just if it passes all checks. -/
theorem Envelope.open?_eq_ok_iff {e : Envelope} {path : FilePath} :
    e.open? path entry = .ok x ↔ e.id = entry.id ∧ e.kind = entry.kind ∧
      checksumOf e.rows = e.checksum ∧ ∃ records store,
        Record.readRows e.kind e.rows = .ok records ∧ records.length = entry.numRows ∧
          RecordStore.ofRecords e.kind records = .ok store ∧ x = ⟨e.id, store⟩ := by
  unfold open? datasetOf
  constructor
  · intro h
    split at h
    · cases h
    · rename_i hfits
      rw [not_or, not_not, not_not] at hfits
      split at h
      · cases h
      · rename_i hsum
        split at h
        · cases h
        · rename_i records hread
          split at h
          · cases h
          · rename_i hlength
            split at h
            · rename_i store hstore
              exact ⟨hfits.1, hfits.2, not_not.mp hsum, records, store, hread, not_not.mp hlength,
                hstore, (Except.ok.inj h).symm⟩
            · cases h
  · rintro ⟨hid, hkind, hsum, records, store, hread, hlength, hstore, rfl⟩
    rw [if_neg (not_or.mpr ⟨not_not.mpr hid, not_not.mpr hkind⟩), if_neg (not_not.mpr hsum), hread]
    simp only [hlength, ne_eq, not_true_eq_false, if_false, hstore]

/-- A dataset fits the entry that it was opened for. -/
theorem Envelope.listing_of_open? {e : Envelope} {path : FilePath}
    (h : e.open? path entry = .ok x) : x.listing = entry := by
  obtain ⟨hid, hkind, -, records, store, -, hlength, hstore, rfl⟩ := open?_eq_ok_iff.mp h
  obtain ⟨hstoreKind, hrecords⟩ := RecordStore.eq_of_ofRecords hstore
  have hsize : store.size = entry.numRows := by
    rw [RecordStore.size, ← Array.length_toList, hrecords, hlength]
  rw [Dataset.listing, hsize, hid, hstoreKind, hkind]

/-! ### What the files hold -/

/-- Only what is there can be read. -/
theorem Refusals.present_of_read {p : FilePath} {content : ByteArray}
    (h : refuse.read t p = .ok content) : t.present p = true :=
  FileTree.present_of_read (Refusals.answer_eq_ok_iff.mp h).2

namespace DataDirectory

/-- The files once the directories that are missing were made. -/
def prepared (d : DataDirectory) (t : FileTree) : FileTree :=
  match t.apply (.makeDirectories d.datasetsPath) with
  | .ok made => made
  | .error _ => t

theorem grows_prepared : FileTree.Grows t (d.prepared t) := by
  unfold prepared
  split
  · rename_i h
    exact (FileTree.apply_makeDirectories_eq_ok h).1
  · exact .refl t

/-- Making the directories changes nothing but the files. -/
theorem runIn_prepare_eq_ok_iff : d.prepare.runIn refuse w = (.ok (), w') ↔
    refuse.apply w.files (.makeDirectories d.datasetsPath) = .ok (d.prepared w.files) ∧
      w' = { w with files := d.prepared w.files } := by
  rw [prepare, Action.runIn_change_eq_ok_iff]
  constructor
  · rintro ⟨made, hmade, rfl⟩
    have hprepared : d.prepared w.files = made := by
      rw [prepared, (Refusals.answer_eq_ok_iff.mp hmade).2]
    rw [hprepared]
    exact ⟨hmade, rfl⟩
  · rintro ⟨hmade, rfl⟩
    exact ⟨_, hmade, rfl⟩

variable [FloatReader]

/-- The map can be read and has these entries; without a map there are none. -/
def Lists (d : DataDirectory) (refuse : Refusals) (t : FileTree) (entries : List Listing) : Prop :=
  (t.present d.mapPath = false ∧ entries = []) ∨
    ∃ content m, refuse.read t d.mapPath = .ok content ∧ CatalogMap.ofBytes content = .ok m ∧
      entries = m.datasets

/-- There is one map at most. -/
theorem eq_of_lists {entries' : List Listing} (h : d.Lists refuse t entries)
    (h' : d.Lists refuse t entries') : entries = entries' := by
  rcases h with ⟨hnone, rfl⟩ | ⟨content, m, hread, hmap, rfl⟩
  · rcases h' with ⟨-, rfl⟩ | ⟨content', m', hread', -⟩
    · rfl
    · cases hnone.symm.trans (Refusals.present_of_read hread')
  · rcases h' with ⟨hnone, -⟩ | ⟨content', m', hread', hmap', rfl⟩
    · cases hnone.symm.trans (Refusals.present_of_read hread)
    · obtain rfl := Except.ok.inj (hread.symm.trans hread')
      obtain rfl := Except.ok.inj (hmap.symm.trans hmap')
      rfl

/-- The file for the entry can be read and opens to the dataset. -/
def Opens (d : DataDirectory) (refuse : Refusals) (t : FileTree) (entry : Listing) (x : Dataset) :
    Prop :=
  ∃ content envelope, refuse.read t (d.datasetPath entry.id) = .ok content ∧
    Envelope.ofBytes content = .ok envelope ∧
    envelope.open? (d.datasetPath entry.id) entry = .ok x

/-- A dataset fits its entry. -/
theorem listing_of_opens (h : d.Opens refuse t entry x) : x.listing = entry := by
  obtain ⟨content, envelope, -, -, hopen⟩ := h
  exact Envelope.listing_of_open? hopen

theorem id_of_opens (h : d.Opens refuse t entry x) : x.id = entry.id :=
  congrArg Listing.id (listing_of_opens h)

/-- The dataset is in its file. -/
theorem holdsDataset_of_opens (h : d.Opens refuse t entry x) : d.HoldsDataset t x := by
  obtain rfl := listing_of_opens h
  obtain ⟨content, envelope, hread, hopen⟩ := h
  exact ⟨content, envelope, (Refusals.answer_eq_ok_iff.mp hread).2, hopen⟩

/-- Entries with one id share a file, and so a dataset. -/
theorem eq_of_opens (h : d.Opens refuse t entry x) (h' : d.Opens refuse t entry' y)
    (hid : x.id = y.id) : x = y := by
  have hentry : entry.id = entry'.id := (id_of_opens h).symm.trans (hid.trans (id_of_opens h'))
  obtain ⟨content, envelope, hread, hdecode, hopen⟩ := h
  obtain ⟨content', envelope', hread', hdecode', hopen'⟩ := h'
  rw [hentry] at hread
  obtain rfl := Except.ok.inj (hread.symm.trans hread')
  obtain rfl := Except.ok.inj (hdecode.symm.trans hdecode')
  obtain ⟨-, -, -, records, store, hrows, -, hstore, rfl⟩ := Envelope.open?_eq_ok_iff.mp hopen
  obtain ⟨-, -, -, records', store', hrows', -, hstore', rfl⟩ := Envelope.open?_eq_ok_iff.mp hopen'
  obtain rfl := Except.ok.inj (hrows.symm.trans hrows')
  obtain rfl := Except.ok.inj (hstore.symm.trans hstore')
  rfl

theorem exists_opens {l : List Dataset} (h : List.Forall₂ (d.Opens refuse t) entries l)
    (hentry : entry ∈ entries) : ∃ y ∈ l, d.Opens refuse t entry y := by
  induction h with
  | nil => cases hentry
  | cons hfirst _ ih =>
    rcases List.mem_cons.mp hentry with rfl | hentry
    · exact ⟨_, List.mem_cons_self, hfirst⟩
    · obtain ⟨y, hy, hopens⟩ := ih hentry
      exact ⟨y, List.mem_cons_of_mem _ hy, hopens⟩

/-- The datasets that are found for entries are registered, and no others. -/
theorem mem_foldl_insert_of_opens {l : List Dataset}
    (h : List.Forall₂ (d.Opens refuse t) entries l) :
    x ∈ (l.foldl Registry.insert .empty).datasets ↔
      ∃ entry ∈ entries, d.Opens refuse t entry x := by
  have hright : ∀ y ∈ l, ∃ entry ∈ entries, d.Opens refuse t entry y := by
    induction h with
    | nil => exact List.forall_mem_nil _
    | cons hfirst _ ih =>
      refine List.forall_mem_cons.mpr ⟨⟨_, List.mem_cons_self, hfirst⟩, fun y hy => ?_⟩
      obtain ⟨entry, hentry, hopens⟩ := ih y hy
      exact ⟨entry, List.mem_cons_of_mem _ hentry, hopens⟩
  have hagree : ∀ y ∈ l, ∀ z ∈ l, y.id = z.id → y = z := by
    intro y hy z hz hid
    obtain ⟨_, -, hopens⟩ := hright y hy
    obtain ⟨_, -, hopens'⟩ := hright z hz
    exact eq_of_opens hopens hopens' hid
  rw [Registry.mem_foldl_insert hagree]
  refine ⟨hright x, ?_⟩
  rintro ⟨entry, hentry, hopens⟩
  obtain ⟨y, hy, hopens'⟩ := exists_opens h hentry
  have hid : x.id = y.id := (id_of_opens hopens).trans (id_of_opens hopens').symm
  rwa [eq_of_opens hopens hopens' hid]

/-! ### Reading -/

/-- Reading the map gives its entries. -/
theorem runIn_readMap (d : DataDirectory) (refuse : Refusals) (w : World) :
    ∃ result, d.readMap.runIn refuse w = (result, w) ∧
      ∀ entries, result = .ok entries ↔ d.Lists refuse w.files entries := by
  unfold readMap
  rw [Action.runIn_lift_bind]
  show ∃ result, (if w.files.present d.mapPath then _ else _ : Action CatalogError _).runIn
    refuse w = _ ∧ _
  split
  · rename_i hpresent
    rw [Action.runIn_bind, Action.runIn_read]
    rcases hread : refuse.read w.files d.mapPath with e | content
    · refine ⟨_, rfl, fun entries => ⟨nofun, ?_⟩⟩
      rintro (⟨hnone, -⟩ | ⟨content, m, hread', -⟩)
      · cases hpresent.symm.trans hnone
      · cases hread.symm.trans hread'
    · dsimp only [Except.mapError]
      rcases hmap : CatalogMap.ofBytes content with fault | m
      · refine ⟨_, rfl, fun entries => ⟨nofun, ?_⟩⟩
        rintro (⟨hnone, -⟩ | ⟨content', m, hread', hmap', -⟩)
        · cases hpresent.symm.trans hnone
        · obtain rfl := Except.ok.inj (hread.symm.trans hread')
          cases hmap.symm.trans hmap'
      · have hlists : d.Lists refuse w.files m.datasets := .inr ⟨content, m, hread, hmap, rfl⟩
        exact ⟨.ok m.datasets, rfl, fun entries => ⟨fun h => Except.ok.inj h ▸ hlists,
          fun h => congrArg Except.ok (eq_of_lists hlists h)⟩⟩
  · rename_i hpresent
    rw [Bool.not_eq_true] at hpresent
    -- without a map there is nothing to read
    have hlists : d.Lists refuse w.files [] := .inl ⟨hpresent, rfl⟩
    exact ⟨.ok [], rfl, fun entries => ⟨fun h => Except.ok.inj h ▸ hlists,
      fun h => congrArg Except.ok (eq_of_lists hlists h)⟩⟩

theorem world_readMap {result : Except CatalogError (List Listing)}
    (h : d.readMap.runIn refuse w = (result, w')) : w' = w := by
  obtain ⟨result', hrun, -⟩ := d.runIn_readMap refuse w
  exact (Prod.mk.inj (hrun.symm.trans h)).2.symm

theorem lists_of_readMap {entries : List Listing}
    (h : d.readMap.runIn refuse w = (.ok entries, w')) :
    d.Lists refuse w.files entries := by
  obtain ⟨result, hrun, hlists⟩ := d.runIn_readMap refuse w
  exact (hlists entries).mp (Prod.mk.inj (hrun.symm.trans h)).1

/-- Reading the file for an entry gives its dataset. -/
theorem runIn_readDataset (d : DataDirectory) (refuse : Refusals) (entry : Listing) (w : World) :
    ∃ result, (d.readDataset entry).runIn refuse w = (result, w) ∧
      ∀ x, result = .ok x ↔ d.Opens refuse w.files entry x := by
  unfold readDataset
  rw [Action.runIn_bind, Action.runIn_read]
  rcases hread : refuse.read w.files (d.datasetPath entry.id) with e | content
  · refine ⟨_, rfl, fun x => ⟨nofun, ?_⟩⟩
    rintro ⟨content, envelope, hread', -⟩
    cases hread.symm.trans hread'
  · dsimp only [Except.mapError]
    rcases hdecode : Envelope.ofBytes content with fault | envelope
    · refine ⟨_, rfl, fun x => ⟨nofun, ?_⟩⟩
      rintro ⟨content', envelope, hread', hdecode', -⟩
      obtain rfl := Except.ok.inj (hread.symm.trans hread')
      cases hdecode.symm.trans hdecode'
    · have hiff : ∀ x, d.Opens refuse w.files entry x ↔
          envelope.open? (d.datasetPath entry.id) entry = .ok x := by
        refine fun x => ⟨?_, fun h => ⟨content, envelope, hread, hdecode, h⟩⟩
        rintro ⟨content', envelope', hread', hdecode', hopen⟩
        obtain rfl := Except.ok.inj (hread.symm.trans hread')
        obtain rfl := Except.ok.inj (hdecode.symm.trans hdecode')
        exact hopen
      dsimp only
      rcases hopen : envelope.open? (d.datasetPath entry.id) entry with cause | x
      · refine ⟨_, rfl, fun x => ⟨nofun, fun h => ?_⟩⟩
        cases hopen.symm.trans ((hiff x).mp h)
      · refine ⟨.ok x, rfl, fun y => ?_⟩
        rw [hiff, hopen, Except.ok.injEq, Except.ok.injEq]

/-- The datasets of entries are read into a registry one after the other. -/
theorem runIn_readAll (d : DataDirectory) (refuse : Refusals) (entries : List Listing)
    (r : Registry) (w : World) :
    ∃ result, (Catalog.readAll d entries r).runIn refuse w = (result, w) ∧
      ∀ s, result = .ok s ↔ ∃ l, List.Forall₂ (d.Opens refuse w.files) entries l ∧
        s = l.foldl Registry.insert r := by
  induction entries generalizing r with
  | nil =>
    refine ⟨.ok r, rfl, fun s => ⟨fun h => ⟨[], .nil, (Except.ok.inj h).symm⟩, ?_⟩⟩
    rintro ⟨_, ⟨⟩, rfl⟩
    rfl
  | cons entry entries ih =>
    rw [Catalog.readAll, Action.runIn_bind]
    obtain ⟨first, hrun, hfirst⟩ := d.runIn_readDataset refuse entry w
    rw [hrun]
    rcases first with e | x
    · refine ⟨_, rfl, fun s => ⟨nofun, ?_⟩⟩
      rintro ⟨_, _ | ⟨hopens, -⟩, -⟩
      cases (hfirst _).mpr hopens
    · obtain ⟨result, hrest, hresult⟩ := ih (r.insert x)
      refine ⟨result, hrest, fun s => (hresult s).trans ⟨?_, ?_⟩⟩
      · rintro ⟨l, hl, rfl⟩
        exact ⟨x :: l, .cons ((hfirst x).mp rfl) hl, rfl⟩
      · rintro ⟨_, _ | ⟨hopens, hl⟩, rfl⟩
        obtain rfl := Except.ok.inj ((hfirst _).mpr hopens)
        exact ⟨_, hl, rfl⟩

theorem world_readAll {result : Except CatalogError Registry}
    (h : (Catalog.readAll d entries r).runIn refuse w = (result, w')) : w' = w := by
  obtain ⟨result', hrun, -⟩ := d.runIn_readAll refuse entries r w
  exact (Prod.mk.inj (hrun.symm.trans h)).2.symm

theorem opens_of_readAll {entries : List Listing} {s : Registry}
    (h : (Catalog.readAll d entries r).runIn refuse w = (.ok s, w')) :
    ∃ l, List.Forall₂ (d.Opens refuse w.files) entries l ∧ s = l.foldl Registry.insert r := by
  obtain ⟨result, hrun, hopens⟩ := d.runIn_readAll refuse entries r w
  exact (hopens s).mp (Prod.mk.inj (hrun.symm.trans h)).1

end DataDirectory

namespace Catalog

open Journal (Entry)

variable {c : Catalog}

/-! ### Opening -/

/-- The entry about an orphan. -/
def orphanEntry (id : String) : Entry :=
  Journal.Event.datasetFileOrphaned.entry [("id", id)]

theorem runIn_reportOrphans (ids : List String) (w : World) :
    (reportOrphans ids).runIn refuse w = ((), (ids.map orphanEntry).foldl World.log w) := by
  induction ids generalizing w with
  | nil => rfl
  | cons id ids ih =>
    rw [reportOrphans, Program.runIn_bind]
    exact ih _

variable [FloatReader]

/-- Restoring ends well just if everything can be read, and it registers what was read. -/
theorem runIn_restore_eq_ok_iff : (restore d).runIn refuse w = (.ok c, w') ↔
    refuse.apply w.files (.makeDirectories d.datasetsPath) = .ok (d.prepared w.files) ∧
      ∃ entries l stuck swept, d.Lists refuse (d.prepared w.files) entries ∧
        List.Forall₂ (d.Opens refuse (d.prepared w.files)) entries l ∧
        c = ⟨l.foldl Registry.insert .empty, some d, .zero⟩ ∧
        (d.sweep (entries.map Listing.id)).runIn refuse { w with files := d.prepared w.files } =
          (.ok stuck, swept) ∧
        w' = (stuck.map orphanEntry).foldl World.log swept := by
  rw [restore, Action.runIn_bind_eq_ok_iff]
  constructor
  · -- the steps are taken off the run one by one; what each gave is in the lemma about it
    rintro ⟨_, made, hprepare, h⟩
    obtain ⟨hmade, rfl⟩ := DataDirectory.runIn_prepare_eq_ok_iff.mp hprepare
    obtain ⟨entries, _, hmap, h⟩ := Action.runIn_bind_eq_ok_iff.mp h
    obtain ⟨result, hrun, hlists⟩ := d.runIn_readMap refuse
      { w with files := d.prepared w.files }
    obtain ⟨rfl, rfl⟩ := Prod.mk.inj (hrun.symm.trans hmap)
    obtain ⟨registry, _, hread, h⟩ := Action.runIn_bind_eq_ok_iff.mp h
    obtain ⟨result, hrun, hregistry⟩ := d.runIn_readAll refuse entries .empty
      { w with files := d.prepared w.files }
    obtain ⟨rfl, rfl⟩ := Prod.mk.inj (hrun.symm.trans hread)
    obtain ⟨l, hl, rfl⟩ := (hregistry _).mp rfl
    obtain ⟨stuck, swept, hsweep, h⟩ := Action.runIn_bind_eq_ok_iff.mp h
    rw [Action.runIn_lift_bind, runIn_reportOrphans] at h
    obtain ⟨hc, rfl⟩ := Prod.mk.inj h
    exact ⟨hmade, entries, l, stuck, swept, (hlists _).mp rfl, hl, (Except.ok.inj hc).symm, hsweep,
      rfl⟩
  · rintro ⟨hmade, entries, l, stuck, swept, hlists, hl, rfl, hsweep, rfl⟩
    refine ⟨(), _, DataDirectory.runIn_prepare_eq_ok_iff.mpr ⟨hmade, rfl⟩, ?_⟩
    obtain ⟨result, hrun, hresult⟩ := d.runIn_readMap refuse
      { w with files := d.prepared w.files }
    obtain rfl := (hresult _).mpr hlists
    refine Action.runIn_bind_eq_ok_iff.mpr ⟨_, _, hrun, ?_⟩
    obtain ⟨result, hrun, hresult⟩ := d.runIn_readAll refuse entries .empty
      { w with files := d.prepared w.files }
    obtain rfl := (hresult _).mpr ⟨l, hl, rfl⟩
    refine Action.runIn_bind_eq_ok_iff.mpr ⟨_, _, hrun, ?_⟩
    refine Action.runIn_bind_eq_ok_iff.mpr ⟨_, _, hsweep, ?_⟩
    rw [Action.runIn_lift_bind, runIn_reportOrphans]
    rfl

/-- The last two entries about an opening that ended well. -/
def closed (d : DataDirectory) (c : Catalog) (w : World) : World :=
  (({ w with taken := w.taken + 1 } : World).log ((restoreScope d).completed
    [("datasets", toString c.registry.size)] (w.readings w.taken .elapsed))).log
    (Journal.Event.catalogLoaded.entry [("datasets", toString c.registry.size)])

/-- Around the restoring there are only entries in the journal. -/
theorem runIn_openAt (d : DataDirectory) (w : World) : (openAt d).runIn refuse w =
    match (restore d).runIn refuse (w.log (restoreScope d).begun) with
    | (.ok c, restored) => (.ok c, closed d c restored)
    | (.error e, restored) =>
      (.error e, restored.log ((restoreScope d).failed e.severity e.message)) := by
  show (Program.log _ >>= fun _ => (restore d).run >>= _).runIn refuse w = _
  rw [Program.runIn_bind, Program.runIn_log, Program.runIn_bind]
  show _ = match (restore d).run.runIn refuse _ with
    | (.ok c, restored) => _
    | (.error e, restored) => _
  rcases (restore d).run.runIn refuse (w.log (restoreScope d).begun) with ⟨e | c, restored⟩
  · rfl
  · rfl

/-- Opening ends well just if restoring does. -/
theorem runIn_openAt_eq_ok_iff : (openAt d).runIn refuse w = (.ok c, w') ↔
    ∃ restored, (restore d).runIn refuse (w.log (restoreScope d).begun) = (.ok c, restored) ∧
      w' = closed d c restored := by
  rw [runIn_openAt]
  constructor
  · intro h
    split at h
    · rename_i c' restored hrestore
      cases h
      exact ⟨restored, hrestore, rfl⟩
    · cases h
  · rintro ⟨restored, hrestore, rfl⟩
    rw [hrestore]

/-- An opening that fails leaves the files as the restoring left them. -/
theorem restore_of_openAt_error {e : CatalogError}
    (h : (openAt d).runIn refuse w = (.error e, w')) :
    ∃ restored, (restore d).runIn refuse (w.log (restoreScope d).begun) = (.error e, restored) ∧
      w'.files = restored.files := by
  rw [runIn_openAt] at h
  split at h
  · cases h
  · rename_i e' restored hrestore
    cases h
    exact ⟨restored, hrestore, World.files_log _ _⟩

end Catalog

end CampusQuery
