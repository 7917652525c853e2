/-
CampusQuery/Proofs/Catalog/Footprint.lean

A call that fails has no visible effect, and touches few places.

The catalog was opened and used in a session that began with an empty directory
(`Session.Reached`), and may have been used further while its directory was changed by others
(`Catalog.Becomes`).  One invariant is enough for what follows (`Session.Sound`): the ids of
its datasets have no slashes, so the files of different datasets and the map have places of
their own.  Then a call that fails on any files at all leaves the map and the files of the
registered datasets as they are (`Session.Reached.failure_is_bounded`).
-/
import CampusQuery.Proofs.Catalog.Session
import CampusQuery.Proofs.Catalog.Written
import CampusQuery.Proofs.Storage.Removal

namespace CampusQuery

open Program (Runs)
open FileTree (NoNewFiles Spares)

variable {faults : Faults} {t t' u : FileTree} {r r' : Registry} {c c' : Catalog} {e : Edit}
variable {d : DataDirectory}

/-! ### What is registered -/

/-- The entry of a dataset that can be registered. -/
structure Listing.Proper (l : Listing) : Prop where
  id : isDatasetId l.id = true
  numRows : l.numRows < 2 ^ 64

/-- Every dataset has an entry that can be listed. -/
def Registry.Proper (r : Registry) : Prop := ∀ x ∈ r.datasets, x.listing.Proper

/-- The number of the records has 64 bits. -/
def Edit.Sized : Edit → Prop
  | .add _ _ records => records.length < 2 ^ 64
  | .remove _ => True

/-- The number of the records has 64 bits. -/
def Call.Sized : Call → Prop
  | .edit e => e.Sized
  | .reopen => True

theorem Registry.Proper.of_outcome (hsized : e.Sized) (h : e.outcome r = .ok r')
    (hr : r.Proper) : r'.Proper := by
  rcases e with ⟨id, kind, records⟩ | id
  · obtain ⟨x, hcheck, rfl⟩ := map_eq_ok_iff.mp h
    obtain ⟨rfl, hvalid, -, -, hrecords⟩ := Catalog.checkAddition_eq_ok hcheck
    intro y hy
    rcases Registry.mem_of_mem_insertInto hy with rfl | hy
    · refine ⟨hvalid, ?_⟩
      show y.store.records.size < 2 ^ 64
      rw [← Array.length_toList, hrecords]
      exact hsized
    · exact hr y hy
  · obtain ⟨_, -, rfl⟩ := map_eq_ok_iff.mp h
    exact fun y hy => hr y (List.mem_of_mem_filter hy)

namespace DataDirectory

theorem eq_of_mem_below {names : List String} {place place' : Place} (h : place ∈ d.below names)
    (h' : place' ∈ d.below names) : place = place' := by
  obtain ⟨home, hhome, rfl⟩ := h
  obtain ⟨home', hhome', rfl⟩ := h'
  rw [Option.some.inj (hhome.symm.trans hhome')]

variable [FloatReader]

/-- If the map can be read, its entries are those of datasets that can be registered. -/
def ProperMap (d : DataDirectory) (t : FileTree) : Prop :=
  ∀ place ∈ d.below ["catalog.json"], ∀ content m, t.get? place = some (.file content) →
    CatalogMap.ofBytes content = .ok m → ∀ l ∈ m.datasets, l.Proper

theorem ofBytes_listings (hr : r.Proper) (updatedAt : String) :
    CatalogMap.ofBytes (CatalogMap.toBytes ⟨updatedAt, r.listings⟩) =
      .ok ⟨updatedAt, r.listings⟩ := by
  refine CatalogMap.ofBytes_toBytes fun l hl => ?_
  obtain ⟨x, hx, rfl⟩ := Registry.mem_listings.mp hl
  exact (hr x hx).numRows

theorem properMap_of_read (hr : r.Proper) {updatedAt : String}
    (h : t.read d.mapPath = .ok (CatalogMap.toBytes ⟨updatedAt, r.listings⟩)) :
    d.ProperMap t := by
  intro place hplace content m hfile hm l hl
  obtain ⟨place', hlocate, hfile', -⟩ := FileTree.read_eq_ok_iff.mp h
  obtain rfl := eq_of_mem_below hplace (mem_below_mapPath (FileTree.place?_of_locate hlocate))
  cases hfile.symm.trans hfile'
  cases hm.symm.trans (ofBytes_listings hr updatedAt)
  obtain ⟨x, hx, rfl⟩ := Registry.mem_listings.mp hl
  exact hr x hx

theorem ProperMap.of_noNewFiles (hnone : NoNewFiles t u) (h : d.ProperMap t) : d.ProperMap u :=
  fun place hplace content m hfile => h place hplace content m (hnone place content hfile)

theorem ProperMap.of_footprint {id : String} (hs : Spares t u (d.footprint r id))
    (h : d.ProperMap t) : d.ProperMap u := by
  intro place hplace content m hfile
  rw [hs.elsewhere place fun hmem => not_mem_mapPath_of_footprint hmem hplace] at hfile
  exact h place hplace content m hfile

/-- What is opened on such files can be registered. -/
theorem ProperMap.registry (h : d.ProperMap t) (hlisted : d.Listed t c) : c.registry.Proper := by
  obtain ⟨t', entries, hnone, hlists, hentries⟩ := hlisted
  intro x hx
  have hentry := hentries x hx
  rcases hlists with ⟨-, rfl⟩ | ⟨content, m, hread, hm, rfl⟩
  · cases hentry
  · obtain ⟨place, hlocate, hfile, -⟩ := FileTree.read_eq_ok_iff.mp hread
    exact h place (mem_below_mapPath (FileTree.place?_of_locate hlocate)) content m
      (hnone place content hfile) hm _ hentry

end DataDirectory

/-! ### Catalogs in use -/

namespace Catalog

/-- The catalog is stored in the directory, and its datasets can be registered. -/
structure Sound (d : DataDirectory) (c : Catalog) : Prop where
  directory : c.directory = some d
  registry : c.registry.Proper

/-- A query, or an edit that succeeds, makes one catalog of another, on files of any kind. -/
inductive Becomes : Catalog → Catalog → Prop
  | edit {c c' : Catalog} {e : Edit} {ids : List String} {t u : FileTree} (hsized : e.Sized)
      (h : Runs .any (e.perform c) t (.ok ids, c') u) : Becomes c c'
  | query {c c' : Catalog} {document : Json} {answer : Except QueryFailure Answer}
      {t u : FileTree} (h : Runs .any (c.query document) t (answer, c') u) : Becomes c c'

theorem silent_queryRegistry (r : Registry) (document : Json) :
    (queryRegistry r document).Silent :=
  (Program.silent_take _).bind fun _ => (Program.silent_take _).bind fun _ =>
    (Program.silent_log _).bind fun _ => trivial

/-- A query changes the counters only. -/
theorem runs_query {document : Json} {answer : Except QueryFailure Answer}
    (h : Runs faults (c.query document) t (answer, c') u) :
    u = t ∧ c' = { c with metrics := countOutcome c.metrics answer } := by
  obtain ⟨result, t', hquery, hreturn⟩ := Program.runs_bind h
  obtain ⟨he, rfl⟩ := Program.runs_pure hreturn
  cases he
  exact ⟨(silent_queryRegistry _ _).runs hquery, rfl⟩

/-- A query returns what the registry answers. -/
theorem answer_of_runs_query {document : Json} {answer : Except QueryFailure Answer}
    (h : Runs faults (c.query document) t (answer, c') u) :
    answer = c.registry.view.answer document := by
  obtain ⟨result, _, hquery, hreturn⟩ := Program.runs_bind h
  obtain ⟨he, -⟩ := Program.runs_pure hreturn
  cases he
  obtain ⟨name, _, -, hquery⟩ := Program.runs_bind hquery
  obtain ⟨elapsed, _, -, hquery⟩ := Program.runs_bind hquery
  obtain ⟨_, _, -, hreturn⟩ := Program.runs_bind hquery
  exact (Program.runs_pure hreturn).1

theorem Sound.edited [FloatReader] {ids : List String} (h : c.Sound d) (hsized : e.Sized)
    (hrun : Runs faults (e.perform c) t (.ok ids, c') u) :
    c'.Sound d ∧ d.ProperMap u := by
  rcases Edit.runs_perform_written h.directory hrun with
    ⟨_, updatedAt, -, houtcome, hdirectory, -, hmap⟩ | ⟨failure, he, -⟩
  · have hproper := h.registry.of_outcome hsized houtcome
    exact ⟨⟨hdirectory, hproper⟩, DataDirectory.properMap_of_read hproper hmap⟩
  · cases he

theorem Sound.queried {document : Json} {answer : Except QueryFailure Answer} (h : c.Sound d)
    (hrun : Runs faults (c.query document) t (answer, c') u) : c'.Sound d := by
  obtain ⟨-, rfl⟩ := runs_query hrun
  exact ⟨h.directory, h.registry⟩

theorem Sound.becomes [FloatReader] (h : c.Sound d)
    (hlater : Relation.ReflTransGen Becomes c c') : c'.Sound d := by
  induction hlater with
  | refl => exact h
  | tail _ hnext ih =>
    cases hnext with
    | edit hsized hrun => exact (ih.edited hsized hrun).1
    | query hrun => exact ih.queried hrun

/-- **A call that fails** leaves the catalog, the map and the files of registered datasets as they
are, and all other places but those of the footprint. -/
theorem Sound.failed {failure : CatalogError} (h : c.Sound d)
    (hrun : Runs faults (e.perform c) t (.error failure, c') u) :
    c' = c ∧ Spares t u (d.footprint c.registry e.id) ∧
      (∀ content, u.read d.mapPath = .ok content ↔ t.read d.mapPath = .ok content) ∧
      (∀ x ∈ c.registry.datasets, ∀ content,
        u.read (d.datasetPath x.id) = .ok content ↔ t.read (d.datasetPath x.id) = .ok content) ∧
      (failure.code ≠ "CAMPUS_STORAGE_IO" → u = t) := by
  rcases Edit.runs_perform_written h.directory hrun with ⟨_, _, he, -⟩ | ⟨_, he, hsame, hfailed⟩
  · cases he
  · cases he
    have hs : Spares t u (d.footprint c.registry e.id) := by
      rcases hfailed with rfl | ⟨-, hs⟩
      · exact .refl _ _
      · exact hs
    refine ⟨hsame, hs, fun content => ?_, fun x hx content => ?_, fun hcode => ?_⟩
    · exact FileTree.read_eq_ok_iff_of_spares hs fun place hplace hmem =>
        DataDirectory.not_mem_mapPath_of_footprint hmem (DataDirectory.mem_below_mapPath hplace)
    · have hslash := DataDirectory.noSlash_of_isDatasetId (h.registry x hx).id
      exact FileTree.read_eq_ok_iff_of_spares hs fun place hplace hmem =>
        DataDirectory.not_mem_datasetPath_of_footprint hx hmem
          (DataDirectory.mem_below_datasetPath hslash hplace)
    · exact hfailed.resolve_right fun hstorage => hcode hstorage.1

/-- A removal that succeeds leaves a map that does not list the dataset. -/
theorem Sound.removed [FloatReader] {id : String} {ids : List String} (h : c.Sound d)
    (hrun : Runs faults ((Edit.remove id).perform c) t (.ok ids, c') u) :
    c'.registry = c.registry.erase id ∧ ∃ content updatedAt, u.read d.mapPath = .ok content ∧
      CatalogMap.ofBytes content = .ok ⟨updatedAt, c'.registry.listings⟩ ∧
      ∀ l ∈ c'.registry.listings, l.id ≠ id := by
  rcases Edit.runs_perform_written h.directory hrun with
    ⟨_, updatedAt, -, houtcome, -, -, hmap⟩ | ⟨_, he, -⟩
  · have hproper := h.registry.of_outcome (e := .remove id) trivial houtcome
    obtain ⟨_, -, hregistry⟩ := map_eq_ok_iff.mp houtcome
    refine ⟨hregistry.symm, _, updatedAt, hmap,
      DataDirectory.ofBytes_listings hproper updatedAt, fun l hl => ?_⟩
    obtain ⟨x, hx, rfl⟩ := Registry.mem_listings.mp hl
    rw [← hregistry] at hx
    exact DataDirectory.ne_id_of_mem_erase hx
  · cases he

end Catalog

/-! ### Sessions -/

namespace Session

variable {start : FileTree} {s s' : Session} {call : Call}
variable {result : Except CatalogError Catalog}

section Calls

variable [FloatReader]

/-- What is open, and what could be opened, can be registered. -/
structure Sound (d : DataDirectory) (s : Session) : Prop where
  map : d.ProperMap s.files
  catalog : ∀ c, s.catalog = some c → c.Sound d

theorem Sound.step (hsized : call.Sized) (hstep : Step d faults s call result s')
    (h : s.Sound d) : s'.Sound d := by
  cases hstep with
  | @edited c c' t u e ids hrun =>
    obtain ⟨hsound, hmap⟩ := (h.catalog c rfl).edited hsized hrun
    exact ⟨hmap, fun _ he => Option.some.inj he ▸ hsound⟩
  | @failed c c' t u e failure hrun =>
    obtain ⟨rfl, hs, -⟩ := (h.catalog c rfl).failed hrun
    exact ⟨h.map.of_footprint hs, h.catalog⟩
  | @opened old c t u hrun =>
    obtain ⟨hnone, hopened⟩ := DataDirectory.runs_openAt_listed hrun
    obtain ⟨hdirectory, hlisted⟩ := hopened c rfl
    exact ⟨h.map.of_noNewFiles hnone,
      fun _ he => Option.some.inj he ▸ ⟨hdirectory, h.map.registry hlisted⟩⟩
  | @unopened old t u failure hrun =>
    exact ⟨h.map.of_noNewFiles (DataDirectory.runs_openAt_listed hrun).1, nofun⟩

/-- The session can be reached by calls and queries. -/
inductive Reached (d : DataDirectory) (start : FileTree) : Session → Prop
  | begin : Reached d start ⟨none, start⟩
  | call {s s' : Session} {call : Call} {result : Except CatalogError Catalog}
      (h : Reached d start s) (hsized : call.Sized) (hstep : Step d .any s call result s') :
      Reached d start s'
  | query {c c' : Catalog} {t u : FileTree} {document : Json}
      {answer : Except QueryFailure Answer} (h : Reached d start ⟨some c, t⟩)
      (hquery : Runs .any (c.query document) t (answer, c') u) : Reached d start ⟨some c', u⟩

theorem Reached.sound (hempty : d.IsEmpty start) (h : Reached d start s) : s.Sound d := by
  induction h with
  | begin =>
    refine ⟨fun place hplace content m hfile => ?_, nofun⟩
    cases (hempty _ (by simp) place hplace).symm.trans hfile
  | call _ hsized hstep ih => exact ih.step hsized hstep
  | query _ hquery ih =>
    obtain ⟨hu, -⟩ := Catalog.runs_query hquery
    exact ⟨hu ▸ ih.map, fun _ he => Option.some.inj he ▸ (ih.catalog _ rfl).queried hquery⟩

/-- **A call that fails has no visible effect.**  It is made on a catalog that a session
reached, and that may have been used further, on files of any kind, with any access failing.
The catalog is as before, and so are the bytes of the map and of the file of each registered
dataset; what changed is the temporary file of the map, or the file or temporary file of the
dataset that the call is about, which is then not registered; and unless the storage failed,
nothing changed.  A removal that succeeds leaves a map that does not list the dataset. -/
theorem Reached.failure_is_bounded (hempty : d.IsEmpty start) (hreached : Reached d start s)
    {opened : Catalog} (hopened : s.catalog = some opened)
    (hlater : Relation.ReflTransGen Catalog.Becomes opened c)
    (hstep : Step d .any ⟨some c, t⟩ (.edit e) result s') :
    (∀ failure, result = .error failure →
      s'.catalog = some c ∧
      (∀ content, s'.files.read d.mapPath = .ok content ↔ t.read d.mapPath = .ok content) ∧
      (∀ x ∈ c.registry.datasets, ∀ content, s'.files.read (d.datasetPath x.id) = .ok content ↔
        t.read (d.datasetPath x.id) = .ok content) ∧
      (∀ place, s'.files.get? place ≠ t.get? place →
        place ∈ d.below ["catalog.json.tmp"] ∨ c.registry.contains e.id = false ∧
          (place ∈ d.below ["datasets", e.id ++ ".json.tmp"] ∨
            place ∈ d.below ["datasets", e.id ++ ".json"])) ∧
      (failure.code ≠ "CAMPUS_STORAGE_IO" → s'.files = t)) ∧
    ∀ id c', e = .remove id → result = .ok c' →
      s'.catalog = some c' ∧ c'.registry = c.registry.erase id ∧
      ∃ content updatedAt, s'.files.read d.mapPath = .ok content ∧
        CatalogMap.ofBytes content = .ok ⟨updatedAt, c'.registry.listings⟩ ∧
        ∀ l ∈ c'.registry.listings, l.id ≠ id := by
  have hsound : c.Sound d := ((hreached.sound hempty).catalog opened hopened).becomes hlater
  cases hstep with
  | @edited _ c' _ u _ ids hedit =>
    refine ⟨nofun, ?_⟩
    rintro id _ rfl ⟨⟩
    exact ⟨rfl, hsound.removed hedit⟩
  | @failed _ c' _ u _ failure hedit =>
    refine ⟨?_, nofun⟩
    rintro _ ⟨⟩
    obtain ⟨rfl, hs, hmap, hdatasets, huntouched⟩ := hsound.failed hedit
    refine ⟨rfl, hmap, hdatasets, fun place hchanged => ?_, huntouched⟩
    have hmem : place ∈ d.footprint c'.registry e.id := by
      by_contra hout
      exact hchanged (hs.elsewhere place hout)
    rcases hmem with ⟨hnew, htemporary | hfile⟩ | hmap
    · refine .inr ⟨hnew, .inl ?_⟩
      rwa [DataDirectory.fileName, String.append_assoc] at htemporary
    · exact .inr ⟨hnew, .inr hfile⟩
    · exact .inl hmap

end Calls

section Sample

attribute [local instance] FloatReader.nearest

/-- A directory stands where the map is written first. -/
def sampleBlocked : FileTree :=
  ⟨[(["data"], .directory), (["data", "catalog.json.tmp"], .directory),
    (["data", "catalog.json"], .file "{}".toUTF8)]⟩

theorem remove_fails_sample : ∃ e c, (((Edit.remove "rooms").perform sampleAdded).run
    { sampleWorld with files := sampleBlocked }).1 = (.error e, c) := by
  rcases hrun : (((Edit.remove "rooms").perform sampleAdded).run
    { sampleWorld with files := sampleBlocked }).1 with ⟨e | ids, c⟩
  · exact ⟨e, c, rfl⟩
  · have hfails : (((Edit.remove "rooms").perform sampleAdded).run
        { sampleWorld with files := sampleBlocked }).1.1.isOk = false := by decide +kernel
    rw [hrun] at hfails
    cases hfails

/-- A session opens the catalog and adds the room. -/
theorem reached_sample : ∃ files, Reached sampleDirectory .empty ⟨some sampleAdded, files⟩ := by
  have hany : ∀ t a e, Faults.genuine t a e → Faults.any t a e := fun _ _ _ _ => trivial
  have hopening := Program.runs_run (Catalog.openAt sampleDirectory).run sampleWorld
  rw [sample_opens.1] at hopening
  have hadding := Program.runs_run (sampleEdit.perform sampleCatalog) sampleOpened
  rw [run_sampleEdit] at hadding
  have hfirst : Call.reopen.Sized := trivial
  have hsecond : (Call.edit sampleEdit).Sized := storable_sampleEdit.2
  exact ⟨_, .call (.call .begin hfirst (.opened (hopening.mono hany))) hsecond
    (.edited (hadding.mono hany))⟩

theorem failure_is_bounded_sample :
    ∃ s t result s', sampleDirectory.IsEmpty .empty ∧ Reached sampleDirectory .empty s ∧
      s.catalog = some sampleAdded ∧
      Relation.ReflTransGen Catalog.Becomes sampleAdded sampleAdded ∧
      Step sampleDirectory .any ⟨some sampleAdded, t⟩ (.edit (.remove "rooms")) result s' ∧
      ∃ failure, result = .error failure ∧ s'.catalog = some sampleAdded ∧
        (∀ content, s'.files.read sampleDirectory.mapPath = .ok content ↔
          t.read sampleDirectory.mapPath = .ok content) ∧
        (∀ x ∈ sampleAdded.registry.datasets, ∀ content,
          s'.files.read (sampleDirectory.datasetPath x.id) = .ok content ↔
            t.read (sampleDirectory.datasetPath x.id) = .ok content) ∧
        ∀ place, s'.files.get? place ≠ t.get? place →
          place ∈ sampleDirectory.below ["catalog.json.tmp"] := by
  have hany : ∀ t a e, Faults.genuine t a e → Faults.any t a e := fun _ _ _ _ => trivial
  obtain ⟨files, hreached⟩ := reached_sample
  -- the catalog is used on files in which the map cannot be written
  obtain ⟨failure, c, hfailure⟩ := remove_fails_sample
  have hremoving := Program.runs_run ((Edit.remove "rooms").perform sampleAdded)
    { sampleWorld with files := sampleBlocked }
  rw [hfailure] at hremoving
  have hstep := Step.failed (d := sampleDirectory) (hremoving.mono hany)
  obtain ⟨hcatalog, hmap, hdatasets, hplaces, -⟩ :=
    (hreached.failure_is_bounded isEmpty_sample rfl .refl hstep).1 failure rfl
  refine ⟨_, _, _, _, isEmpty_sample, hreached, rfl, .refl, hstep, failure, rfl, hcatalog,
    hmap, hdatasets, fun place hchanged => ?_⟩
  rcases hplaces place hchanged with hplace | ⟨hnew, -⟩
  · exact hplace
  · cases hnew

end Sample

end Session

end CampusQuery
