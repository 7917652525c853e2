/-
CampusQuery/Proofs/Catalog/Session.lean

A stored catalog is a finite map, whatever fails.

A session makes calls on the catalog of one data directory, in which nobody else
writes, and opens it again at any time; after an opening that failed no catalog is open.
Every access to the files can fail.  The map of the session is what those calls make of
the empty map that succeeded (`contentsAfter`).  One invariant relates the two
(`Session.Holds`): the files hold a registry with these contents, and a catalog that is
open has this very registry.
-/
import CampusQuery.Proofs.Catalog.Opened

namespace CampusQuery

open Program (Runs)

/-! ### Sessions -/

/-- A call of a session. -/
inductive Call where
  | edit (e : Edit)
  | reopen

/-- What the call brings can be stored. -/
def Call.Storable : Call → Prop
  | .edit e => e.Storable
  | .reopen => True

/-- The catalog if one is open, and the files. -/
structure Session where
  catalog : Option Catalog
  files : FileTree

/-- Nothing stands in the data directory, which need not be there itself. -/
def DataDirectory.IsEmpty (d : DataDirectory) (t : FileTree) : Prop :=
  ∀ names ≠ [], ∀ place ∈ d.below names, t.get? place = none

/-- The storage failed. -/
def IsStorageFailure (result : Except CatalogError Catalog) : Prop :=
  ∃ e, result = .error e ∧ e.code = "CAMPUS_STORAGE_IO"

namespace Session

variable {d : DataDirectory} {faults : Faults} {start : FileTree} {s s' : Session} {call : Call}
variable {result : Except CatalogError Catalog} {m : String → Option (Kind × List Record)}
variable {history : List (Call × Except CatalogError Catalog)}

/-- The call gives what it gives in memory for a catalog with the contents `m`, or the
storage failed. -/
def Agrees (m : String → Option (Kind × List Record)) (result : Except CatalogError Catalog) :
    Call → Prop
  | .edit e => IsStorageFailure result ∨
      ∀ (c : Catalog) (w : World), c.directory = none → c.registry.contents = m →
        ((e.perform c).run w).1.1.map (fun _ => ((e.perform c).run w).1.2.registry) =
          result.map Catalog.registry
  | .reopen => IsStorageFailure result ∨ ∃ c, result = .ok c ∧ c.registry.contents = m

/-- A call has its outcome in memory. -/
theorem agrees_of_outcome {c : Catalog} {e : Edit}
    (h : e.outcome c.registry = result.map Catalog.registry) :
    Agrees c.registry.contents result (.edit e) := by
  refine .inr fun c' w hmemory hcontents => ?_
  rw [Edit.runs_perform_inMemory hmemory (Program.runs_run _ w),
    Registry.contents_inj.mp hcontents, h]

section Calls

variable [FloatReader]

/-- A call with its result, and with the catalog that it leaves open.  The result of an edit
that succeeds is the catalog after it.  An opening that fails leaves no catalog open. -/
inductive Step (d : DataDirectory) (faults : Faults) :
    Session → Call → Except CatalogError Catalog → Session → Prop
  | edited {c c' : Catalog} {t u : FileTree} {e : Edit} {ids : List String}
      (h : Runs faults (e.perform c) t (.ok ids, c') u) :
      Step d faults ⟨some c, t⟩ (.edit e) (.ok c') ⟨some c', u⟩
  | failed {c c' : Catalog} {t u : FileTree} {e : Edit} {failure : CatalogError}
      (h : Runs faults (e.perform c) t (.error failure, c') u) :
      Step d faults ⟨some c, t⟩ (.edit e) (.error failure) ⟨some c', u⟩
  | opened {old : Option Catalog} {c : Catalog} {t u : FileTree}
      (h : Runs faults (Catalog.openAt d).run t (.ok c) u) :
      Step d faults ⟨old, t⟩ .reopen (.ok c) ⟨some c, u⟩
  | unopened {old : Option Catalog} {t u : FileTree} {failure : CatalogError}
      (h : Runs faults (Catalog.openAt d).run t (.error failure) u) :
      Step d faults ⟨old, t⟩ .reopen (.error failure) ⟨none, u⟩

/-- The session after calls, which are listed with their results in the order in which
they were made. -/
inductive Run (d : DataDirectory) (faults : Faults) (start : FileTree) :
    List (Call × Except CatalogError Catalog) → Session → Prop
  | begin : Run d faults start [] ⟨none, start⟩
  | step {history : List (Call × Except CatalogError Catalog)} {s s' : Session} {call : Call}
      {result : Except CatalogError Catalog} (h : Run d faults start history s)
      (hstep : Step d faults s call result s') :
      Run d faults start (history ++ [(call, result)]) s'

/-- What a call makes of a finite map: nothing new if it failed. -/
def update (m : String → Option (Kind × List Record)) :
    Call × Except CatalogError Catalog → String → Option (Kind × List Record)
  | (.edit e, .ok _) => e.update m
  | _ => m

/-- What calls make of the empty map. -/
def contentsAfter (history : List (Call × Except CatalogError Catalog)) :
    String → Option (Kind × List Record) :=
  history.foldl update fun _ => none

/-! ### The invariant -/

/-- The files hold a registry with the contents `m`, and a catalog that is open has this
registry and can be opened again. -/
def Holds (d : DataDirectory) (s : Session) (m : String → Option (Kind × List Record)) : Prop :=
  ∃ r, d.Holds s.files r ∧ r.contents = m ∧
    ∀ c, s.catalog = some c → c.registry = r ∧ c.directory = some d ∧ d.Stores s.files r

theorem holds_of_isEmpty {t : FileTree} (h : d.IsEmpty t) : d.Holds t .empty where
  ids _ hx := absurd hx List.not_mem_nil
  sizes _ hx := absurd hx List.not_mem_nil
  datasets _ hx := absurd hx List.not_mem_nil
  names place hplace name hname := by
    obtain ⟨home, hhome, rfl⟩ := d.path.place?_join DataDirectory.isFileName_datasets hplace
    exact absurd (h ["datasets", name] (by simp) _ ⟨home, hhome, by simp⟩) hname
  map := by
    refine .inl ⟨rfl, fun place hplace content hget => ?_⟩
    rw [h _ (by simp) place (DataDirectory.mem_below_mapPath hplace)] at hget
    cases hget

/-- A step keeps the invariant, and its result agrees with that in memory. -/
theorem Holds.step [FloatReader.Exact] (hstorable : call.Storable)
    (hstep : Step d faults s call result s') (h : Holds d s m) :
    Holds d s' (update m (call, result)) ∧ Agrees m result call := by
  obtain ⟨r, hheld, rfl, hopen⟩ := h
  cases hstep with
  | @edited c c' t u e ids hrun =>
    obtain ⟨rfl, hdirectory, hstores⟩ := hopen c rfl
    have hsame := (Edit.stops_perform hdirectory hheld hstorable hrun.stops).2
    rcases Edit.runs_perform hdirectory hheld hstorable hrun with
      ⟨_, -, houtcome, hdirectory', hheld'⟩ | ⟨failure, he, -⟩
    · refine ⟨⟨c'.registry, hheld', Edit.contents_of_outcome houtcome, ?_⟩,
        agrees_of_outcome houtcome⟩
      rintro _ ⟨⟩
      exact ⟨rfl, hdirectory', hstores.of_sameDirectories hsame hheld'⟩
    · cases he
  | @failed c c' t u e failure hrun =>
    obtain ⟨rfl, hdirectory, hstores⟩ := hopen c rfl
    have hsame := (Edit.stops_perform hdirectory hheld hstorable hrun.stops).2
    rcases Edit.runs_perform hdirectory hheld hstorable hrun with
      ⟨_, he, -⟩ | ⟨_, he, hsame', hheld', hwhy⟩
    · cases he
    · cases he
      cases hsame'
      -- refused or failed, the call left the open catalog and the registry as they are
      refine ⟨⟨c.registry, hheld', rfl, ?_⟩, ?_⟩
      · rintro _ ⟨⟩
        exact ⟨rfl, hdirectory, hstores.of_sameDirectories hsame hheld'⟩
      · rcases hwhy with houtcome | hcode
        · exact agrees_of_outcome houtcome
        · exact .inl ⟨failure, rfl, hcode⟩
  | @opened old c t u hrun =>
    obtain ⟨hheld', ⟨he, hstores⟩ | ⟨⟨_, he, -⟩, -⟩⟩ := DataDirectory.runs_openAt hheld hrun
    · cases he
      refine ⟨⟨r, hheld', rfl, ?_⟩, .inr ⟨_, rfl, rfl⟩⟩
      rintro _ ⟨⟩
      exact ⟨rfl, rfl, hstores⟩
    · cases he
  | @unopened old t u failure hrun =>
    obtain ⟨hheld', ⟨he, -⟩ | ⟨herror, -⟩⟩ := DataDirectory.runs_openAt hheld hrun
    · cases he
    · exact ⟨⟨r, hheld', rfl, nofun⟩, .inl herror⟩

/-- The invariant holds after any number of calls. -/
theorem Run.holds [FloatReader.Exact] (hempty : d.IsEmpty start)
    (hrun : Run d faults start history s) (hstorable : ∀ x ∈ history, x.1.Storable) :
    Holds d s (contentsAfter history) := by
  induction hrun with
  | begin => exact ⟨.empty, holds_of_isEmpty hempty, Registry.contents_empty, nofun⟩
  | step _ hstep ih =>
    have hbefore := ih fun x hx => hstorable x (List.mem_append_left _ hx)
    have hcall := hstorable _ (List.mem_append_right _ (List.mem_singleton_self _))
    have hafter := (hbefore.step hcall hstep).1
    rw [contentsAfter, List.foldl_append]
    exact hafter

/-! ### The refinement -/

end Calls

section Sample

attribute [local instance] FloatReader.nearest

/-- The directory `data`. -/
def sampleDirectory : DataDirectory := ⟨⟨"data"⟩⟩

/-- A world without files. -/
def sampleWorld : World := ⟨.empty, .empty, fun _ _ => "", 0, .fatal, [], []⟩

/-- One room. -/
def sampleStore : RecordStore where
  kind := .rooms
  records := #[.room ⟨"Orchard Commons", "ORCH", "1001", "ORCH_1001", "6363 Agronomy Road",
    .ofInt 49, .ofInt (-123), 72, "Open Design", "Tables", ""⟩]
  ofKind := by decide
  distinct := by decide

/-- Adds the room. -/
def sampleEdit : Edit := .add "rooms" .rooms sampleStore.records.toList

theorem storable_sampleEdit : sampleEdit.Storable := by
  refine ⟨fun x hx => ?_, by decide⟩
  obtain rfl := List.mem_singleton.mp hx
  exact ⟨by decide +kernel, by decide +kernel, by decide +kernel, by decide +kernel⟩

theorem checkAddition_sample : Catalog.checkAddition .empty "rooms" .rooms
    sampleStore.records.toList = .ok ⟨"rooms", sampleStore⟩ := by
  have hstore : RecordStore.ofRecords .rooms sampleStore.records.toList = .ok sampleStore :=
    sampleStore.ofRecords_records
  rw [Catalog.checkAddition, if_neg (by decide +kernel), if_neg (by decide), if_neg (by decide),
    hstore]

theorem isEmpty_sample : sampleDirectory.IsEmpty .empty := by
  rintro names hnames place ⟨home, -, rfl⟩
  rw [FileTree.get?_of_ne_nil (by simp [hnames])]
  rfl

/-- The catalog of the directory `data` when it is opened first. -/
def sampleCatalog : Catalog := ⟨.empty, some sampleDirectory, .zero⟩

/-- The world after that. -/
def sampleOpened : World := ((Catalog.openAt sampleDirectory).run.run sampleWorld).2

theorem sample_opens :
    ((Catalog.openAt sampleDirectory).run.run sampleWorld).1 = .ok sampleCatalog ∧
    sampleDirectory.Stores sampleOpened.files .empty := by
  have hrun := Program.runs_run (Catalog.openAt sampleDirectory).run sampleWorld
  obtain ⟨c, hc⟩ : ∃ c, ((Catalog.openAt sampleDirectory).run.run sampleWorld).1 = .ok c :=
    exists_of_isOk (by decide +kernel)
  obtain ⟨-, hopened | ⟨⟨_, he, -⟩, -⟩⟩ :=
    DataDirectory.runs_openAt (holds_of_isEmpty isEmpty_sample) hrun
  · exact hopened
  · cases hc.symm.trans he

/-- What an edit answers that succeeds, and the catalog after it. -/
theorem exists_of_succeeds {answered : Except CatalogError (List String) × Catalog}
    (h : answered.1.isOk = true) : ∃ ids c, answered = (.ok ids, c) := by
  obtain ⟨ids, hids⟩ := exists_of_isOk h
  exact ⟨ids, answered.2, Prod.ext hids rfl⟩

theorem sample_adds : ∃ ids c, ((sampleEdit.perform sampleCatalog).run sampleOpened).1 =
    (.ok ids, c) := by
  refine exists_of_succeeds ?_
  rw [sampleEdit, Edit.perform, Catalog.add, sampleCatalog, checkAddition_sample]
  decide +kernel

/-- Once the room was added to an empty catalog, it is registered, and nothing else is. -/
theorem result_sampleEdit {c c' : Catalog} {w : World} {ids : List String}
    (hempty : c.registry = .empty) (h : ((sampleEdit.perform c).run w).1 = (.ok ids, c')) :
    ids = ["rooms"] ∧ c' = { c with registry := Registry.empty.insert ⟨"rooms", sampleStore⟩
                                    metrics := c.metrics.countAdded } := by
  have hrun := Program.runs_run (sampleEdit.perform c) w
  rw [h] at hrun
  rcases Catalog.runs_add hrun with ⟨_, -, he, -⟩ |
    ⟨x, stored, hcheck, -, ⟨_, -, he, -⟩ | ⟨-, hids, rfl⟩⟩
  · cases he
  · cases he
  · rw [hempty] at hcheck hids ⊢
    obtain rfl := Except.ok.inj (checkAddition_sample.symm.trans hcheck)
    rw [Registry.ids_eq] at hids
    exact ⟨Except.ok.inj hids, rfl⟩

/-- The catalog of the directory `data` after the room was added. -/
def sampleAdded : Catalog :=
  ⟨Registry.empty.insert ⟨"rooms", sampleStore⟩, some sampleDirectory, Metrics.zero.countAdded⟩

theorem run_sampleEdit :
    ((sampleEdit.perform sampleCatalog).run sampleOpened).1 = (.ok ["rooms"], sampleAdded) := by
  obtain ⟨ids, c, hc⟩ := sample_adds
  obtain ⟨rfl, rfl⟩ := result_sampleEdit rfl hc
  exact hc

/-- The world after the room was added. -/
def sampleStored : World := ((sampleEdit.perform sampleCatalog).run sampleOpened).2

theorem stores_sampleStored : sampleDirectory.Stores sampleStored.files sampleAdded.registry := by
  have hrun := Program.runs_run (sampleEdit.perform sampleCatalog) sampleOpened
  have hopened := sample_opens.2
  rw [run_sampleEdit] at hrun
  have hsame := (Edit.stops_perform rfl hopened.toHolds storable_sampleEdit hrun.stops).2
  rcases Edit.runs_perform rfl hopened.toHolds storable_sampleEdit hrun with
    ⟨_, -, -, -, hheld⟩ | ⟨_, he, -⟩
  · exact hopened.of_sameDirectories hsame hheld
  · cases he

end Sample

end Session

end CampusQuery
