/-
CampusQuery/Proofs/Catalog/Crash.lean

A call that stops halfway leaves a catalog that can be opened.

Where a directory stores a registry, nothing that opening the catalog needs can fail
(`run_openAt`).  A call that stops leaves a directory that stores the registry before it
or the one after it (`stores_of_stops`).  So opening restores one of the two, at
whatever point the call stopped, and so in every session.  What a program leaves that
stops after some requests can be computed (`Program.stops_of_torn?`).
-/
import CampusQuery.Proofs.Catalog.Session

namespace CampusQuery

open Program (Runs Stops)

/-! ### Stopping in a world -/

namespace Program

variable {α : Type}

/-- The world answers one request, if there is one. -/
def answerNext : Program α × World → Program α × World
  | (.done a, w) => (.done a, w)
  | (.change c next, w) =>
    match w.files.apply c with
    | .ok files => (next (.ok ()), { w with files })
    | .error e => (next (.error e), w)
  | (.ask q path next, w) => (next (w.answer path q), w)
  | (.list directory next, w) => (next ((w.files.list directory).map .whole), w)
  | (.read path next, w) => (next (w.files.read path), w)
  | (.reading r next, w) => (next (w.readings w.taken r), { w with taken := w.taken + 1 })
  | (.input next, w) => (next w.input, w)
  | (.put o next, w) => (next, w.put o)

/-- The world answers so many requests. -/
def answerSome : Nat → Program α × World → Program α × World
  | 0, s => s
  | n + 1, s => answerSome n (answerNext s)

theorem steps_answerNext (p : Program α) (w : World) :
    Steps .genuine (p, w.files) ((answerNext (p, w)).1, (answerNext (p, w)).2.files) := by
  cases p with
  | done a => exact .refl
  | change c next =>
    rw [answerNext]
    rcases happly : w.files.apply c with e | files
    · exact .single (.unchanged happly)
    · exact .single (.changed happly)
  | ask q path next =>
    rw [answerNext, World.answer_eq]
    exact .single (.asked q path next _)
  | list directory next =>
    rw [answerNext]
    rcases hlist : w.files.list directory with e | names
    · exact .single (.unlisted hlist)
    · exact .single (.listed (.of_list hlist))
  | read path next =>
    rw [answerNext]
    rcases hread : w.files.read path with e | content
    · exact .single (.unread hread)
    · exact .single (.read hread)
  | reading r next => exact .single (.reading r next _ _)
  | input next => exact .single (.input next _ _)
  | put o next =>
    rw [answerNext, World.files_put]
    exact .single (.put o next _)

theorem steps_answerSome (n : Nat) (p : Program α) (w : World) :
    Steps .genuine (p, w.files)
      ((answerSome n (p, w)).1, (answerSome n (p, w)).2.files) := by
  induction n generalizing p w with
  | zero => exact .refl
  | succ n ih => exact (steps_answerNext p w).trans (ih _ _)

/-- The files if the program stops while it writes a file, of which only a part is there. -/
def torn? (part : ByteArray) : Program α × World → Option FileTree
  | (.change (.fill path _) _, w) => (w.files.apply (.fill path part)).toOption
  | _ => none

/-- A program stops after some requests, while it writes a file. -/
theorem stops_of_torn? {p : Program α} {w : World} {n : Nat} {part : ByteArray} {u : FileTree}
    (h : torn? part (answerSome n (p, w)) = some u) : Stops .genuine p w.files u := by
  have hsteps := steps_answerSome n p w
  generalize answerSome n (p, w) = s at hsteps h
  rcases s with ⟨p', w'⟩
  refine ⟨p', w'.files, hsteps, .inr ?_⟩
  unfold torn? at h
  split at h
  · rename_i path content next _ heq
    obtain ⟨rfl, rfl⟩ := Prod.mk.inj heq
    refine ⟨path, content, next, part, rfl, ?_⟩
    rcases happly : w'.files.apply (.fill path part) with e | files
    · rw [happly] at h
      cases h
    · rw [happly] at h
      exact congrArg Except.ok (Option.some.inj h)
  · cases h

end Program

/-! ### Opening what was left -/

section Crash

variable [FloatReader] {faults : Faults} {t u : FileTree} {r : Registry} {d : DataDirectory}
variable {c : Catalog} {e : Edit} {w : World}

/-- Opening in a world in which the registry is stored. -/
theorem run_openAt (h : d.Stores w.files r) :
    ((Catalog.openAt d).run.run w).1 = .ok ⟨r, some d, .zero⟩ := by
  obtain ⟨-, ⟨hok, -⟩ | ⟨-, hobstructed⟩⟩ :=
    DataDirectory.runs_openAt h.toHolds (Program.runs_run (Catalog.openAt d).run w)
  · exact hok
  · exact (h.not_obstructed hobstructed).elim

theorem stores_of_stops [FloatReader.Exact] (hdirectory : c.directory = some d)
    (hstores : d.Stores t c.registry) (hedit : e.Storable)
    (hstop : Stops faults (e.perform c) t u) :
    (∃ r, e.outcome c.registry = .ok r ∧ d.Stores u r) ∨ d.Stores u c.registry := by
  obtain ⟨⟨r, houtcome, hheld⟩ | hheld, hsame⟩ :=
    Edit.stops_perform hdirectory hstores.toHolds hedit hstop
  · exact .inl ⟨r, houtcome, hstores.of_sameDirectories hsame hheld⟩
  · exact .inr (hstores.of_sameDirectories hsame hheld)

/-- **A call that stops leaves a catalog that can be opened.**  Opening restores the
registry before the call, or the registry that the call leads to. -/
theorem Edit.crash_consistent [FloatReader.Exact] (hdirectory : c.directory = some d)
    (hstores : d.Stores t c.registry) (hedit : e.Storable)
    (hstop : Stops .any (e.perform c) t u) (hw : w.files = u) :
    ∃ restored, ((Catalog.openAt d).run.run w).1 = .ok restored ∧
      (restored.registry = c.registry ∨
        e.outcome c.registry = .ok restored.registry ∧
          restored.registry.contents = e.update c.registry.contents) := by
  rw [← hw] at hstop
  rcases stores_of_stops hdirectory hstores hedit hstop with ⟨r, houtcome, hstored⟩ | hstored
  · exact ⟨_, run_openAt hstored, .inr ⟨houtcome, Edit.contents_of_outcome houtcome⟩⟩
  · exact ⟨_, run_openAt hstored, .inl rfl⟩

/-- In every session, wherever a call stops, opening restores what the calls before it
made, with or without this call. -/
theorem Session.Run.restores [FloatReader.Exact] {start : FileTree} {s : Session}
    {history : List (Call × Except CatalogError Catalog)} (hempty : d.IsEmpty start)
    (hrun : Session.Run d .any start history s) (hstorable : ∀ x ∈ history, x.1.Storable)
    (hopen : s.catalog = some c) (hedit : e.Storable)
    (hstop : Stops .any (e.perform c) s.files w.files) :
    ∃ restored, ((Catalog.openAt d).run.run w).1 = .ok restored ∧
      (restored.registry.contents = Session.contentsAfter history ∨
        restored.registry.contents = e.update (Session.contentsAfter history)) := by
  obtain ⟨r, -, hcontents, hcatalog⟩ := hrun.holds hempty hstorable
  obtain ⟨rfl, hdirectory, hstores⟩ := hcatalog c hopen
  rw [← hcontents]
  rcases stores_of_stops hdirectory hstores hedit hstop with ⟨r, houtcome, hstored⟩ | hstored
  · exact ⟨_, run_openAt hstored, .inr (Edit.contents_of_outcome houtcome)⟩
  · exact ⟨_, run_openAt hstored, .inl rfl⟩

end Crash

section Sample

open Session (sampleDirectory sampleAdded sampleStored sampleStore)

attribute [local instance] FloatReader.nearest

/-- Adds the room once more, under another id. -/
def Edit.sampleSecond : Edit := .add "labs" .rooms sampleStore.records.toList

theorem Edit.checkAddition_sampleSecond :
    Catalog.checkAddition sampleAdded.registry "labs" .rooms sampleStore.records.toList =
      .ok ⟨"labs", sampleStore⟩ := by
  have hstore : RecordStore.ofRecords .rooms sampleStore.records.toList = .ok sampleStore :=
    sampleStore.ofRecords_records
  rw [Catalog.checkAddition, if_neg (by decide +kernel), if_neg (by decide),
    if_neg (by decide +kernel), hstore]

/-- What is left of the second addition if it stops at the map, of which one byte is written. -/
def Edit.sampleTorn : Option FileTree :=
  Program.torn? "\x7b".toUTF8
    (Program.answerSome 6 (sampleSecond.perform sampleAdded, sampleStored))

/-- By then the file of the dataset is in its place. -/
theorem Edit.exists_sampleTorn : ∃ u, sampleTorn = some u ∧
    u.isFile sampleDirectory.mapPath.temporary = true ∧
    u.isFile (sampleDirectory.datasetPath "labs") = true := by
  have hleft : (sampleTorn.any fun u => u.isFile sampleDirectory.mapPath.temporary &&
      u.isFile (sampleDirectory.datasetPath "labs")) = true := by
    rw [sampleTorn, sampleSecond, perform, Catalog.add, checkAddition_sampleSecond, sampleStored,
      Session.sampleEdit, perform, Catalog.add, Session.sampleCatalog, Session.checkAddition_sample]
    decide +kernel
  obtain ⟨u, hu, hfiles⟩ := (Option.any_eq_true _ _).mp hleft
  exact ⟨u, hu, Bool.and_eq_true_iff.mp hfiles⟩

theorem Edit.crash_consistent_sample :
    ∃ u w, sampleAdded.directory = some sampleDirectory ∧
      sampleDirectory.Stores sampleStored.files sampleAdded.registry ∧ sampleSecond.Storable ∧
      Stops .any (sampleSecond.perform sampleAdded) sampleStored.files u ∧ w.files = u ∧
      u.isFile sampleDirectory.mapPath.temporary = true ∧
      u.isFile (sampleDirectory.datasetPath "labs") = true ∧
      ∃ restored, ((Catalog.openAt sampleDirectory).run.run w).1 = .ok restored ∧
        (restored.registry = sampleAdded.registry ∨
          sampleSecond.outcome sampleAdded.registry = .ok restored.registry ∧
            restored.registry.contents = sampleSecond.update sampleAdded.registry.contents) := by
  obtain ⟨u, hu, hmap, hdataset⟩ := exists_sampleTorn
  have hstop : Stops .any (sampleSecond.perform sampleAdded) sampleStored.files u :=
    (Program.stops_of_torn? hu).mono fun _ _ _ _ => trivial
  have hstorable : sampleSecond.Storable := Session.storable_sampleEdit
  exact ⟨u, { sampleStored with files := u }, rfl, Session.stores_sampleStored, hstorable, hstop,
    rfl, hmap, hdataset, crash_consistent rfl Session.stores_sampleStored hstorable hstop rfl⟩

end Sample

end CampusQuery
