/-
CampusQuery/Proofs/Service/Effects.lean

What requests do to the datasets and to the files, and how they are answered.

The service makes the call that a request wants, and no other.  So what a request can do is said
once (`Effect`), and all that is known of the calls holds of requests (`handle_answers`).  Datasets
change only by an edit that is answered with 200, and any number of requests makes of them what
these edits make of them (`Serving.contents`).  A request that is refused touches no file.  If the
storage failed, the answer is 500 and the datasets are as before, but a file that was written for
the edit may be left behind (`failed_request_leaves_file`).
-/
import CampusQuery.Proofs.Catalog.Canonical
import CampusQuery.Proofs.Catalog.Footprint
import CampusQuery.Proofs.Service.Calls

namespace CampusQuery

open FileTree (Spares)
open Program (Runs)

variable {faults : Faults} {t u : FileTree} {c c' : Catalog} {e : Edit} {id name : String}
variable {kind : Kind} {records : List Record}

/-- A removal is refused if the id is not valid, or not that of a dataset. -/
theorem Edit.outcome_remove (r : Registry) (id : String) :
    (Edit.remove id).outcome r =
      if isDatasetId id = false then .error (.invalidId id)
      else if r.contains id = false then .error (.notFound id)
      else .ok (r.erase id) := by
  rw [outcome, Catalog.checkRemoval]
  rcases isDatasetId id
  · rfl
  · rcases r.contains id
    · rfl
    · rfl

namespace Service

variable {policy : OriginPolicy} {r : Request} {response : Response} {resource : Resource}
variable {failure : CatalogError}

/-! ### Statuses of failures -/

/-- The answer says that the storage failed, just if it did. -/
theorem status_eq_internal_iff :
    (ServiceError.catalog failure).content.status = 500 ↔
      failure.code = "CAMPUS_STORAGE_IO" ∨ failure.code = "CAMPUS_DATA_CORRUPTION" := by
  rcases failure with _ | _ | _ | _ | ⟨id, cause⟩ | _ | _ | _
  case badRecords =>
    rcases cause with _ | _ | _ | _ <;>
      simp [ServiceError.content, Content.failure, Content.document, CatalogError.isInternal,
        CatalogError.code, DatasetError.code]
  all_goals
    simp [ServiceError.content, Content.failure, Content.document, CatalogError.isInternal,
      CatalogError.code]

/-! ### What a request can do -/

theorem body_respond {content : Content} (h : r.Asks resource) :
    (respond policy r content).body = (content.content.map (·.2)).getD "" :=
  if_neg fun hhead => resource.method_ne.2 (h.1 ▸ hhead)

section Requests

variable [FloatReader]

/-- What a request can do: how it is answered, and the catalog and the files after it. -/
inductive Effect (faults : Faults) (c : Catalog) (t : FileTree) (r : Request) :
    Response → Catalog → FileTree → Prop
  /-- No call is made. -/
  | idle {response : Response} (hidle : r.use? = none) (hstatus : response.status ≠ 500)
      (hunreadable : ∀ resource, r.Asks resource → resource.method ≠ "GET" →
        IsUnreadable r.body response.status) : Effect faults c t r response c t
  | edited {response : Response} {e : Edit} {ids : List String} {c' : Catalog} {u : FileTree}
      (hwants : r.Wants (.edit e)) (hrun : Runs faults (e.perform c) t (.ok ids, c') u)
      (hstatus : response.status = 200)
      (hbody : response.body = (Json.object [("result", e.document ids)]).write) :
      Effect faults c t r response c' u
  | failed {response : Response} {e : Edit} {failure : CatalogError} {c' : Catalog} {u : FileTree}
      (hwants : r.Wants (.edit e)) (hrun : Runs faults (e.perform c) t (.error failure, c') u)
      (hstatus : response.status = (ServiceError.catalog failure).content.status) :
      Effect faults c t r response c' u
  | answered {response : Response} {document : Json} {answer : Answer} {c' : Catalog}
      {u : FileTree} (hwants : r.Wants (.query document))
      (hrun : Runs faults (c.query document) t (.ok answer, c') u)
      (hstatus : response.status = 200) (hbody : response.body = answer.toJson.write) :
      Effect faults c t r response c' u
  | rejected {response : Response} {document : Json} {failure : QueryFailure} {c' : Catalog}
      {u : FileTree} (hwants : r.Wants (.query document))
      (hrun : Runs faults (c.query document) t (.error failure, c') u)
      (hstatus : response.status = 400) : Effect faults c t r response c' u

/-- **Every request** has such an effect. -/
theorem effect_of_handle (h : Runs faults (handle policy c r) t (response, c') u) :
    Effect faults c t r response c' u := by
  rcases huse : r.use? with - | e | document
  · obtain ⟨content, hhandle, hstatus, hunreadable⟩ := handle_of_idle policy c huse
    rw [hhandle] at h
    obtain ⟨⟨⟩, rfl⟩ := Program.runs_pure h
    exact .idle huse hstatus hunreadable
  · have hwants := use?_eq_some_iff.mp huse
    obtain ⟨resource, hasks, -⟩ := asks_of_use? huse
    rw [handle_of_edit huse] at h
    obtain ⟨⟨edited, after⟩, _, hrun, hanswer⟩ := Program.runs_bind h
    rcases edited with failure | ids
    · obtain ⟨⟨⟩, rfl⟩ := Program.runs_pure hanswer
      exact .failed hwants hrun rfl
    · obtain ⟨⟨⟩, rfl⟩ := Program.runs_pure hanswer
      exact .edited hwants hrun rfl (body_respond hasks)
  · have hwants := use?_eq_some_iff.mp huse
    obtain ⟨resource, hasks, -⟩ := asks_of_use? huse
    rw [handle_of_query huse] at h
    obtain ⟨⟨result, after⟩, _, hrun, hanswer⟩ := Program.runs_bind h
    rcases result with failure | answer
    · obtain ⟨⟨⟩, rfl⟩ := Program.runs_pure hanswer
      exact .rejected hwants hrun rfl
    · obtain ⟨⟨⟩, rfl⟩ := Program.runs_pure hanswer
      exact .answered hwants hrun rfl (body_respond hasks)

/-! ### Effects of edits and queries -/

theorem Effect.of_edit (h : Effect faults c t r response c' u) (hwants : r.Wants (.edit e)) :
    (response.status = 200 ∧ ∃ ids, Runs faults (e.perform c) t (.ok ids, c') u ∧
        response.body = (Json.object [("result", e.document ids)]).write) ∨
      ∃ failure, Runs faults (e.perform c) t (.error failure, c') u ∧
        response.status = (ServiceError.catalog failure).content.status := by
  cases h with
  | idle hidle => cases hidle.symm.trans (use?_eq_some_iff.mpr hwants)
  | edited hwants' hrun hstatus hbody =>
    cases hwants.unique hwants'
    exact .inl ⟨hstatus, _, hrun, hbody⟩
  | failed hwants' hrun hstatus =>
    cases hwants.unique hwants'
    exact .inr ⟨_, hrun, hstatus⟩
  | answered hwants' | rejected hwants' => cases hwants.unique hwants'

/-- An edit that the registry refuses is answered with the reason. -/
theorem Effect.of_refused (h : Effect faults c t r response c' u) (hwants : r.Wants (.edit e))
    (hrefused : e.outcome c.registry = .error failure) :
    response.status = (ServiceError.catalog failure).content.status := by
  rcases h.of_edit hwants with ⟨-, _, hrun, -⟩ | ⟨failure', hrun, hstatus⟩
  · cases hrefused.symm.trans (Edit.runs_perform_ok hrun).1
  · obtain ⟨-, ⟨houtcome, -⟩ | ⟨⟨_, houtcome⟩, -⟩⟩ := Edit.runs_perform_error hrun
    · rw [hstatus, Except.error.inj (hrefused.symm.trans houtcome)]
    · cases hrefused.symm.trans houtcome

/-- An edit that the registry does not refuse is made, or the storage fails. -/
theorem Effect.of_accepted {registry : Registry} (h : Effect faults c t r response c' u)
    (hwants : r.Wants (.edit e)) (haccepted : e.outcome c.registry = .ok registry) :
    response.status = 200 ∨ response.status = 500 := by
  rcases h.of_edit hwants with ⟨hstatus, -⟩ | ⟨failure, hrun, hstatus⟩
  · exact .inl hstatus
  · obtain ⟨-, ⟨houtcome, -⟩ | ⟨-, hcode, -⟩⟩ := Edit.runs_perform_error hrun
    · cases haccepted.symm.trans houtcome
    · exact .inr (hstatus.trans (status_eq_internal_iff.mpr (.inl hcode)))

/-- A query that the catalog answers is answered with this answer: it is that of the registry, in
whatever way the program runs. -/
theorem Effect.of_answer {document : Json} {answer : Answer}
    (h : Effect faults c t r response c' u) (hwants : r.Wants (.query document))
    (hrun : Runs faults (c.query document) t (.ok answer, c') u) :
    response.status = 200 ∧ response.body = answer.toJson.write := by
  have hanswer := Catalog.answer_of_runs_query hrun
  cases h with
  | idle hidle => cases hidle.symm.trans (use?_eq_some_iff.mpr hwants)
  | edited hwants' | failed hwants' => cases hwants.unique hwants'
  | answered hwants' hrun' hstatus hbody =>
    cases hwants.unique hwants'
    cases hanswer.trans (Catalog.answer_of_runs_query hrun').symm
    exact ⟨hstatus, hbody⟩
  | rejected hwants' hrun' =>
    cases hwants.unique hwants'
    cases hanswer.trans (Catalog.answer_of_runs_query hrun').symm

/-! ### Answers -/

/-- How a request is answered, and what it changes.  The catalog is `c` and the files are `t`
before, and `c'` and `u` after. -/
structure Answers (faults : Faults) (c : Catalog) (t : FileTree) (r : Request)
    (response : Response) (c' : Catalog) (u : FileTree) : Prop where
  /-- Datasets change only by an edit that is answered with 200. -/
  changed : c'.registry ≠ c.registry → response.status = 200 ∧ ∃ e, r.Wants (.edit e)
  /-- An addition is answered with 200 just if its rows can be read and the catalog adds them. -/
  addition : ∀ id name, r.IsAddition id name →
    (response.status = 200 ↔ ∃ kind records ids, Brings r.body name kind records ∧
      Runs faults (c.add id kind records) t (.ok ids, c') u)
  /-- Then the dataset is new, the others are as before, and the body has all ids in their order. -/
  added : ∀ id name kind records, r.IsAddition id name → Brings r.body name kind records →
    response.status = 200 →
      c.registry.contains id = false ∧
      c'.registry.contents = Function.update c.registry.contents id (some (kind, records)) ∧
      c'.registry.ids.Pairwise (· < ·) ∧
      response.body = (Json.object [("result", .array (c'.registry.ids.map .text))]).write
  /-- After a removal that is answered with 200 the dataset is gone, and no other is. -/
  removed : ∀ id, r.IsRemoval id → response.status = 200 →
    c.registry.contains id = true ∧
    c'.registry.contents = Function.update c.registry.contents id none ∧
    response.body = (Json.object [("result", .text id)]).write
  notFound : ∀ id, r.IsRemoval id →
    (response.status = 404 ↔ isDatasetId id = true ∧ c.registry.contains id = false)
  invalid : ∀ id, r.IsRemoval id → (response.status = 400 ↔ isDatasetId id = false)
  /-- A query is answered with 200 just if it can be read and the catalog answers it. -/
  query : r.IsQuery →
    (response.status = 200 ↔ ∃ document answer, readBody r.body = .ok document ∧
      Runs faults (c.query document) t (.ok answer, c') u)
  /-- Then the body is this answer. -/
  answered : ∀ document answer, r.IsQuery → readBody r.body = .ok document →
    Runs faults (c.query document) t (.ok answer, c') u → response.body = answer.toJson.write
  rejected : r.IsQuery → response.status ≠ 200 → response.status = 400
  /-- The answer is 500 only if the storage failed or is corrupt. -/
  internal : response.status = 500 → ∃ e failure, r.Wants (.edit e) ∧
    Runs faults (e.perform c) t (.error failure, c') u ∧
    (failure.code = "CAMPUS_STORAGE_IO" ∨ failure.code = "CAMPUS_DATA_CORRUPTION")
  /-- All other requests leave the datasets as they are, and the files too, except for what a failed
  edit may have touched. -/
  otherwise : ¬ (response.status = 200 ∧ ∃ e, r.Wants (.edit e)) →
    c'.registry = c.registry ∧
      (u = t ∨ response.status = 500 ∧ ∃ e d, r.Wants (.edit e) ∧ c.directory = some d ∧
        Spares t u (d.footprint c.registry e.id))

namespace Effect

theorem changed (h : Effect faults c t r response c' u) (hne : c'.registry ≠ c.registry) :
    response.status = 200 ∧ ∃ e, r.Wants (.edit e) := by
  cases h with
  | idle => exact (hne rfl).elim
  | failed _ hrun => exact (hne (congrArg Catalog.registry (Edit.runs_perform_error hrun).1)).elim
  | edited hwants _ hstatus => exact ⟨hstatus, _, hwants⟩
  | answered _ hrun | rejected _ hrun =>
    obtain ⟨-, rfl⟩ := Catalog.runs_query hrun
    exact (hne rfl).elim

theorem addition (h : Effect faults c t r response c' u) (hr : r.IsAddition id name) :
    response.status = 200 ↔ ∃ kind records ids, Brings r.body name kind records ∧
      Runs faults (c.add id kind records) t (.ok ids, c') u := by
  constructor
  · intro hok
    cases h with
    | idle _ _ hunreadable =>
      obtain ⟨_, _, hasks, -⟩ := hr
      exact ((hunreadable _ hasks (by simp [Resource.method])).ne_ok hok).elim
    | edited hwants hrun =>
      obtain ⟨kind, records, ⟨⟩, hbody⟩ := hr.of_wants hwants
      exact ⟨kind, records, _, hbody, hrun⟩
    | failed _ _ hstatus => exact (status_failed _ (hstatus.symm.trans hok)).elim
    | answered hwants | rejected hwants =>
      obtain ⟨_, _, ⟨⟩, -⟩ := hr.of_wants hwants
  · rintro ⟨kind, records, ids, hbody, hrun⟩
    obtain ⟨-, -, hne⟩ := Edit.runs_perform_ok (e := .add id kind records) hrun
    rcases h.of_edit (.add hr hbody) with ⟨hstatus, -⟩ | ⟨failure, hfailed, -⟩
    · exact hstatus
    · exact (hne (Edit.runs_perform_error hfailed).1).elim

theorem added (h : Effect faults c t r response c' u) (hr : r.IsAddition id name)
    (hbody : Brings r.body name kind records) (hok : response.status = 200) :
    c.registry.contains id = false ∧
      c'.registry.contents = Function.update c.registry.contents id (some (kind, records)) ∧
      response.body = (Json.object [("result", .array (c'.registry.ids.map .text))]).write := by
  rcases h.of_edit (.add hr hbody) with ⟨-, ids, hrun, hresult⟩ | ⟨failure, -, hstatus⟩
  · obtain ⟨houtcome, rfl, -⟩ := Edit.runs_perform_ok hrun
    obtain ⟨x, hcheck, -⟩ := map_eq_ok_iff.mp houtcome
    exact ⟨(Catalog.checkAddition_eq_ok hcheck).2.2.1, Edit.contents_of_outcome houtcome, hresult⟩
  · exact (status_failed _ (hstatus.symm.trans hok)).elim

theorem removed (h : Effect faults c t r response c' u) (hr : r.IsRemoval id)
    (hok : response.status = 200) :
    c.registry.contains id = true ∧
      c'.registry.contents = Function.update c.registry.contents id none ∧
      response.body = (Json.object [("result", .text id)]).write := by
  rcases h.of_edit (.remove hr) with ⟨-, ids, hrun, hresult⟩ | ⟨failure, -, hstatus⟩
  · obtain ⟨houtcome, rfl, -⟩ := Edit.runs_perform_ok hrun
    obtain ⟨_, hcheck, -⟩ := map_eq_ok_iff.mp houtcome
    exact ⟨(Catalog.checkRemoval_eq_ok hcheck).2, Edit.contents_of_outcome houtcome, hresult⟩
  · exact (status_failed _ (hstatus.symm.trans hok)).elim

/-- A removal is answered by what is known of the id. -/
theorem status_of_removal (h : Effect faults c t r response c' u) (hr : r.IsRemoval id) :
    if isDatasetId id = false then response.status = 400
    else if c.registry.contains id = false then response.status = 404
    else response.status = 200 ∨ response.status = 500 := by
  have houtcome := Edit.outcome_remove c.registry id
  split_ifs at houtcome ⊢
  · exact h.of_refused (.remove hr) houtcome
  · exact h.of_refused (.remove hr) houtcome
  · exact h.of_accepted (.remove hr) houtcome

theorem notFound (h : Effect faults c t r response c' u) (hr : r.IsRemoval id) :
    response.status = 404 ↔ isDatasetId id = true ∧ c.registry.contains id = false := by
  have hstatus := h.status_of_removal hr
  split_ifs at hstatus with hinvalid hnew
  · simp [hstatus, hinvalid]
  · simpa [hstatus, hnew] using hinvalid
  · rcases hstatus with hstatus | hstatus <;> simp [hstatus, hnew]

theorem invalid (h : Effect faults c t r response c' u) (hr : r.IsRemoval id) :
    response.status = 400 ↔ isDatasetId id = false := by
  have hstatus := h.status_of_removal hr
  split_ifs at hstatus with hinvalid
  · simp [hstatus, hinvalid]
  · simp [hstatus, hinvalid]
  · rcases hstatus with hstatus | hstatus <;> simp [hstatus, hinvalid]

theorem query (h : Effect faults c t r response c' u) (hr : r.IsQuery) :
    response.status = 200 ↔ ∃ document answer, readBody r.body = .ok document ∧
      Runs faults (c.query document) t (.ok answer, c') u := by
  constructor
  · intro hok
    cases h with
    | idle _ _ hunreadable =>
      exact ((hunreadable _ hr.1 (by simp [Resource.method])).ne_ok hok).elim
    | edited hwants | failed hwants =>
      obtain ⟨_, ⟨⟩, -⟩ := hr.of_wants hwants
    | answered hwants hrun =>
      obtain ⟨_, ⟨⟩, hbody⟩ := hr.of_wants hwants
      exact ⟨_, _, hbody, hrun⟩
    | rejected _ _ hstatus => cases hstatus.symm.trans hok
  · rintro ⟨document, answer, hbody, hrun⟩
    exact (h.of_answer (.query hr hbody) hrun).1

theorem status_of_query (h : Effect faults c t r response c' u) (hr : r.IsQuery)
    (hfailed : response.status ≠ 200) : response.status = 400 := by
  cases h with
  | idle _ _ hunreadable =>
    rcases hunreadable _ hr.1 (by simp [Resource.method]) with hbad | ⟨-, hlong⟩
    · exact hbad
    · exact (Nat.not_lt.mpr hr.2 hlong).elim
  | edited hwants | failed hwants =>
    obtain ⟨_, ⟨⟩, -⟩ := hr.of_wants hwants
  | answered _ _ hstatus => exact (hfailed hstatus).elim
  | rejected _ _ hstatus => exact hstatus

theorem internal (h : Effect faults c t r response c' u) (hinternal : response.status = 500) :
    ∃ e failure, r.Wants (.edit e) ∧ Runs faults (e.perform c) t (.error failure, c') u ∧
      (failure.code = "CAMPUS_STORAGE_IO" ∨ failure.code = "CAMPUS_DATA_CORRUPTION") := by
  cases h with
  | idle _ hstatus => exact (hstatus hinternal).elim
  | failed hwants hrun hstatus =>
    exact ⟨_, _, hwants, hrun, status_eq_internal_iff.mp (hstatus.symm.trans hinternal)⟩
  | edited _ _ hstatus | answered _ _ hstatus | rejected _ _ hstatus =>
    cases hstatus.symm.trans hinternal

theorem otherwise (h : Effect faults c t r response c' u)
    (hother : ¬ (response.status = 200 ∧ ∃ e, r.Wants (.edit e))) :
    c'.registry = c.registry ∧
      (u = t ∨ response.status = 500 ∧ ∃ e d, r.Wants (.edit e) ∧ c.directory = some d ∧
        Spares t u (d.footprint c.registry e.id)) := by
  cases h with
  | idle => exact ⟨rfl, .inl rfl⟩
  | edited hwants _ hstatus => exact (hother ⟨hstatus, _, hwants⟩).elim
  | failed hwants hrun hstatus =>
    obtain ⟨rfl, ⟨-, rfl⟩ | ⟨-, hcode, d, hdirectory, hs⟩⟩ := Edit.runs_perform_error hrun
    · exact ⟨rfl, .inl rfl⟩
    · refine ⟨rfl, .inr ⟨?_, _, d, hwants, hdirectory, hs⟩⟩
      exact hstatus.trans (status_eq_internal_iff.mpr (.inl hcode))
  | answered _ hrun | rejected _ hrun =>
    obtain ⟨rfl, rfl⟩ := Catalog.runs_query hrun
    exact ⟨rfl, .inl rfl⟩

end Effect

/-! ### Any number of requests -/

/-- The edit that a request has made, as its answer shows. -/
def editMade : Request × Response → Option Edit
  | (r, response) =>
    match r.use? with
    | some (.edit e) => if response.status = 200 then some e else none
    | _ => none

/-- What was made of the datasets is what the edit makes of them, if there was one. -/
theorem Effect.contents (h : Effect faults c t r response c' u) :
    c'.registry.contents = (editMade (r, response)).elim c.registry.contents
      fun e => e.update c.registry.contents := by
  cases h with
  | idle hidle => rw [editMade, hidle, Option.elim_none]
  | edited hwants hrun hstatus =>
    rw [editMade, use?_eq_some_iff.mpr hwants]
    dsimp only
    rw [if_pos hstatus, Option.elim_some]
    exact Edit.contents_of_outcome (Edit.runs_perform_ok hrun).1
  | failed hwants hrun hstatus =>
    have hfailed : response.status ≠ 200 := fun hok => status_failed _ (hstatus.symm.trans hok)
    rw [editMade, use?_eq_some_iff.mpr hwants]
    dsimp only
    rw [if_neg hfailed, Option.elim_none, (Edit.runs_perform_error hrun).1]
  | answered hwants hrun | rejected hwants hrun =>
    obtain ⟨-, rfl⟩ := Catalog.runs_query hrun
    rw [editMade, use?_eq_some_iff.mpr hwants, Option.elim_none]

/-- A catalog serves requests one after the other, and a list is kept of them and their answers.
Between the requests the files may change, and any access to them may fail. -/
inductive Serving (c : Catalog) : List (Request × Response) → Catalog → Prop
  | start : Serving c [] c
  | next {policy : OriginPolicy} {history : List (Request × Response)} {r : Request}
      {response : Response} {c' c'' : Catalog} {t u : FileTree} (h : Serving c history c')
      (hnext : Runs .any (handle policy c' r) t (response, c'') u) :
      Serving c (history ++ [(r, response)]) c''

/-- **The datasets after any number of requests** are what the edits that were answered with 200
make of those before. -/
theorem Serving.contents {history : List (Request × Response)} (h : Serving c history c') :
    c'.registry.contents =
      (history.filterMap editMade).foldl (fun m e => e.update m) c.registry.contents := by
  induction h with
  | start => rfl
  | next _ hnext ih =>
    rw [List.filterMap_append, List.foldl_append, ← ih, (effect_of_handle hnext).contents]
    rcases hmade : editMade _ with - | e
    · rw [List.filterMap_cons_none hmade]
      rfl
    · rw [List.filterMap_cons_some hmade]
      rfl

/-! ### All that a request does -/

/-- **The service adds and hides nothing.**  A request is answered as the call goes that it wants,
and changes what this call changes. -/
theorem handle_answers (h : Runs faults (handle policy c r) t (response, c') u) :
    Answers faults c t r response c' u := by
  have heffect := effect_of_handle h
  exact {
    changed := heffect.changed
    addition := fun _ _ hr => heffect.addition hr
    added := fun _ _ _ _ hr hbody hok => by
      obtain ⟨hnew, hcontents, hresult⟩ := heffect.added hr hbody hok
      exact ⟨hnew, hcontents, c'.registry.increasing_ids, hresult⟩
    removed := fun _ hr => heffect.removed hr
    notFound := fun _ hr => heffect.notFound hr
    invalid := fun _ hr => heffect.invalid hr
    query := heffect.query
    answered := fun _ _ hr hbody hrun => (heffect.of_answer (.query hr hbody) hrun).2
    rejected := heffect.status_of_query
    internal := heffect.internal
    otherwise := heffect.otherwise }

end Requests

section Sample

attribute [local instance] FloatReader.nearest

/-- A request to add a dataset with one room. -/
def samplePut : Request where
  method := "PUT"
  target := "/dataset/rooms/rooms"
  origin := none
  body := (Envelope.rowsOf Session.sampleStore).write.toUTF8

theorem isAddition_samplePut : samplePut.IsAddition "rooms" "rooms" :=
  ⟨"rooms", "rooms", ⟨rfl, by decide +kernel⟩, by decide +kernel, by decide +kernel,
    by decide +kernel⟩

theorem wants_samplePut : samplePut.Wants (.edit Session.sampleEdit) := by
  have hstorable : Session.sampleStore.Storable := Session.storable_sampleEdit.1
  have hbody : samplePut.body = (Envelope.rowsOf Session.sampleStore).write.toUTF8 := by
    rw [samplePut]
  have hbrings := brings_rowsOf hstorable
  rw [← hbody] at hbrings
  exact .add isAddition_samplePut hbrings

theorem handle_answers_sample : ∃ response c' u,
    Runs .genuine (handle .anyone .inMemory samplePut) .empty (response, c') u ∧
      response.status = 200 ∧ samplePut.IsAddition "rooms" "rooms" ∧
      Answers .genuine .inMemory .empty samplePut response c' u := by
  have hok : ((handle .anyone .inMemory samplePut).run Session.sampleWorld).1.1.status = 200 := by
    rw [handle_of_edit (use?_eq_some_iff.mpr wants_samplePut), Session.sampleEdit, Edit.perform,
      Catalog.add, Catalog.inMemory, Session.checkAddition_sample]
    rfl
  have hrun := Program.runs_run (handle .anyone .inMemory samplePut) Session.sampleWorld
  rcases hresult : (handle .anyone .inMemory samplePut).run Session.sampleWorld with
    ⟨⟨response, c'⟩, w'⟩
  rw [hresult] at hok hrun
  exact ⟨response, c', w'.files, hrun, hok, isAddition_samplePut, handle_answers hrun⟩

/-- Where the file of the dataset has to go, there is a directory. -/
def sampleObstructed : World :=
  { Session.sampleWorld with
    files := ⟨[(["data"], .directory), (["data", "datasets"], .directory),
      (["data", "datasets", "rooms.json"], .directory)]⟩ }

/-- There is a request that is answered with 500 and leaves a file behind that was not there. -/
theorem failed_request_leaves_file : ∃ response w',
    (handle .anyone Session.sampleCatalog samplePut).run sampleObstructed =
        ((response, Session.sampleCatalog), w') ∧
      response.status = 500 ∧
      sampleObstructed.files.get? ["data", "datasets", "rooms.json.tmp"] = none ∧
      (w'.files.get? ["data", "datasets", "rooms.json.tmp"]).isSome = true := by
  rw [handle_of_edit (use?_eq_some_iff.mpr wants_samplePut), Session.sampleEdit, Edit.perform,
    Catalog.add, Session.sampleCatalog, Session.checkAddition_sample]
  exact ⟨_, _, rfl, by decide +kernel, rfl, by decide +kernel⟩

end Sample

end Service

end CampusQuery
