/-
CampusQuery/Proofs/Service/Calls.lean

Counters, journal and registry of a catalog over many calls.

A request makes one call on the catalog or none (`Request.use?`), and its answer shows how the call
went (`Served`); so a request is as good as its calls (`callsMade`).  A catalog is used from its
creation on by calls that are made directly or by requests (`Usage.Run`).  Nothing is assumed of
what they find: each access of each call may fail or not.  Every step accounts for what it adds
(`Usage.Step.accounts`).  So as long as the calls can be counted with 64 bits, the counters are the
numbers of the calls, the registry has grown by the additions less the removals, and the journal has
one line for each event that was counted (`Usage.Run.balanced`).
-/
import CampusQuery.Proofs.Catalog.Counters
import CampusQuery.Proofs.Service.Requests

namespace CampusQuery

open Journal (Entry Event)
open Program (Ends)

variable {c c' : Catalog} {w w' start : World} {document : Json} {e : Edit}

/-! ### Requests -/

namespace Service

theorem status_failed (failure : CatalogError) :
    (ServiceError.catalog failure).content.status ≠ 200 := by
  cases failure <;> simp [ServiceError.content, Content.failure, Content.document,
    CatalogError.isInternal]

variable [FloatReader]
variable {policy : OriginPolicy} {r : Request} {response : Response} {content : Content}

/-- How the call of a request goes, and what the answer contains. -/
inductive Served (c : Catalog) (w : World) : Option Use → Content → Catalog → World → Prop
  | idle {content : Content} {w' : World} (h : w'.journal = w.journal) :
      Served c w none content c w'
  | edited {e : Edit} {ids : List String} {c' : Catalog} {w' : World} (v : Json)
      (h : (e.perform c).Ends w (.ok ids, c') w') :
      Served c w (some (.edit e)) (.result v) c' w'
  | failed {e : Edit} {failure : CatalogError} {c' : Catalog} {w' : World}
      (h : (e.perform c).Ends w (.error failure, c') w') :
      Served c w (some (.edit e)) (ServiceError.catalog failure).content c' w'
  | queried {document : Json} {result : Except QueryFailure Answer} {c' : Catalog} {w' : World}
      (h : (c.query document).Ends w (result, c') w') :
      Served c w (some (.query document)) (queryContent result) c' w'

/-- **A request** is served as the call that it makes goes. -/
theorem served_of_handle (h : (handle policy c r).Ends w (response, c') w') :
    ∃ content, response = respond policy r content ∧ Served c w r.use? content c' w' := by
  rcases huse : r.use? with - | e | document
  · obtain ⟨content, hhandle, -⟩ := handle_of_idle policy c huse
    rw [hhandle] at h
    obtain ⟨⟨⟩, hsame⟩ := Program.ends_pure h
    exact ⟨content, rfl, .idle hsame⟩
  · rw [handle_of_edit huse] at h
    obtain ⟨⟨edited, after⟩, middle, hedit, hanswer⟩ := Program.ends_bind h
    rcases edited with failure | ids
    · obtain ⟨⟨⟩, hedit⟩ := hedit.then_pure hanswer
      exact ⟨_, rfl, .failed hedit⟩
    · obtain ⟨⟨⟩, hedit⟩ := hedit.then_pure hanswer
      exact ⟨_, rfl, .edited _ hedit⟩
  · rw [handle_of_query huse] at h
    obtain ⟨⟨result, after⟩, middle, hquery, hanswer⟩ := Program.ends_bind h
    obtain ⟨⟨⟩, hquery⟩ := hquery.then_pure hanswer
    exact ⟨_, rfl, .queried hquery⟩

/-- The calls that a request makes, as its answer shows them: an edit succeeded just if the answer
says so, and a query returned what the registry answers. -/
def callsMade (c : Catalog) (r : Request) (response : Response) : List FinishedCall :=
  match r.use? with
  | none => []
  | some (.edit e) => [.edited e (response.status == 200)]
  | some (.query document) => [.queried document (c.registry.view.answer document)]

/-- A request makes one call at most. -/
theorem callsMade_eq_singleton {call : FinishedCall} (h : call ∈ callsMade c r response) :
    callsMade c r response = [call] := by
  rw [callsMade] at h ⊢
  split at h
  · cases h
  · rw [List.mem_singleton.mp h]
  · rw [List.mem_singleton.mp h]

/-- **A request accounts** for what it adds, by the calls that it makes. -/
theorem accounts_handle (h : (handle policy c r).Ends w (response, c') w') :
    ∃ entries, w.Wrote entries w' ∧ Accounts c (callsMade c r response) entries c' := by
  obtain ⟨content, rfl, hserved⟩ := served_of_handle h
  rw [callsMade]
  generalize r.use? = use at hserved ⊢
  cases hserved with
  | idle hsame =>
    exact ⟨[], hsame, .of_uncounted (List.forall_mem_nil _) (List.forall_mem_nil _)⟩
  | edited v hedit => exact Edit.accounts hedit
  | @failed e failure _ _ hedit =>
    have hstatus : ((respond policy r (ServiceError.catalog failure).content).status == 200) =
        false := beq_false_of_ne (status_failed failure)
    dsimp only
    rw [hstatus]
    exact Edit.accounts hedit
  | queried hquery =>
    dsimp only
    rw [← (Catalog.ends_query hquery).1]
    exact Catalog.accounts_query hquery

end Service

namespace Usage

variable {n : Nat} {calls made : List FinishedCall}

/-! ### Balance -/

/-- The counters, the registry and the journal agree with the calls. -/
structure Balanced (start : World) (n : Nat) (calls : List FinishedCall) (c : Catalog) (w : World) :
    Prop where
  /-- Every query is counted. -/
  queries : c.metrics.queriesExecuted.toNat + c.metrics.queriesRejected.toNat +
    c.metrics.resultsTooLarge.toNat = calls.countP FinishedCall.isQuery
  /-- The rows are those of the answers, of which there can be more than of calls. -/
  rows : c.metrics.rowsReturned.toNat = (calls.map FinishedCall.rows).sum % 2 ^ 64
  added : c.metrics.datasetsAdded.toNat = calls.countP FinishedCall.isAddition
  removed : c.metrics.datasetsRemoved.toNat = calls.countP FinishedCall.isRemoval
  size : n + c.metrics.datasetsAdded.toNat = c.metrics.datasetsRemoved.toNat + c.registry.size
  /-- If entries for information are written, there are as many lines about each event as it was
  counted, and no text is more than one line. -/
  journal : start.minimum = .trace ∨ start.minimum = .info →
    ∃ lines, w.out = start.out ++ lines ∧ w.err = start.err ∧
      (∀ line ∈ lines, '\n' ∉ line.toList) ∧
      ∀ event ∈ Event.counted,
        lines.countP (Journal.isAbout event.name) = (c.metrics.of event).toNat

/-- Where nothing was counted at first, the counters and the journal agree with the calls. -/
theorem balanced_of_accounts {c₀ : Catalog} {entries : List Entry} (hzero : c₀.metrics = .zero)
    (hwrote : start.Wrote entries w) (h : Accounts c₀ calls entries c)
    (hbound : calls.length < 2 ^ 64) : Balanced start c₀.registry.size calls c w := by
  have hcounted : ∀ event, (c.metrics.of event).toNat = calls.countP (·.raises event) := by
    intro event
    have hzero' : c₀.metrics.of event = 0 := by
      rw [hzero]
      cases event <;> rfl
    rw [h.counters, hzero', UInt64.zero_add]
    -- no event is raised more often than there are calls
    exact UInt64.toNat_ofNat_of_lt' (List.countP_le_length.trans_lt hbound)
  have hadded : c.metrics.datasetsAdded.toNat = calls.countP FinishedCall.isAddition :=
    (hcounted .datasetAdded).trans
      (List.countP_congr fun call _ => by rw [call.raises_datasetAdded])
  have hremoved : c.metrics.datasetsRemoved.toNat = calls.countP FinishedCall.isRemoval :=
    (hcounted .datasetRemoved).trans
      (List.countP_congr fun call _ => by rw [call.raises_datasetRemoved])
  refine ⟨?_, ?_, hadded, hremoved, ?_, fun hleast => ?_⟩
  · rw [← FinishedCall.countP_raises_query, ← hcounted, ← hcounted, ← hcounted]
    rfl
  · rw [h.rows, hzero]
    show (0 + UInt64.ofNat _).toNat = _
    rw [UInt64.zero_add, UInt64.toNat_ofNat']
  · have hsize := h.size
    rw [← hcounted, ← hcounted] at hsize
    show _ + (c.metrics.of .datasetAdded).toNat = (c.metrics.of .datasetRemoved).toNat + _
    omega
  · obtain ⟨-, hout, herr⟩ := World.foldl_log_of_ordinary hleast h.ordinary
    obtain ⟨-, hjournal⟩ := Prod.mk.inj hwrote
    obtain ⟨hout', herr'⟩ := Prod.mk.inj hjournal
    refine ⟨entries.map Entry.text, hout'.trans hout, herr'.trans herr, fun line hline => ?_,
      fun event hevent => ?_⟩
    · obtain ⟨e, -, rfl⟩ := List.mem_map.mp hline
      exact Journal.newline_not_mem_text e
    · rw [Journal.countP_isAbout (Journal.isPlainName_name event) h.ordinary,
        h.reported event hevent, hcounted]

/-! ### Runs -/

section Runs

variable [FloatReader]

/-- A catalog is called, directly or by a request, and a list of the calls is kept.  A call returns
the catalog that is used next, whether it succeeded or failed. -/
inductive Step : Catalog → World → List FinishedCall → Catalog → World → Prop
  | edited {e : Edit} {result : Except CatalogError (List String)} {c c' : Catalog} {w w' : World}
      (h : (e.perform c).Ends w (result, c') w') : Step c w [.edited e result.isOk] c' w'
  | queried {document : Json} {result : Except QueryFailure Answer} {c c' : Catalog} {w w' : World}
      (h : (c.query document).Ends w (result, c') w') : Step c w [.queried document result] c' w'
  | requested {policy : Service.OriginPolicy} {r : Service.Request} {response : Service.Response}
      {c c' : Catalog} {w w' : World} (h : (Service.handle policy c r).Ends w (response, c') w') :
      Step c w (Service.callsMade c r response) c' w'

/-- A catalog is made in memory or opened, has `n` datasets then, and is called any number of
times. -/
inductive Run (start : World) : Nat → List FinishedCall → Catalog → World → Prop
  | inMemory : Run start 0 [] .inMemory start
  | opened {d : DataDirectory} {c : Catalog} {w : World}
      (h : (Catalog.openAt d).run.Ends start (.ok c) w) : Run start c.registry.size [] c w
  | step {n : Nat} {calls made : List FinishedCall} {c c' : Catalog} {w w' : World}
      (h : Run start n calls c w) (hstep : Step c w made c' w') :
      Run start n (calls ++ made) c' w'

/-- Each step accounts for what it adds. -/
theorem Step.accounts (h : Step c w made c' w') :
    ∃ entries, w.Wrote entries w' ∧ Accounts c made entries c' := by
  cases h with
  | edited hedit => exact Edit.accounts hedit
  | queried hquery => exact Catalog.accounts_query hquery
  | requested hhandle => exact Service.accounts_handle hhandle

/-- So does a run, from a catalog that has counted nothing yet. -/
theorem Run.accounts (h : Run start n calls c w) :
    ∃ c₀ entries, c₀.metrics = .zero ∧ c₀.registry.size = n ∧ start.Wrote entries w ∧
      Accounts c₀ calls entries c := by
  induction h with
  | inMemory =>
    exact ⟨.inMemory, [], rfl, rfl, rfl,
      .of_uncounted (List.forall_mem_nil _) (List.forall_mem_nil _)⟩
  | @opened d c w hopen =>
    obtain ⟨entries, hwrote, haccounts⟩ := Catalog.accounts_openAt hopen
    exact ⟨c, entries, (Catalog.ends_openAt hopen).1, rfl, hwrote, haccounts⟩
  | step _ hstep ih =>
    obtain ⟨c₀, entries, hzero, hsize, hwrote, haccounts⟩ := ih
    obtain ⟨entries', hwrote', haccounts'⟩ := hstep.accounts
    exact ⟨c₀, entries ++ entries', hzero, hsize, hwrote.append hwrote',
      haccounts.append haccounts'⟩

/-- Every request is a step. -/
theorem Step.exists_requested (policy : Service.OriginPolicy) (c : Catalog) (r : Service.Request)
    (w : World) : ∃ response c' w', Step c w (Service.callsMade c r response) c' w' :=
  ⟨_, _, _, .requested (Program.ends_run (Service.handle policy c r) w)⟩

/-- A step is one call at most. -/
theorem Step.eq_singleton {call : FinishedCall} (h : Step c w made c' w') (hcall : call ∈ made) :
    made = [call] := by
  cases h with
  | requested _ => exact Service.callsMade_eq_singleton hcall
  | _ => rw [List.mem_singleton.mp hcall]

/-- **A query raises one counter**, by one. -/
theorem Step.raises_one {call : FinishedCall} (h : Step c w made c' w') (hcall : call ∈ made)
    (hquery : call.isQuery = true) :
    ∃ event ∈ [Event.queryComplete, .queryRejected, .queryTooLarge],
      ∀ other, c'.metrics.of other = c.metrics.of other + if other = event then 1 else 0 := by
  obtain ⟨entries, -, haccounts⟩ := h.accounts
  obtain rfl := h.eq_singleton hcall
  rcases call with ⟨e, succeeded⟩ | ⟨document, result⟩
  · cases hquery
  · refine ⟨(Catalog.outcomeEvent result).1, ?_, fun other => ?_⟩
    · rcases result with (_ | _) | _ <;> simp [Catalog.outcomeEvent]
    · rw [haccounts.counters, FinishedCall.countP_singleton_raises rfl]
      split
      · rfl
      · rfl

/-- **Counters, journal and registry agree** with the calls after a run, if there were fewer than
2^64 of them.  And whatever the next call finds, if it is a query it raises exactly one of the
counters of queries, by one, and none of the others. -/
theorem Run.balanced (h : Run start n calls c w) (hbound : calls.length < 2 ^ 64) :
    Balanced start n calls c w ∧
      ∀ made c' w', Step c w made c' w' → ∀ call ∈ made, call.isQuery = true →
        ∃ event ∈ [Event.queryComplete, .queryRejected, .queryTooLarge],
          ∀ other, c'.metrics.of other = c.metrics.of other + if other = event then 1 else 0 := by
  obtain ⟨c₀, entries, hzero, rfl, hwrote, haccounts⟩ := h.accounts
  exact ⟨balanced_of_accounts hzero hwrote haccounts hbound, fun _ _ _ hstep _ => hstep.raises_one⟩

end Runs

section Sample

attribute [local instance] FloatReader.nearest

/-- A world in which entries for information are written. -/
def sampleWorld : World := { Session.sampleWorld with minimum := .info }

/-- A catalog in memory after a room was added. -/
def sampleCatalog : Catalog :=
  ⟨Registry.empty.insert ⟨"rooms", Session.sampleStore⟩, none, Metrics.zero.countAdded⟩

theorem sample_added : ∃ w, Step .inMemory sampleWorld [.edited Session.sampleEdit true]
    sampleCatalog w := by
  have hok : ((Session.sampleEdit.perform .inMemory).run sampleWorld).1.1.isOk = true := by
    rw [Session.sampleEdit, Edit.perform, Catalog.add, Catalog.inMemory,
      Session.checkAddition_sample]
    rfl
  obtain ⟨ids, c, hc⟩ := Session.exists_of_succeeds hok
  have hend := Program.ends_run (Session.sampleEdit.perform .inMemory) sampleWorld
  obtain ⟨-, rfl⟩ := Session.result_sampleEdit rfl hc
  rw [hc] at hend
  exact ⟨_, .edited hend⟩

/-- A request for the seats of all rooms. -/
def sampleRequest : Service.Request where
  method := "POST"
  target := "/query"
  origin := none
  body := (Json.object [("WHERE", .object []),
    ("OPTIONS", .object [("COLUMNS", .array [.text "rooms_seats"])])]).write.toUTF8

/-- The call is a query with one row. -/
def answersOneRow (r : Registry) : Option Use → Bool
  | some (.query document) =>
    match r.view.answer document with
    | .ok answer => answer.rows.length == 1
    | .error _ => false
  | _ => false

theorem exists_of_answersOneRow {r : Registry} {use : Option Use}
    (h : answersOneRow r use = true) : ∃ document answer, use = some (.query document) ∧
      r.view.answer document = .ok answer ∧ answer.rows.length = 1 := by
  unfold answersOneRow at h
  split at h
  · rename_i document
    split at h
    · rename_i answer hanswer
      exact ⟨document, answer, rfl, hanswer, beq_iff_eq.mp h⟩
    · cases h
  · cases h

theorem answersOneRow_sampleRequest :
    answersOneRow sampleCatalog.registry sampleRequest.use? = true := by
  decide +kernel

theorem balanced_sample : ∃ document answer c w,
    Run sampleWorld 0 [.edited Session.sampleEdit true, .queried document (.ok answer)] c w ∧
      [FinishedCall.edited Session.sampleEdit true, .queried document (.ok answer)].length <
        2 ^ 64 ∧
      answer.rows.length = 1 ∧
      Balanced sampleWorld 0 [.edited Session.sampleEdit true, .queried document (.ok answer)] c w ∧
      ∀ made c' w', Step c w made c' w' → ∀ call ∈ made, call.isQuery = true →
        ∃ event ∈ [Event.queryComplete, .queryRejected, .queryTooLarge],
          ∀ other, c'.metrics.of other = c.metrics.of other + if other = event then 1 else 0 := by
  obtain ⟨document, answer, huse, hanswer, hrows⟩ :=
    exists_of_answersOneRow answersOneRow_sampleRequest
  -- a room is added directly, and its seats are asked for by a request
  obtain ⟨added, hadded⟩ := sample_added
  obtain ⟨response, after, asked, hasked⟩ :=
    Step.exists_requested .anyone sampleCatalog sampleRequest added
  have hcalls : Service.callsMade sampleCatalog sampleRequest response =
      [.queried document (.ok answer)] := by
    rw [Service.callsMade, huse, ← hanswer]
  rw [hcalls] at hasked
  have hrun := (Run.inMemory.step hadded).step hasked
  have hbound : [FinishedCall.edited Session.sampleEdit true,
      .queried document (.ok answer)].length < 2 ^ 64 := (by decide : 2 < 2 ^ 64)
  exact ⟨document, answer, after, asked, hrun, hbound, hrows, hrun.balanced hbound⟩

end Sample

end Usage

end CampusQuery
