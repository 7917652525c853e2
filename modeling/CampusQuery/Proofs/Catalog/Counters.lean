/-
CampusQuery/Proofs/Catalog/Counters.lean

What a call on a catalog adds to the counters, the journal and the registry.

A call that has returned is kept with what it returned (`FinishedCall`), and this says which event
is reported and counted for it (`FinishedCall.event?`).  Whatever is answered to its requests, a
call accounts for all that is new after it (`Accounts`): each counter grows by the calls that raise
it, the journal by as many entries about their events, and the registry by the additions less the
removals.  Accounts add up (`Accounts.append`), so they hold of any number of calls.
-/
import CampusQuery.Proofs.Catalog.Reopened
import CampusQuery.Proofs.Journal.Lines

namespace CampusQuery

open Journal (Entry Event)
open Program (Quiet Ends)

variable {c c' c'' : Catalog} {w w' : World} {d : DataDirectory} {r : Registry} {x : Dataset}
variable {id : String} {kind : Kind} {records : List Record} {document : Json}

/-! ### Calls -/

/-- A call on a catalog, and what it returned. -/
inductive FinishedCall where
  | edited (e : Edit) (succeeded : Bool)
  | queried (document : Json) (result : Except QueryFailure Answer)

namespace FinishedCall

/-- The call was a query. -/
def isQuery : FinishedCall → Bool
  | .queried _ _ => true
  | .edited _ _ => false

/-- The call added a dataset. -/
def isAddition : FinishedCall → Bool
  | .edited (.add _ _ _) true => true
  | _ => false

/-- The call removed a dataset. -/
def isRemoval : FinishedCall → Bool
  | .edited (.remove _) true => true
  | _ => false

/-- The number of rows that the call returned. -/
def rows : FinishedCall → Nat
  | .queried _ (.ok answer) => answer.rows.length
  | _ => 0

/-- The event that is reported and counted for the call; there is none for an edit that failed. -/
def event? : FinishedCall → Option Event
  | .edited (.add _ _ _) true => some .datasetAdded
  | .edited (.remove _) true => some .datasetRemoved
  | .edited _ false => none
  | .queried _ result => some (Catalog.outcomeEvent result).1

/-- The event is reported and counted for the call. -/
def raises (event : Event) (call : FinishedCall) : Bool := call.event? == some event

theorem raises_datasetAdded (call : FinishedCall) :
    call.raises .datasetAdded = call.isAddition := by
  rcases call with ⟨⟨_, _, _⟩ | _, _ | _⟩ | ⟨_, (_ | _) | _⟩ <;> rfl

theorem raises_datasetRemoved (call : FinishedCall) :
    call.raises .datasetRemoved = call.isRemoval := by
  rcases call with ⟨⟨_, _, _⟩ | _, _ | _⟩ | ⟨_, (_ | _) | _⟩ <;> rfl

theorem countP_singleton_raises {call : FinishedCall} {event other : Event}
    (h : call.event? = some event) :
    [call].countP (·.raises other) = if other = event then 1 else 0 := by
  rw [List.countP_singleton, raises, h]
  exact if_congr (by rw [beq_iff_eq, Option.some.injEq, eq_comm]) rfl rfl

/-- A query raises one of three events, and nothing else does. -/
theorem raises_query (call : FinishedCall) :
    (call.raises .queryComplete).toNat + (call.raises .queryRejected).toNat +
      (call.raises .queryTooLarge).toNat = call.isQuery.toNat := by
  rcases call with ⟨⟨_, _, _⟩ | _, _ | _⟩ | ⟨_, (_ | _) | _⟩ <;> rfl

/-- So the events of queries are as many as the queries. -/
theorem countP_raises_query (calls : List FinishedCall) :
    calls.countP (·.raises .queryComplete) + calls.countP (·.raises .queryRejected) +
      calls.countP (·.raises .queryTooLarge) = calls.countP isQuery := by
  induction calls with
  | nil => rfl
  | cons call calls ih =>
    have hcall := call.raises_query
    have hcons : ∀ p : FinishedCall → Bool,
        (call :: calls).countP p = calls.countP p + (p call).toNat := by
      intro p
      rw [List.countP_cons]
      cases p call <;> rfl
    rw [hcons, hcons, hcons, hcons]
    omega

theorem rows_of_event?_eq_none {call : FinishedCall} (h : call.event? = none) : call.rows = 0 := by
  rcases call with ⟨e, succeeded⟩ | ⟨document, result⟩
  · rfl
  · cases h

end FinishedCall

/-! ### Counters -/

/-- The events of which the number is kept. -/
def Journal.Event.counted : List Event :=
  [.queryComplete, .queryRejected, .queryTooLarge, .datasetAdded, .datasetRemoved]

/-- The entry is ordinary, and its event is not counted. -/
def Journal.Entry.Uncounted (e : Entry) : Prop :=
  e.Ordinary ∧ ∀ event ∈ Event.counted, e.event ≠ event.name

theorem Journal.Entry.Uncounted.of_event {e : Entry} {name : String}
    (hseverity : e.severity = .info) (hname : e.event = name)
    (hplain : Journal.isPlainName name = true)
    (hnew : ∀ event ∈ Event.counted, name ≠ event.name) : e.Uncounted :=
  ⟨⟨.inl hseverity, hname ▸ hplain⟩, hname ▸ hnew⟩

theorem Journal.Event.uncounted_entry {event : Event} (h : event ∉ Event.counted)
    (fields : Journal.Fields) : (event.entry fields).Uncounted := by
  refine ⟨event.ordinary_entry fields, fun other hother hname => h ?_⟩
  rwa [Event.name_inj.mp hname]

namespace Metrics

/-- The number of times that an event was counted. -/
def of (m : Metrics) : Event → UInt64
  | .queryComplete => m.queriesExecuted
  | .queryRejected => m.queriesRejected
  | .queryTooLarge => m.resultsTooLarge
  | .datasetAdded => m.datasetsAdded
  | .datasetRemoved => m.datasetsRemoved
  | _ => 0

theorem of_countAdded (m : Metrics) (event : Event) :
    m.countAdded.of event = m.of event + if event = .datasetAdded then 1 else 0 := by
  cases event <;> simp [of, countAdded]

theorem of_countRemoved (m : Metrics) (event : Event) :
    m.countRemoved.of event = m.of event + if event = .datasetRemoved then 1 else 0 := by
  cases event <;> simp [of, countRemoved]

theorem of_countOutcome (m : Metrics) (result : Except QueryFailure Answer) (event : Event) :
    (Catalog.countOutcome m result).of event =
      m.of event + if event = (Catalog.outcomeEvent result).1 then 1 else 0 := by
  rcases result with (cause | rows) | answer
  · cases event <;> simp [of, Catalog.countOutcome, countRejected, Catalog.outcomeEvent]
  · cases event <;> simp [of, Catalog.countOutcome, countTooLarge, Catalog.outcomeEvent]
  · cases event <;> simp [of, Catalog.countOutcome, countAnswer, Catalog.outcomeEvent]

end Metrics

/-! ### Accounts -/

/-- The calls account for what is new in the counters and the registry, and for the entries.  The
counters grow as numbers of 64 bits do. -/
structure Accounts (c : Catalog) (calls : List FinishedCall) (entries : List Entry) (c' : Catalog) :
    Prop where
  /-- Each counter grew by the calls that raise it. -/
  counters : ∀ event,
    c'.metrics.of event = c.metrics.of event + .ofNat (calls.countP (·.raises event))
  /-- The rows grew by those that queries returned. -/
  rows : c'.metrics.rowsReturned =
    c.metrics.rowsReturned + .ofNat (calls.map FinishedCall.rows).sum
  /-- The registry grew by the additions, less the removals. -/
  size : c'.registry.size + calls.countP (·.raises .datasetRemoved) =
    c.registry.size + calls.countP (·.raises .datasetAdded)
  /-- There are as many entries about a counted event as there are calls that raise it. -/
  reported : ∀ event ∈ Event.counted,
    entries.countP (·.event == event.name) = calls.countP (·.raises event)
  ordinary : ∀ e ∈ entries, e.Ordinary

namespace Accounts

variable {calls calls' : List FinishedCall} {entries entries' : List Entry}

/-- Accounts add up. -/
theorem append (h : Accounts c calls entries c') (h' : Accounts c' calls' entries' c'') :
    Accounts c (calls ++ calls') (entries ++ entries') c'' where
  counters event := by
    rw [h'.counters, h.counters, List.countP_append, UInt64.ofNat_add, UInt64.add_assoc]
  rows := by
    rw [h'.rows, h.rows, List.map_append, List.sum_append, UInt64.ofNat_add, UInt64.add_assoc]
  size := by
    have hfirst := h.size
    have hsecond := h'.size
    rw [List.countP_append, List.countP_append]
    omega
  reported event hevent := by
    rw [List.countP_append, List.countP_append, h.reported event hevent,
      h'.reported event hevent]
  ordinary e he := by
    rcases List.mem_append.mp he with he | he
    · exact h.ordinary e he
    · exact h'.ordinary e he

/-- Calls that raise nothing account for entries about events that are not counted. -/
theorem of_uncounted (hcalls : ∀ call ∈ calls, call.event? = none)
    (hentries : ∀ e ∈ entries, e.Uncounted) :
    Accounts c calls entries c := by
  have hraises : ∀ event, calls.countP (·.raises event) = 0 := by
    refine fun event => List.countP_eq_zero.mpr fun call hcall => ?_
    rw [FinishedCall.raises, hcalls call hcall]
    simp
  have hrows : (calls.map FinishedCall.rows).sum = 0 := by
    refine List.sum_eq_zero_iff_forall_eq_nat.mpr fun n hn => ?_
    obtain ⟨call, hcall, rfl⟩ := List.mem_map.mp hn
    exact FinishedCall.rows_of_event?_eq_none (hcalls call hcall)
  refine ⟨fun event => ?_, ?_, ?_, fun event hevent => ?_, fun e he => (hentries e he).1⟩
  · rw [hraises]
    exact (UInt64.add_zero _).symm
  · rw [hrows]
    exact (UInt64.add_zero _).symm
  · rw [hraises, hraises]
  · rw [hraises, List.countP_eq_zero]
    intro e he
    rw [beq_iff_eq]
    exact (hentries e he).2 event hevent

/-- A call that raises an event accounts for the entry about it. -/
theorem of_call {call : FinishedCall} {event : Event} (fields : Journal.Fields)
    (hevent : call.event? = some event)
    (hcounters : ∀ other, c'.metrics.of other = c.metrics.of other + if other = event then 1 else 0)
    (hrows : c'.metrics.rowsReturned = c.metrics.rowsReturned + .ofNat call.rows)
    (hsize : c'.registry.size + (if event = .datasetRemoved then 1 else 0) =
      c.registry.size + if event = .datasetAdded then 1 else 0) :
    Accounts c [call] [event.entry fields] c' := by
  have hraises : ∀ other, [call].countP (·.raises other) = if other = event then 1 else 0 :=
    fun _ => FinishedCall.countP_singleton_raises hevent
  refine ⟨fun other => ?_, ?_, ?_, fun other _ => ?_, fun e he => ?_⟩
  · rw [hraises, hcounters]
    split
    · rfl
    · rfl
  · rw [hrows, List.map_singleton, List.sum_singleton]
  · rw [hraises, hraises]
    simpa only [eq_comm] using hsize
  · rw [hraises, List.countP_singleton]
    show (if (event.name == other.name) = true then 1 else 0) = _
    exact if_congr (by rw [beq_iff_eq, Event.name_inj, eq_comm]) rfl rfl
  · rw [List.mem_singleton.mp he]
    exact event.ordinary_entry fields

end Accounts

/-! ### Quiet parts -/

namespace DataDirectory

theorem quiet_replace (path : FilePath) (content : ByteArray) : (replace path content).run.Quiet :=
  Action.quiet_bind (Action.quiet_orFail (Program.quiet_changing _)) fun _ =>
    Action.quiet_bind (Action.quiet_orFail (Program.quiet_changing _)) fun _ =>
      Action.quiet_orFail (Program.quiet_changing _)

theorem quiet_writeMap (entries : List Listing) : (d.writeMap entries).run.Quiet :=
  Action.quiet_bind (Action.quiet_lift (Program.quiet_take _)) fun _ => quiet_replace _ _

theorem quiet_writeDataset (x : Dataset) : (d.writeDataset x).run.Quiet :=
  Action.quiet_bind (Action.quiet_lift (Program.quiet_take _)) fun _ => quiet_replace _ _

theorem quiet_removeDataset (id : String) : (d.removeDataset id).Quiet := by
  refine Program.Quiet.bind (Program.quiet_changing _) fun result => ?_
  split
  · exact Program.quiet_pure _
  · exact Program.quiet_pure _
  · exact Program.quiet_pure _

theorem quiet_prepare : d.prepare.run.Quiet := Action.quiet_orFail (Program.quiet_changing _)

theorem quiet_readMap [FloatReader] : d.readMap.run.Quiet := by
  refine Action.quiet_bind (Action.quiet_lift (Program.quiet_asking _ _)) fun present => ?_
  split
  · refine Action.quiet_bind (Action.quiet_orFail (Program.quiet_reads _)) fun content => ?_
    split
    · exact Program.quiet_pure _
    · exact Program.quiet_pure _
  · exact Program.quiet_pure _

theorem quiet_readDataset [FloatReader] (entry : Listing) : (d.readDataset entry).run.Quiet := by
  refine Action.quiet_bind (Action.quiet_orFail (Program.quiet_reads _)) fun content => ?_
  split
  · exact Program.quiet_pure _
  · split
    · exact Program.quiet_pure _
    · exact Program.quiet_pure _

theorem quiet_readAll [FloatReader] (entries : List Listing) (r : Registry) :
    (Catalog.readAll d entries r).run.Quiet := by
  induction entries generalizing r with
  | nil => exact Program.quiet_pure _
  | cons entry entries ih => exact Action.quiet_bind (quiet_readDataset entry) fun x => ih _

theorem quiet_removeAll (ids : List String) : (d.removeAll ids).Quiet := by
  induction ids with
  | nil => exact Program.quiet_pure _
  | cons id ids ih =>
    exact (quiet_removeDataset id).bind fun _ => ih.bind fun _ => Program.quiet_pure _

theorem quiet_sweep (listed : List String) : (d.sweep listed).run.Quiet := by
  refine Action.quiet_bind (Action.quiet_orFail (Program.quiet_listing _)) fun found => ?_
  refine Action.quiet_bind (Action.quiet_lift (quiet_removeAll _)) fun stuck => ?_
  split
  · exact Program.quiet_pure _
  · exact Program.quiet_pure _

end DataDirectory

namespace Catalog

theorem quiet_storeAdded (x : Dataset) (entries : List Listing) (directory : Option DataDirectory) :
    (storeAdded x entries directory).run.Quiet := by
  rcases directory with - | d
  · exact Program.quiet_pure _
  · exact Action.quiet_bind (d.quiet_writeDataset x) fun _ => d.quiet_writeMap entries

/-! ### Edits -/

theorem wrote_reportOrphans {ids : List String} {u : Unit} (h : (reportOrphans ids).Ends w u w') :
    w.Wrote (ids.map orphanEntry) w' := by
  induction ids generalizing w with
  | nil => exact h.2
  | cons id ids ih =>
    obtain ⟨_, middle, hlog, hrest⟩ := Program.ends_bind h
    exact (Program.wrote_of_log hlog).append (ih hrest)

/-- Storing a removal writes nothing, or that a file was left behind. -/
theorem wrote_storeRemoved {entries : List Listing} {directory : Option DataDirectory}
    {result : Except CatalogError Unit}
    (h : (storeRemoved id entries directory).run.Ends w result w') :
    ∃ orphans : List String, w.Wrote (orphans.map orphanEntry) w' := by
  rcases directory with - | d
  · exact ⟨[], Program.quiet_pure _ _ _ _ h⟩
  · rcases Action.ends_bind h with ⟨_, w₁, hmap, hrest⟩ | ⟨e, hmap, -⟩
    · obtain ⟨gone, w₂, hremove, hreport⟩ := Action.ends_lift_bind hrest
      obtain ⟨_, hreport, -⟩ := Action.ends_lift hreport
      have hquiet : w₂.journal = w.journal :=
        (d.quiet_removeDataset id _ _ _ hremove).trans (d.quiet_writeMap entries _ _ _ hmap)
      exact ⟨_, (wrote_reportOrphans hreport).after_quiet hquiet⟩
    · exact ⟨[], d.quiet_writeMap entries _ _ _ hmap⟩

variable {result : Except CatalogError (List String)} {removed : Except CatalogError String}

/-- An addition that fails writes nothing; one that succeeds is reported. -/
theorem ends_add (h : (c.add id kind records).Ends w (result, c') w') :
    (∃ failure, result = .error failure ∧ c' = c ∧ w'.journal = w.journal) ∨
      ∃ x fields, checkAddition c.registry id kind records = .ok x ∧
        result = .ok c'.registry.ids ∧
        c' = { c with registry := c.registry.insert x, metrics := c.metrics.countAdded } ∧
        w.Wrote [Event.datasetAdded.entry fields] w' := by
  unfold add at h
  split at h
  · obtain ⟨⟨⟩, hsame⟩ := Program.ends_pure h
    exact .inl ⟨_, rfl, rfl, hsame⟩
  · rename_i x hcheck
    obtain ⟨stored, w₁, hstore, hrest⟩ := Program.ends_bind h
    have hquiet : w₁.journal = w.journal := quiet_storeAdded _ _ _ _ _ _ hstore
    rcases stored with failure | _
    · obtain ⟨⟨⟩, hsame⟩ := Program.ends_pure hrest
      exact .inl ⟨_, rfl, rfl, hsame.trans hquiet⟩
    · obtain ⟨_, w₂, hreport, hreturn⟩ := Program.ends_bind hrest
      obtain ⟨⟨⟩, hsame⟩ := Program.ends_pure hreturn
      exact .inr ⟨x, _, hcheck, rfl, rfl,
        ((Program.wrote_of_log hreport).after_quiet hquiet).then_quiet hsame⟩

/-- A removal that fails reports no removal; one that succeeds is reported last. -/
theorem ends_remove (h : (c.remove id).Ends w (removed, c') w') :
    ∃ orphans : List String,
      (∃ failure, removed = .error failure ∧ c' = c ∧ w.Wrote (orphans.map orphanEntry) w') ∨
        checkRemoval c.registry id = .ok () ∧ removed = .ok id ∧
          c' = { c with registry := c.registry.erase id, metrics := c.metrics.countRemoved } ∧
          ∃ fields,
            w.Wrote (orphans.map orphanEntry ++ [Event.datasetRemoved.entry fields]) w' := by
  unfold remove at h
  split at h
  · obtain ⟨⟨⟩, hsame⟩ := Program.ends_pure h
    exact ⟨[], .inl ⟨_, rfl, rfl, hsame⟩⟩
  · rename_i hcheck
    obtain ⟨stored, w₁, hstore, hrest⟩ := Program.ends_bind h
    obtain ⟨orphans, hwrote⟩ := wrote_storeRemoved hstore
    rcases stored with failure | _
    · obtain ⟨⟨⟩, hsame⟩ := Program.ends_pure hrest
      exact ⟨orphans, .inl ⟨_, rfl, rfl, hwrote.then_quiet hsame⟩⟩
    · obtain ⟨_, w₂, hreport, hreturn⟩ := Program.ends_bind hrest
      obtain ⟨⟨⟩, hsame⟩ := Program.ends_pure hreturn
      exact ⟨orphans, .inr ⟨hcheck, rfl, rfl, _,
        (hwrote.append (Program.wrote_of_log hreport)).then_quiet hsame⟩⟩

end Catalog

/-! ### Queries -/

namespace Catalog

variable {result : Except QueryFailure Answer}

/-- A query returns what the registry answers, counts the outcome and reports it. -/
theorem ends_query (h : (c.query document).Ends w (result, c') w') :
    result = c.registry.view.answer document ∧
      c' = { c with metrics := countOutcome c.metrics result } ∧
      ∃ fields, w.Wrote [(outcomeEvent result).1.entry fields] w' := by
  obtain ⟨_, w₁, hquery, hreturn⟩ := Program.ends_bind h
  obtain ⟨hpair, hsame⟩ := Program.ends_pure hreturn
  obtain ⟨rfl, rfl⟩ := Prod.mk.inj hpair
  obtain ⟨name, w₂, hname, hquery⟩ := Program.ends_bind hquery
  obtain ⟨elapsed, w₃, helapsed, hquery⟩ := Program.ends_bind hquery
  obtain ⟨_, w₄, hreport, hreturn⟩ := Program.ends_bind hquery
  obtain ⟨rfl, hsame'⟩ := Program.ends_pure hreturn
  -- only the report is not quiet
  have hquiet : w₃.journal = w.journal :=
    (Program.quiet_take _ _ _ _ helapsed).trans (Program.quiet_take _ _ _ _ hname)
  exact ⟨rfl, rfl, _,
    ((Program.wrote_of_log hreport).after_quiet hquiet).then_quiet (hsame.trans hsame')⟩

/-- **A query** raises exactly one counter, and the entry that it writes is about its outcome. -/
theorem accounts_query (h : (c.query document).Ends w (result, c') w') :
    ∃ entries, w.Wrote entries w' ∧ Accounts c [.queried document result] entries c' := by
  obtain ⟨-, rfl, fields, hwrote⟩ := ends_query h
  refine ⟨_, hwrote, Accounts.of_call fields rfl (Metrics.of_countOutcome c.metrics result) ?_ ?_⟩
  · rcases result with (cause | rows) | answer
    · exact (UInt64.add_zero _).symm
    · exact (UInt64.add_zero _).symm
    · rfl
  · rcases result with (cause | rows) | answer
    · rfl
    · rfl
    · rfl

/-! ### Edits and openings -/

theorem uncounted_of_mem_map {orphans : List String} {e : Entry}
    (he : e ∈ orphans.map orphanEntry) : e.Uncounted := by
  obtain ⟨id, -, rfl⟩ := List.mem_map.mp he
  exact Event.uncounted_entry (by decide) _

end Catalog

/-- **An edit** raises its counter and adds a dataset or takes one away, if it succeeds.  If it
fails, it raises no counter and leaves the registry as it is. -/
theorem Edit.accounts {e : Edit} {result : Except CatalogError (List String)}
    (h : (e.perform c).Ends w (result, c') w') :
    ∃ entries, w.Wrote entries w' ∧ Accounts c [.edited e result.isOk] entries c' := by
  have hfailed : ∀ call ∈ [FinishedCall.edited e false], call.event? = none := by
    intro call hcall
    rw [List.mem_singleton.mp hcall]
    cases e <;> rfl
  rcases e with ⟨id, kind, records⟩ | id
  · rcases Catalog.ends_add h with ⟨_, rfl, rfl, hsame⟩ |
      ⟨x, fields, hcheck, rfl, rfl, hwrote⟩
    · exact ⟨[], hsame, .of_uncounted hfailed (List.forall_mem_nil _)⟩
    · obtain ⟨hid, -, hnew, -, -⟩ := Catalog.checkAddition_eq_ok hcheck
      refine ⟨_, hwrote, .of_call fields rfl c.metrics.of_countAdded (UInt64.add_zero _).symm ?_⟩
      exact Registry.size_insert (hid ▸ hnew)
  · obtain ⟨⟨removed, after⟩, middle, hremove, hreturn⟩ := Program.ends_bind h
    obtain ⟨⟨⟩, hremove⟩ := hremove.then_pure hreturn
    obtain ⟨orphans, ⟨_, rfl, rfl, hwrote⟩ | ⟨hcheck, rfl, rfl, fields, hwrote⟩⟩ :=
      Catalog.ends_remove hremove
    · exact ⟨_, hwrote, .of_uncounted hfailed fun _ => Catalog.uncounted_of_mem_map⟩
    · obtain ⟨-, hthere⟩ := Catalog.checkRemoval_eq_ok hcheck
      -- files that were left behind are reported first
      have horphans : Accounts c [] (orphans.map Catalog.orphanEntry) c :=
        .of_uncounted (List.forall_mem_nil _) fun _ => Catalog.uncounted_of_mem_map
      refine ⟨_, hwrote, horphans.append ?_⟩
      refine .of_call fields rfl c.metrics.of_countRemoved (UInt64.add_zero _).symm ?_
      exact Registry.size_erase hthere

namespace Catalog

variable [FloatReader]

/-- Restoring that ends well starts the counters, and reports what a sweep could not remove. -/
theorem ends_restore (h : (restore d).run.Ends w (.ok c) w') :
    c.metrics = .zero ∧ ∃ reported : List String, w.Wrote (reported.map orphanEntry) w' := by
  rcases Action.ends_bind h with ⟨_, w₁, hprepare, h⟩ | ⟨_, -, he⟩
  · rcases Action.ends_bind h with ⟨entries, w₂, hmap, h⟩ | ⟨_, -, he⟩
    · rcases Action.ends_bind h with ⟨registry, w₃, hread, h⟩ | ⟨_, -, he⟩
      · rcases Action.ends_bind h with ⟨stuck, w₄, hsweep, h⟩ | ⟨_, -, he⟩
        · obtain ⟨_, w₅, hreport, hreturn⟩ := Action.ends_lift_bind h
          obtain ⟨hc, hsame⟩ := Program.ends_pure hreturn
          cases hc
          have hquiet : w₄.journal = w.journal :=
            (d.quiet_sweep _ _ _ _ hsweep).trans ((d.quiet_readAll _ _ _ _ _ hread).trans
              ((d.quiet_readMap _ _ _ hmap).trans (d.quiet_prepare _ _ _ hprepare)))
          exact ⟨rfl, stuck, ((wrote_reportOrphans hreport).after_quiet hquiet).then_quiet hsame⟩
        · cases he
      · cases he
    · cases he
  · cases he

/-- An opening that ends well starts the counters, and writes what it does around the restoring. -/
theorem ends_openAt (h : (openAt d).run.Ends w (.ok c) w') :
    c.metrics = .zero ∧ ∃ reported elapsed, w.Wrote (openingEntries d c reported elapsed) w' := by
  obtain ⟨_, w₁, hbegun, h⟩ := Program.ends_bind h
  obtain ⟨result, w₂, hrestore, h⟩ := Program.ends_bind h
  rcases result with failure | c₁
  · obtain ⟨_, w₃, -, hreturn⟩ := Program.ends_bind h
    cases (Program.ends_pure hreturn).1
  · obtain ⟨elapsed, w₃, helapsed, h⟩ := Program.ends_bind h
    obtain ⟨_, w₄, hcompleted, h⟩ := Program.ends_bind h
    obtain ⟨_, w₅, hloaded, hreturn⟩ := Program.ends_bind h
    obtain ⟨hc, hsame⟩ := Program.ends_pure hreturn
    cases hc
    obtain ⟨hzero, reported, hreported⟩ := ends_restore hrestore
    have hrestored : w.Wrote ([(restoreScope d).begun] ++ reported.map orphanEntry) w₃ :=
      ((Program.wrote_of_log hbegun).append hreported).then_quiet
        (Program.quiet_take _ _ _ _ helapsed)
    have hclosed := (Program.wrote_of_log hcompleted).append (Program.wrote_of_log hloaded)
    exact ⟨hzero, reported, elapsed, (hrestored.append hclosed).then_quiet hsame⟩

/-- **An opening that ends well** is no call, and what it writes is not counted. -/
theorem accounts_openAt (h : (openAt d).run.Ends w (.ok c) w') :
    ∃ entries, w.Wrote entries w' ∧ Accounts c [] entries c := by
  obtain ⟨-, reported, elapsed, hwrote⟩ := ends_openAt h
  refine ⟨_, hwrote, .of_uncounted (List.forall_mem_nil _) fun e he => ?_⟩
  rw [openingEntries, List.append_assoc, List.mem_append, List.mem_append, List.mem_singleton,
    List.mem_pair] at he
  rcases he with rfl | he | rfl | rfl
  · exact .of_event rfl (rfl : _ = "CATALOG_RESTORE_BEGIN") (by decide) (by decide)
  · exact uncounted_of_mem_map he
  · exact .of_event rfl (rfl : _ = "CATALOG_RESTORE_COMPLETE") (by decide) (by decide)
  · exact Event.uncounted_entry (by decide) _

end Catalog

end CampusQuery
