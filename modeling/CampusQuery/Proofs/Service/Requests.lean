/-
CampusQuery/Proofs/Service/Requests.lean

What requests want, and that the service does it.

A request asks for a resource with a method, with parts of the path that have to be decoded and with
a body that has to be read.  `Request.Wants` says of a request that all this is as it should be,
and which call is then wanted; a request makes this call and no other (`use?_eq_some_iff`).  The
service is the program of the call with an answer around it (`handle_of_edit`, `handle_of_query`),
and without a call it answers at once (`handle_of_idle`).
-/
import CampusQuery.Proofs.Catalog.Edits
import CampusQuery.Service.Handle

namespace CampusQuery

variable {c : Catalog} {e : Edit} {id name : String} {kind : Kind} {records : List Record}

/-- A call that can be made on a catalog. -/
inductive Use where
  | edit (e : Edit)
  | query (document : Json)

theorem Kind.ofName?_name (kind : Kind) : ofName? kind.name = some kind := by
  cases kind <;> decide

/-- What the caller is told about an edit that was answered with the ids: all of them, or the one
that was removed. -/
def Edit.document (ids : List String) : Edit → Json
  | .add _ _ _ => .array (ids.map .text)
  | .remove _ => .text (ids.headD "")

namespace Service

variable {policy : OriginPolicy} {r : Request} {resource resource' : Resource} {use : Use}
variable {idPart kindPart : String} {body : ByteArray} {error : ServiceError}

/-! ### What requests ask for -/

/-- The request is for the resource, by its method. -/
def Request.Asks (r : Request) (resource : Resource) : Prop :=
  r.method = resource.method ∧ r.resource? = some resource

/-- The request is to add a dataset with the id, and of the kind with the name. -/
def Request.IsAddition (r : Request) (id name : String) : Prop :=
  ∃ idPart kindPart, r.Asks (.newDataset idPart kindPart) ∧
    Text.percentDecode? idPart = some id ∧ Text.percentDecode? kindPart = some name ∧
    r.body.size ≤ maxBodyBytes

/-- The request is to remove the dataset with the id. -/
def Request.IsRemoval (r : Request) (id : String) : Prop :=
  ∃ idPart, r.Asks (.dataset idPart) ∧ Text.percentDecode? idPart = some id

/-- The request is to answer a query. -/
def Request.IsQuery (r : Request) : Prop := r.Asks .query ∧ r.body.size ≤ maxBodyBytes

theorem Request.Asks.unique (h : r.Asks resource) (h' : r.Asks resource') :
    resource = resource' :=
  Option.some.inj (h.2.symm.trans h'.2)

theorem Resource.method_ne (resource : Resource) :
    resource.method ≠ "OPTIONS" ∧ resource.method ≠ "HEAD" := by
  cases resource <;> simp [method]

theorem Request.Asks.answers (h : r.Asks resource) : resource.answers r.method = true := by
  simp [Resource.answers, h.1]

theorem Request.Asks.method_ne (h : r.Asks resource) : r.method ≠ "OPTIONS" :=
  h.1 ▸ resource.method_ne.1

theorem Request.IsAddition.unique {id' name' : String} (h : r.IsAddition id name)
    (h' : r.IsAddition id' name') : id = id' ∧ name = name' := by
  obtain ⟨idPart, kindPart, hasks, hid, hname, -⟩ := h
  obtain ⟨idPart', kindPart', hasks', hid', hname', -⟩ := h'
  cases hasks.unique hasks'
  exact ⟨Option.some.inj (hid.symm.trans hid'), Option.some.inj (hname.symm.trans hname')⟩

/-! ### Parts of requests -/

theorem decodePart_eq_ok_iff {part s : String} :
    decodePart name part = .ok s ↔ Text.percentDecode? part = some s := by
  rw [decodePart]
  rcases Text.percentDecode? part with - | s'
  · exact ⟨nofun, nofun⟩
  · exact ⟨fun h => congrArg some (Except.ok.inj h), fun h => congrArg _ (Option.some.inj h)⟩

theorem checkLength_of_le (h : body.size ≤ maxBodyBytes) : checkLength body = .ok body :=
  if_neg (Nat.not_lt.mpr h)

theorem checkLength_eq_ok {b : ByteArray} (h : checkLength body = .ok b) :
    b = body ∧ body.size ≤ maxBodyBytes := by
  unfold checkLength at h
  split at h
  · cases h
  · rename_i hsize
    exact ⟨(Except.ok.inj h).symm, Nat.not_lt.mp hsize⟩

/-- The status is that of the answer to a request that cannot be read. -/
def IsUnreadable (body : ByteArray) (status : Nat) : Prop :=
  status = 400 ∨ status = 413 ∧ maxBodyBytes < body.size

theorem IsUnreadable.ne_ok {status : Nat} (h : IsUnreadable body status) : status ≠ 200 := by
  rcases h with rfl | ⟨rfl, -⟩
  · decide
  · decide

theorem isUnreadable_of_decodePart {part : String} (h : decodePart name part = .error error) :
    IsUnreadable body error.content.status := by
  unfold decodePart at h
  split at h
  · cases h
  · cases h
    exact .inl rfl

theorem isUnreadable_of_checkLength (h : checkLength body = .error error) :
    IsUnreadable body error.content.status := by
  unfold checkLength at h
  split at h
  · rename_i hsize
    cases h
    exact .inr ⟨rfl, hsize⟩
  · cases h

/-! ### Calls of requests -/

variable [FloatReader]

/-- The call that a request for the resource makes; there is none if the request is not one for a
call, or cannot be read. -/
def Resource.use? (body : ByteArray) : Resource → Option Use
  | .health | .metrics | .datasets => none
  | .newDataset idPart kindPart =>
    match readAddition idPart kindPart body with
    | .ok a => some (.edit (.add a.id a.kind a.records))
    | .error _ => none
  | .dataset idPart =>
    match decodePart "id" idPart with
    | .ok id => some (.edit (.remove id))
    | .error _ => none
  | .query =>
    match checkLength body >>= readBody with
    | .ok document => some (.query document)
    | .error _ => none

/-- The call that a request makes. -/
def Request.use? (r : Request) : Option Use :=
  if r.method = "OPTIONS" then none
  else
    match r.resource? with
    | none => none
    | some resource => if resource.answers r.method then resource.use? r.body else none

/-- The content of the answer to a request that was served or not. -/
def contentOrError : Except ServiceError Content → Content
  | .ok content => content
  | .error e => e.content

/-- The content of the answer to a query. -/
def queryContent (result : Except QueryFailure Answer) : Content :=
  contentOrError ((result.map fun a => Content.document 200 a.toJson).mapError .query)

/-- The name is that of the kind, and the body holds rows of this kind with these records. -/
def Brings (body : ByteArray) (name : String) (kind : Kind) (records : List Record) : Prop :=
  Kind.ofName? name = some kind ∧
    ∃ rows, readBody body = .ok rows ∧ Record.readRows kind rows = .ok records

/-- The request can be read, and wants the call to be made. -/
inductive Request.Wants (r : Request) : Use → Prop
  | add {id name : String} {kind : Kind} {records : List Record} (h : r.IsAddition id name)
      (hbody : Brings r.body name kind records) : Wants r (.edit (.add id kind records))
  | remove {id : String} (h : r.IsRemoval id) : Wants r (.edit (.remove id))
  | query {document : Json} (h : r.IsQuery) (hbody : readBody r.body = .ok document) :
      Wants r (.query document)

/-! ### Reading requests -/

theorem readAddition_eq_ok_iff {a : Addition} :
    readAddition idPart kindPart body = .ok a ↔
      Text.percentDecode? idPart = some a.id ∧ ∃ name, Text.percentDecode? kindPart = some name ∧
        body.size ≤ maxBodyBytes ∧ Brings body name a.kind a.records := by
  rw [readAddition, bind_eq_ok_iff]
  constructor
  · rintro ⟨id, hid, hnamed⟩
    obtain ⟨name, hname, hchecked⟩ := bind_eq_ok_iff.mp hnamed
    obtain ⟨b, hlength, hread⟩ := bind_eq_ok_iff.mp hchecked
    obtain ⟨rfl, hsize⟩ := checkLength_eq_ok hlength
    rcases hkind : Kind.ofName? name with - | kind
    · rw [hkind] at hread
      cases hread
    · rw [hkind] at hread
      obtain ⟨rows, hrows, hconverted⟩ := bind_eq_ok_iff.mp hread
      obtain ⟨records, hrecords, hreturn⟩ := bind_eq_ok_iff.mp hconverted
      cases hreturn
      exact ⟨decodePart_eq_ok_iff.mp hid, name, decodePart_eq_ok_iff.mp hname, hsize, hkind, rows,
        hrows, mapError_eq_ok hrecords⟩
  · rintro ⟨hid, name, hname, hsize, hkind, rows, hrows, hrecords⟩
    refine ⟨a.id, decodePart_eq_ok_iff.mpr hid, bind_eq_ok_iff.mpr ⟨name,
      decodePart_eq_ok_iff.mpr hname, bind_eq_ok_iff.mpr ⟨body, checkLength_of_le hsize, ?_⟩⟩⟩
    rw [hkind]
    exact bind_eq_ok_iff.mpr ⟨rows, hrows,
      bind_eq_ok_iff.mpr ⟨a.records, by rw [hrecords]; rfl, rfl⟩⟩

theorem readQuery_eq_ok_iff {document : Json} :
    (checkLength body >>= readBody) = .ok document ↔
      body.size ≤ maxBodyBytes ∧ readBody body = .ok document := by
  rw [bind_eq_ok_iff]
  constructor
  · rintro ⟨b, hlength, hbody⟩
    obtain ⟨rfl, hsize⟩ := checkLength_eq_ok hlength
    exact ⟨hsize, hbody⟩
  · rintro ⟨hsize, hbody⟩
    exact ⟨body, checkLength_of_le hsize, hbody⟩

/-- The text of a value whose numbers are read back is read as the value. -/
theorem readBody_write {v : Json} (hcanonical : v.Canonical Json.maxDepth) (hv : v.ReadsBack) :
    readBody v.write.toUTF8 = .ok v := by
  rw [readBody, Json.readText_write hv, Json.Tree.readAny, Json.toJson?_ofJson hcanonical]

/-- What a dataset is stored as can be sent to have it added. -/
theorem brings_rowsOf [FloatReader.Exact] {s : RecordStore} (h : s.Storable) :
    Brings (Envelope.rowsOf s).write.toUTF8 s.kind.name s.kind s.records.toList :=
  ⟨s.kind.ofName?_name, _,
    readBody_write ((Envelope.canonical_rowsOf s).mono (by decide))
      (Envelope.storable_rowsOf h).readsBack,
    Envelope.readRows_rowsOf h⟩

theorem isUnreadable_of_readBody {b : ByteArray} (h : readBody b = .error error) :
    IsUnreadable body error.content.status := by
  unfold readBody at h
  split at h
  · cases h
  · cases h
    exact .inl rfl

theorem isUnreadable_of_readAddition (h : readAddition idPart kindPart body = .error error) :
    IsUnreadable body error.content.status := by
  rcases bind_eq_error h with hid | ⟨id, -, hnamed⟩
  · exact isUnreadable_of_decodePart hid
  rcases bind_eq_error hnamed with hname | ⟨name, -, hchecked⟩
  · exact isUnreadable_of_decodePart hname
  rcases bind_eq_error hchecked with hlength | ⟨b, -, hread⟩
  · exact isUnreadable_of_checkLength hlength
  rcases hkind : Kind.ofName? name with - | kind
  · rw [hkind] at hread
    cases hread
    exact .inl rfl
  rw [hkind] at hread
  rcases bind_eq_error hread with hrows | ⟨rows, -, hconverted⟩
  · exact isUnreadable_of_readBody hrows
  rcases bind_eq_error hconverted with hrecords | ⟨records, -, hreturn⟩
  · rcases hrows : Record.readRows kind rows with cause | records
    · rw [hrows] at hrecords
      cases hrecords
      exact .inl rfl
    · rw [hrows] at hrecords
      cases hrecords
  · cases hreturn

/-! ### The call of a request -/

/-- A request that asks for a resource makes the call of the resource. -/
theorem use?_of_asks (h : r.Asks resource) : r.use? = resource.use? r.body := by
  rw [Request.use?, if_neg h.method_ne, h.2]
  exact if_pos h.answers

/-- A request that makes a call asks for a resource that has one. -/
theorem asks_of_use? (h : r.use? = some use) :
    ∃ resource, r.Asks resource ∧ resource.use? r.body = some use := by
  unfold Request.use? at h
  split at h
  · cases h
  · split at h
    · cases h
    · rename_i resource hresource
      split at h
      · rename_i hanswers
        refine ⟨resource, ⟨?_, hresource⟩, h⟩
        -- a resource that is only read has no call, so its method is not `GET`
        have hmethod : resource.method ≠ "GET" := by
          cases resource <;> first | cases h | simp [Resource.method]
        simpa [Resource.answers, hmethod] using hanswers
      · cases h

/-- **The call of a request** is the one that it wants. -/
theorem use?_eq_some_iff : r.use? = some use ↔ r.Wants use := by
  constructor
  · intro h
    obtain ⟨resource, hasks, huse⟩ := asks_of_use? h
    cases resource with
    | health | metrics | datasets => cases huse
    | newDataset idPart kindPart =>
      rw [Resource.use?] at huse
      split at huse
      · rename_i a hread
        cases huse
        obtain ⟨hid, name, hname, hsize, hbody⟩ := readAddition_eq_ok_iff.mp hread
        exact .add ⟨idPart, kindPart, hasks, hid, hname, hsize⟩ hbody
      · cases huse
    | dataset idPart =>
      rw [Resource.use?] at huse
      split at huse
      · rename_i id hread
        cases huse
        exact .remove ⟨idPart, hasks, decodePart_eq_ok_iff.mp hread⟩
      · cases huse
    | query =>
      rw [Resource.use?] at huse
      split at huse
      · rename_i document hread
        cases huse
        obtain ⟨hsize, hbody⟩ := readQuery_eq_ok_iff.mp hread
        exact .query ⟨hasks, hsize⟩ hbody
      · cases huse
  · intro h
    cases h with
    | @add id name kind records haddition hbody =>
      obtain ⟨idPart, kindPart, hasks, hid, hname, hsize⟩ := haddition
      have hread : readAddition idPart kindPart r.body = .ok ⟨id, kind, records⟩ :=
        readAddition_eq_ok_iff.mpr ⟨hid, name, hname, hsize, hbody⟩
      rw [use?_of_asks hasks, Resource.use?, hread]
    | remove hremoval =>
      obtain ⟨idPart, hasks, hid⟩ := hremoval
      rw [use?_of_asks hasks, Resource.use?, decodePart_eq_ok_iff.mpr hid]
    | query hquery hbody =>
      obtain ⟨hasks, hsize⟩ := hquery
      rw [use?_of_asks hasks, Resource.use?, readQuery_eq_ok_iff.mpr ⟨hsize, hbody⟩]

theorem Request.Wants.unique {use use' : Use} (h : r.Wants use) (h' : r.Wants use') :
    use = use' :=
  Option.some.inj ((use?_eq_some_iff.mpr h).symm.trans (use?_eq_some_iff.mpr h'))

/-- A call that a request to add a dataset makes is the addition. -/
theorem Request.IsAddition.of_wants (h : r.IsAddition id name) (hwants : r.Wants use) :
    ∃ kind records, use = .edit (.add id kind records) ∧ Brings r.body name kind records := by
  cases hwants with
  | add h' hbody =>
    obtain ⟨rfl, rfl⟩ := h.unique h'
    exact ⟨_, _, rfl, hbody⟩
  | remove h' =>
    obtain ⟨_, _, hasks, -⟩ := h
    obtain ⟨_, hasks', -⟩ := h'
    cases hasks.unique hasks'
  | query h' =>
    obtain ⟨_, _, hasks, -⟩ := h
    cases hasks.unique h'.1

/-- A call that a request for a query makes is the query. -/
theorem Request.IsQuery.of_wants (h : r.IsQuery) (hwants : r.Wants use) :
    ∃ document, use = .query document ∧ readBody r.body = .ok document := by
  cases hwants with
  | add h' =>
    obtain ⟨_, _, hasks, -⟩ := h'
    cases h.1.unique hasks
  | remove h' =>
    obtain ⟨_, hasks, -⟩ := h'
    cases h.1.unique hasks
  | query h' hbody => exact ⟨_, rfl, hbody⟩

/-! ### The program of a request -/

/-- Serving an edit is the edit, and the result says how it went. -/
theorem serve_of_edit (h : resource.use? body = some (.edit e)) :
    serve c body resource = (do
      match ← e.perform c with
      | (.ok ids, after) => return (.ok (.result (e.document ids)), after)
      | (.error failure, after) => return (.error (.catalog failure), after)) := by
  cases resource with
  | health | metrics | datasets => cases h
  | newDataset idPart kindPart =>
    rw [Resource.use?] at h
    split at h
    · rename_i a hread
      cases h
      rewrite [serve, hread]
      rfl
    · cases h
  | dataset idPart =>
    rw [Resource.use?] at h
    split at h
    · rename_i id hread
      cases h
      rewrite [serve, hread, Edit.perform, bind_assoc]
      refine bind_congr fun removed => ?_
      rcases removed with ⟨failure | id, after⟩
      · rfl
      · rfl
    · cases h
  | query =>
    rw [Resource.use?] at h
    split at h
    · cases h
    · cases h

/-- Serving a query is the query. -/
theorem serve_of_query {document : Json} (h : resource.use? body = some (.query document)) :
    serve c body resource = (do
      match ← c.query document with
      | (.ok answer, after) => return (.ok (.document 200 answer.toJson), after)
      | (.error failure, after) => return (.error (.query failure), after)) := by
  cases resource with
  | health | metrics | datasets => cases h
  | newDataset idPart kindPart =>
    rw [Resource.use?] at h
    split at h
    · cases h
    · cases h
  | dataset idPart =>
    rw [Resource.use?] at h
    split at h
    · cases h
    · cases h
  | query =>
    rw [Resource.use?] at h
    split at h
    · rename_i document hread
      cases h
      rewrite [serve, hread]
      rfl
    · cases h

/-- A resource without a call is read, or the request cannot be. -/
theorem serve_of_idle (h : resource.use? body = none) :
    ∃ result, serve c body resource = pure (result, c) ∧
      ((contentOrError result).status = 200 ∧ resource.method = "GET" ∨
        IsUnreadable body (contentOrError result).status) := by
  cases resource with
  | health | metrics | datasets => exact ⟨_, rfl, .inl ⟨rfl, rfl⟩⟩
  | newDataset idPart kindPart =>
    rw [Resource.use?] at h
    split at h
    · cases h
    · rename_i error hread
      refine ⟨.error error, ?_, .inr (isUnreadable_of_readAddition hread)⟩
      rw [serve, hread]
  | dataset idPart =>
    rw [Resource.use?] at h
    split at h
    · cases h
    · rename_i error hread
      refine ⟨.error error, ?_, .inr (isUnreadable_of_decodePart hread)⟩
      rw [serve, hread]
  | query =>
    rw [Resource.use?] at h
    split at h
    · cases h
    · rename_i error hread
      refine ⟨.error error, by rw [serve, hread], .inr ?_⟩
      rcases bind_eq_error hread with hlength | ⟨b, -, hbody⟩
      · exact isUnreadable_of_checkLength hlength
      · exact isUnreadable_of_readBody hbody

theorem handle_of_asks (h : r.Asks resource) :
    handle policy c r = (do
      let (result, after) ← serve c r.body resource
      return (respond policy r (contentOrError result), after)) := by
  rw [handle, contentOf, if_neg h.method_ne, h.2]
  dsimp only
  rw [if_pos h.answers, bind_assoc]
  refine bind_congr fun served => ?_
  rcases served with ⟨failure | content, after⟩
  · rfl
  · rfl

/-- **A request for an edit** is the edit, and the answer says how it went. -/
theorem handle_of_edit (h : r.use? = some (.edit e)) :
    handle policy c r = (do
      match ← e.perform c with
      | (.ok ids, after) => return (respond policy r (.result (e.document ids)), after)
      | (.error failure, after) =>
        return (respond policy r (ServiceError.catalog failure).content, after)) := by
  obtain ⟨resource, hasks, huse⟩ := asks_of_use? h
  rw [handle_of_asks hasks, serve_of_edit huse, bind_assoc]
  refine bind_congr fun edited => ?_
  rcases edited with ⟨failure | ids, after⟩
  · rfl
  · rfl

/-- **A request for a query** is the query, and the answer is its result. -/
theorem handle_of_query {document : Json} (h : r.use? = some (.query document)) :
    handle policy c r = (do
      let (result, after) ← c.query document
      return (respond policy r (queryContent result), after)) := by
  obtain ⟨resource, hasks, huse⟩ := asks_of_use? h
  rw [handle_of_asks hasks, serve_of_query huse, bind_assoc]
  refine bind_congr fun answered => ?_
  rcases answered with ⟨failure | answer, after⟩
  · rfl
  · rfl

/-- **A request without a call** is answered at once. -/
theorem handle_of_idle (policy : OriginPolicy) (c : Catalog) (h : r.use? = none) :
    ∃ content, handle policy c r = pure (respond policy r content, c) ∧ content.status ≠ 500 ∧
      ∀ resource, r.Asks resource → resource.method ≠ "GET" →
        IsUnreadable r.body content.status := by
  rw [Request.use?] at h
  unfold handle contentOf
  by_cases hoptions : r.method = "OPTIONS"
  · rw [if_pos hoptions]
    exact ⟨.bare 200, rfl, by decide, fun _ hasks => (hasks.method_ne hoptions).elim⟩
  rw [if_neg hoptions] at h ⊢
  rcases hresource : r.resource? with - | resource
  · refine ⟨.bare 404, rfl, by decide, fun _ hasks => ?_⟩
    cases hresource.symm.trans hasks.2
  rw [hresource] at h
  dsimp only at h ⊢
  by_cases hanswers : resource.answers r.method = true
  · rw [if_pos hanswers] at h ⊢
    obtain ⟨result, hserve, hstatus⟩ := serve_of_idle (c := c) h
    refine ⟨contentOrError result, ?_, ?_, fun resource' hasks hmethod => ?_⟩
    · rw [hserve]
      rcases result with error | content
      · rfl
      · rfl
    · rcases hstatus with ⟨hok, -⟩ | hbad | ⟨hlong, -⟩
      · simp [hok]
      · simp [hbad]
      · simp [hlong]
    · obtain rfl := Option.some.inj (hresource.symm.trans hasks.2)
      exact hstatus.resolve_left fun hread => hmethod hread.2
  · rw [if_neg hanswers]
    refine ⟨.bare 405, rfl, by decide, fun resource' hasks => ?_⟩
    obtain rfl := Option.some.inj (hresource.symm.trans hasks.2)
    exact (hanswers hasks.answers).elim

end Service

end CampusQuery
