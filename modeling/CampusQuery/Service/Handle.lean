/-
CampusQuery/Service/Handle.lean

Answering requests.

`handle` is the service: a request goes to one resource, and only adding or removing a
dataset changes the registered datasets.  Failures of the caller are answered with 400
or 404, failures of the storage with 500; the body is then `error` and the wording of
the error.
-/
import CampusQuery.Catalog.Basic
import CampusQuery.Service.Request

namespace CampusQuery.Service

/-! ### Contents and errors -/

/-- The status and the content of an answer. -/
structure Content where
  status : Nat
  /-- The type of the content, and the content. -/
  content : Option (String × String)
deriving DecidableEq

namespace Content

/-- Nothing but a status. -/
def bare (status : Nat) : Content := ⟨status, none⟩

/-- A document. -/
def document (status : Nat) (v : Json) : Content := ⟨status, some ("application/json", v.write)⟩

/-- A text. -/
def plain (status : Nat) (s : String) : Content :=
  ⟨status, some ("text/plain; charset=utf-8", s)⟩

/-- The document of a result. -/
def result (v : Json) : Content := document 200 (.object [("result", v)])

/-- The document of an error. -/
def failure (status : Nat) (message : String) : Content :=
  document status (.object [("error", .text message)])

end Content

/-- Why a request fails. -/
inductive ServiceError where
  /-- An open part of the path is not UTF-8. -/
  | partNotUtf8 (name : String)
  /-- The body is longer than the service reads. -/
  | bodyTooLong
  | bodyNotJson
  | unknownKind (name : String)
  | badRows (cause : DatasetError)
  | catalog (cause : CatalogError)
  | query (cause : QueryFailure)
deriving DecidableEq

namespace ServiceError

/-- The answer to a request that fails. -/
def content : ServiceError → Content
  | .partNotUtf8 name => .plain 400 s!"Invalid URL: Invalid UTF-8 in `{name}`"
  | .bodyTooLong => .plain 413 "Failed to buffer the request body: length limit exceeded"
  | .bodyNotJson => .failure 400 s!"Invalid request body: {Json.malformedMessage}"
  | .unknownKind name => .failure 400 s!"Invalid dataset kind: {name}"
  | .badRows cause => .failure 400 cause.message
  | .catalog cause =>
    match cause with
    | .notFound _ => .failure 404 cause.message
    | _ => .failure (if cause.isInternal then 500 else 400) cause.message
  | .query cause => .failure 400 cause.message

end ServiceError

/-! ### Resources -/

variable [FloatReader]

/-- A part of a path, decoded. -/
def decodePart (name part : String) : Except ServiceError String :=
  match Text.percentDecode? part with
  | some s => .ok s
  | none => .error (.partNotUtf8 name)

/-- The service reads bodies up to this length. -/
def maxBodyBytes : Nat := 2097152

/-- The body, if it is not too long. -/
def checkLength (body : ByteArray) : Except ServiceError ByteArray :=
  if maxBodyBytes < body.size then .error .bodyTooLong else .ok body

/-- The document in a body. -/
def readBody (body : ByteArray) : Except ServiceError Json :=
  match Json.readText (Json.Tree.readAny Json.maxDepth) (.ofBytes body) with
  | .ok v => .ok v
  | .error _ => .error .bodyNotJson

/-- What is to be added. -/
structure Addition where
  id : String
  kind : Kind
  records : List Record

/-- Reads what a request wants to add. -/
def readAddition (idPart kindPart : String) (body : ByteArray) : Except ServiceError Addition := do
  let id ← decodePart "id" idPart
  let name ← decodePart "kind" kindPart
  let body ← checkLength body
  match Kind.ofName? name with
  | none => .error (.unknownKind name)
  | some kind =>
    let rows ← readBody body
    let records ← (Record.readRows kind rows).mapError .badRows
    return ⟨id, kind, records⟩

/-- The service's version. -/
def version : String := "0.1.0"

/-- Answers a request for a resource, and returns the catalog after it. -/
def serve (c : Catalog) (body : ByteArray) :
    Resource → Program (Except ServiceError Content × Catalog)
  | .health =>
    return (.ok (.document 200 (.object [("status", .text "ok"), ("version", .text version)])), c)
  | .metrics => return (.ok (.document 200 c.metrics.toJson), c)
  | .datasets => return (.ok (.result (Listing.listToJson c.registry.listings)), c)
  | .newDataset idPart kindPart =>
    match readAddition idPart kindPart body with
    | .error e => return (.error e, c)
    | .ok a => do
      match ← c.add a.id a.kind a.records with
      | (.ok ids, after) => return (.ok (.result (.array (ids.map .text))), after)
      | (.error e, after) => return (.error (.catalog e), after)
  | .dataset idPart =>
    match decodePart "id" idPart with
    | .error e => return (.error e, c)
    | .ok id => do
      match ← c.remove id with
      | (.ok removed, after) => return (.ok (.result (.text removed)), after)
      | (.error e, after) => return (.error (.catalog e), after)
  | .query =>
    match checkLength body >>= readBody with
    | .error e => return (.error e, c)
    | .ok document => do
      match ← c.query document with
      | (.ok answer, after) => return (.ok (.document 200 answer.toJson), after)
      | (.error e, after) => return (.error (.query e), after)

/-! ### Requests -/

/-- The content of the answer to a request, and the catalog after it. -/
def contentOf (c : Catalog) (r : Request) : Program (Content × Catalog) :=
  if r.method = "OPTIONS" then return (.bare 200, c)
  else
    match r.resource? with
    | none => return (.bare 404, c)
    | some resource =>
      if resource.answers r.method then do
        match ← serve c r.body resource with
        | (.ok content, after) => return (content, after)
        | (.error e, after) => return (e.content, after)
      else return (.bare 405, c)

/-- The answer with a content; `HEAD` gets it without its body. -/
def respond (policy : OriginPolicy) (r : Request) (content : Content) : Response where
  status := content.status
  contentType := content.content.map (·.1)
  body := if r.method = "HEAD" then "" else (content.content.map (·.2)).getD ""
  allowOrigin := policy.allow r.origin

/-- Answers a request, and returns the catalog after it. -/
def handle (policy : OriginPolicy) (c : Catalog) (r : Request) : Program (Response × Catalog) := do
  let (content, after) ← contentOf c r
  return (respond policy r content, after)

end CampusQuery.Service
