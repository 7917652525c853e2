/-
CampusQuery/Service/Request.lean

Requests to the service, and what they ask for.

A path leads to a resource if it has exactly the resource's segments; parts that are
left open must not be empty, and are decoded only after the path was matched.  Each
resource knows one method, and `HEAD` goes with `GET`.
-/
import CampusQuery.Text.Percent
import CampusQuery.Text.Split

namespace CampusQuery.Service

/-- A request. -/
structure Request where
  method : String
  /-- The path, with the query string and the fragment. -/
  target : String
  /-- The site on whose behalf the request is made. -/
  origin : Option String
  body : ByteArray

/-- An answer. -/
structure Response where
  status : Nat
  contentType : Option String
  body : String
  /-- The site that may read the answer. -/
  allowOrigin : Option String
deriving DecidableEq

/-- What a path leads to.  Open parts are still encoded. -/
inductive Resource where
  | health
  | metrics
  | datasets
  | newDataset (id kind : String)
  | dataset (id : String)
  | query
deriving DecidableEq

namespace Resource

/-- The resource of the segments of a path. -/
def ofSegments? : List String → Option Resource
  | ["", "health"] => some .health
  | ["", "metrics"] => some .metrics
  | ["", "datasets"] => some .datasets
  | ["", "query"] => some .query
  | ["", "dataset", id] => if id.isEmpty then none else some (.dataset id)
  | ["", "dataset", id, kind] =>
    if id.isEmpty || kind.isEmpty then none else some (.newDataset id kind)
  | _ => none

/-- The method of a resource. -/
def method : Resource → String
  | .health | .metrics | .datasets => "GET"
  | .newDataset _ _ => "PUT"
  | .dataset _ => "DELETE"
  | .query => "POST"

/-- The resource answers a method. -/
def answers (r : Resource) (method : String) : Bool :=
  method == r.method || (method == "HEAD" && r.method == "GET")

end Resource

namespace Request

/-- The path without the query string and the fragment. -/
def path (r : Request) : String :=
  String.ofList (r.target.toList.takeWhile fun c => c != '?' && c != '#')

/-- The resource that the request is about. -/
def resource? (r : Request) : Option Resource :=
  Resource.ofSegments? ((Text.split '/' r.path.toList).map String.ofList)

end Request

/-! ### Origins -/

/-- Which sites may read the answers. -/
inductive OriginPolicy where
  | anyone
  | listed (origins : List String)
deriving DecidableEq

namespace OriginPolicy

/-- The text can be the value of a header: printable ASCII and tabs. -/
def isHeaderText (s : String) : Bool :=
  s.toList.all fun c => (' ' ≤ c && c ≤ '~') || c == '\t'

/-- The policy of a list of sites.  An empty list lets everyone in, entries that no
header can hold are left out, and the wildcard may not be an entry. -/
def ofOrigins? (origins : List String) : Option OriginPolicy :=
  if origins.isEmpty then some .anyone
  else if origins.contains "*" then none
  else some (.listed (origins.filter isHeaderText))

/-- Whom an answer names as allowed to read it. -/
def allow (policy : OriginPolicy) (origin : Option String) : Option String :=
  match policy with
  | .anyone => some "*"
  | .listed origins => origin.filter origins.contains

end OriginPolicy

end CampusQuery.Service
