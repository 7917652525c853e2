/-
CampusQuery/Answer/Run.lean

From a query to the rows of its answer.

The records that satisfy the filter become rows, one each or one for each group.  An
answer of more than `resultLimit` rows is refused.  Only then are the rows sorted
and, in a grouped query, narrowed to the columns.
-/
import CampusQuery.Answer.Group
import CampusQuery.Answer.Sort
import CampusQuery.Filter.Select
import CampusQuery.Query.Check

namespace CampusQuery

/-- The greatest number of rows in an answer. -/
def resultLimit : Nat := 5000

/-- Why a query has no answer. -/
inductive QueryFailure where
  | rejected (cause : QueryError)
  | tooLarge (rows : Nat)
deriving DecidableEq

namespace QueryFailure

/-- The code of the failure. -/
def code : QueryFailure → String
  | .rejected _ => "CAMPUS_QUERY_REJECTED"
  | .tooLarge _ => "CAMPUS_RESULT_TOO_LARGE"

/-- The wording of the failure. -/
def message : QueryFailure → String
  | .rejected cause => cause.message
  | .tooLarge rows => s!"Query produced {rows} rows, limit is {resultLimit}"

/-- The failure on one line. -/
def display : QueryFailure → String
  | f@(.rejected cause) => s!"[REJECT] {f.code}: {cause.code}: {f.message}"
  | f@(.tooLarge _) => s!"[REJECT] {f.code}: {f.message}"

end QueryFailure

/-- The answer to a query: its rows, and the dataset they are from. -/
structure Answer where
  dataset : String
  rows : List Row
deriving DecidableEq

namespace Answer

/-- The rows as a document, members in the order of the rows. -/
def rowsJson (a : Answer) : Json := .array (a.rows.map Row.toJson)

/-- The answer as a document. -/
def toJson (a : Answer) : Json := .object [("result", a.rowsJson)]

end Answer

namespace Query

/-- The row of a record: the fields of the columns. -/
def recordRow (columns : List Column) (r : Record) : Row :=
  columns.foldl (fun row c => row.insert? c.key (c.field.bind r.value?)) Row.empty

/-- The rows before limit, order and projection. -/
def rawRows (q : Query) (records : List Record) : List Row :=
  match q.transformation with
  | some t => t.rows records
  | none => records.map (recordRow q.columns)

/-- The rows in the order of the query. -/
def ordered (q : Query) (rows : List Row) : List Row :=
  match q.order with
  | some o => o.sort rows
  | none => rows

/-- The rows narrowed to the columns; rows of single records are so already. -/
def projected (q : Query) (rows : List Row) : List Row :=
  match q.transformation with
  | some _ => rows.map (·.project (q.columns.map Column.key))
  | none => rows

/-- The answer to a query about the records of a store. -/
def runOn (q : Query) (store : RecordStore) : Except QueryFailure Answer :=
  match Filter.selectOptional store q.filter with
  | .error e => .error (.rejected e)
  | .ok positions =>
    let rows := q.rawRows (store.select positions)
    if rows.length > resultLimit then .error (.tooLarge rows.length)
    else .ok ⟨q.dataset, q.projected (q.ordered rows)⟩

end Query

/-- The datasets that queries can see: the records under each id. -/
abbrev CatalogView := String → Option RecordStore

namespace CatalogView

/-- The kind of the dataset under an id. -/
def kinds (view : CatalogView) (id : String) : Option Kind := (view id).map RecordStore.kind

/-- The answer to a checked query. -/
def run (view : CatalogView) (q : Query) : Except QueryFailure Answer :=
  match view q.dataset with
  | some store => q.runOn store
  | none => .error (.rejected (.unknownDataset q.dataset))

/-- The answer to a query document that is checked against the given kinds. -/
def answerWith (view : CatalogView) (kinds : String → Option Kind) (document : Json) :
    Except QueryFailure Answer :=
  match Query.ofJson kinds document with
  | .ok q => view.run q
  | .error e => .error (.rejected e)

/-- The answer to a query document. -/
def answer (view : CatalogView) (document : Json) : Except QueryFailure Answer :=
  view.answerWith view.kinds document

end CatalogView

end CampusQuery
