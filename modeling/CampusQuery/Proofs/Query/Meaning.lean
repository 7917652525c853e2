/-
CampusQuery/Proofs/Query/Meaning.lean

What a query document says about records, read off the document itself.

Nothing here goes through the checked form of a query.  A key names a field of a
record (`Record.named?`); WHERE is a condition on one record (`Record.Satisfies`,
`Matches`); COLUMNS, ORDER, GROUP and APPLY are lists of keys and rules that are picked
out of the document.  The readings make sense for every document and are meant for
those that are accepted as queries.
-/
import CampusQuery.Dataset.Store
import CampusQuery.Proofs.Filter.Glob
import CampusQuery.Query.Basic

namespace CampusQuery

/-! ### Keys and conditions -/

namespace Record

/-- The value that the record holds in the field that a key names. -/
def named? (r : Record) (key : String) : Option Scalar := do
  let parts ← QualifiedKey.ofText? key
  let field ← Field.ofName? r.kind parts.field
  r.value? field

/-- The condition of a comparison: of a number with a number, or of a text with a
pattern. -/
def Compares (r : Record) (tag key : String) (value : Json) : Prop :=
  match r.named? key, value with
  | some (.number x), .number n =>
    (tag = "LT" ∧ x.lt n.toBinary64 = true) ∨ (tag = "GT" ∧ n.toBinary64.lt x = true) ∨
      (tag = "EQ" ∧ x.eq n.toBinary64 = true)
  | some (.text s), .text pattern => tag = "IS" ∧ Glob pattern.toList s.toList
  | _, _ => False

/-- The record satisfies the filter that a value spells. -/
def Satisfies (r : Record) : Json → Prop
  | .object [("AND", .array parts)] => ∀ part ∈ parts, Satisfies r part
  | .object [("OR", .array parts)] => ∃ part, ∃ _ : part ∈ parts, Satisfies r part
  | .object [("NOT", inner)] => ¬ Satisfies r inner
  | .object [(tag, .object [(key, value)])] => Compares r tag key value
  | _ => False

theorem satisfies_leaf {r : Record} {tag key : String} {value : Json} (h : tag ≠ "NOT") :
    r.Satisfies (.object [(tag, .object [(key, value)])]) ↔ r.Compares tag key value := by
  rw [Satisfies]
  exact h

end Record

/-- The patterns in the filter that a value spells, depth first and from left to
right. -/
def Json.patterns : Json → List String
  | .object [("AND", .array parts)] => parts.flatMap patterns
  | .object [("OR", .array parts)] => parts.flatMap patterns
  | .object [("NOT", inner)] => patterns inner
  | .object [("IS", .object [(_, .text pattern)])] => [pattern]
  | _ => []

/-- The texts in an array. -/
def Json.texts : Json → List String
  | .array items => items.filterMap Json.text?
  | _ => []

/-! ### Clauses of a document -/

namespace Query

/-- The record satisfies WHERE; an empty WHERE is satisfied by all. -/
def Matches (document : Json) (r : Record) : Prop :=
  ∃ filter, document.get? "WHERE" = some filter ∧ (filter = .object [] ∨ r.Satisfies filter)

open Classical in
/-- The records of a store that satisfy WHERE, in scan order. -/
noncomputable def matching (document : Json) (store : RecordStore) : List Record :=
  store.records.toList.filter fun r => Matches document r

/-- The patterns in WHERE. -/
def patternsOf (document : Json) : List String :=
  ((document.get? "WHERE").map Json.patterns).getD []

/-- The keys of COLUMNS. -/
def columnKeys (document : Json) : List String :=
  (((document.get? "OPTIONS").bind (·.get? "COLUMNS")).map Json.texts).getD []

/-- The order that a value spells: a single key means upwards, and so does any direction
but `DOWN`. -/
def spelledOrder : Json → Order
  | .text key => ⟨.up, [key]⟩
  | v =>
    ⟨if (v.get? "dir").bind Json.text? = some "DOWN" then .down else .up,
      ((v.get? "keys").map Json.texts).getD []⟩

/-- ORDER, if there is one. -/
def orderOf (document : Json) : Option Order :=
  ((document.get? "OPTIONS").bind (·.get? "ORDER")).map spelledOrder

/-- The keys of GROUP. -/
def groupKeys (document : Json) : List String :=
  (((document.get? "TRANSFORMATIONS").bind (·.get? "GROUP")).map Json.texts).getD []

/-- A rule of APPLY: the name of the value, how it is made, and the key of the field it
is made of. -/
structure NamedRule where
  name : String
  aggregate : Aggregate
  key : String

/-- The rule that a value spells. -/
def NamedRule.ofJson? : Json → Option NamedRule
  | .object [(name, .object [(token, .text key)])] =>
    (Aggregate.ofToken? token).map (⟨name, ·, key⟩)
  | _ => none

/-- The rules of APPLY. -/
def applyRules (document : Json) : List NamedRule :=
  ((((document.get? "TRANSFORMATIONS").bind (·.get? "APPLY")).bind Json.items?).getD []).filterMap
    NamedRule.ofJson?

/-- The keys that stand for fields: without TRANSFORMATIONS those of the columns, else
those of the groups and of the rules. -/
def fieldKeys (document : Json) : List String :=
  match document.get? "TRANSFORMATIONS" with
  | none => columnKeys document
  | some _ => groupKeys document ++ (applyRules document).map NamedRule.key

/-- The document is about the dataset of an id: its keys name that dataset. -/
def Targets (document : Json) (id : String) : Prop :=
  fieldKeys document ≠ [] ∧
    ∀ key ∈ fieldKeys document, (QualifiedKey.ofText? key).map QualifiedKey.dataset = some id

end Query

end CampusQuery
