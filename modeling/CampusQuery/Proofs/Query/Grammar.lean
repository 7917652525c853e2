/-
CampusQuery/Proofs/Query/Grammar.lean

The grammar of query documents, with the query that each document stands for.

There is one relation for each clause, between the value that is written there and the part of
the query that it stands for.  All of them are about one dataset, given by its id and its kind,
in which every key is looked up (`Names`).  Nothing here says how a document is checked: the
members of an object come in any order, no clause comes before another, and no dataset is fixed
on the way.

WHERE is the one clause that nests, so its grammar is inductive, with a rule for every form of
condition (`Grammar.Condition`).
-/
import Mathlib.Data.List.Forall2
import Mathlib.Data.Option.Defs
import CampusQuery.Proofs.Query.Keys

namespace CampusQuery.Query

/-! ### Columns -/

/-- A column shows the field that its key names, or an entry of the grouped rows. -/
def ColumnFits (id : String) (kind : Kind) (t : Option Transformation) (c : Column) : Prop :=
  match t with
  | none => ∃ field, c.field = some field ∧ Names id kind c.key field
  | some t => c.field = none ∧ c.key ∈ columnNames t

namespace Grammar

/-- The value is an object that has each of the keys once, and no other. -/
def HasExactly (keys : List String) (v : Json) : Prop :=
  ∃ members, v = .object members ∧ (members.map Prod.fst).Perm keys

/-! ### TRANSFORMATIONS -/

/-- GROUP: keys of fields, at least one. -/
structure Group (id : String) (kind : Kind) (v : Json) (group : List GroupKey) : Prop where
  items : v = .array (group.map fun g => .text g.key)
  ne_nil : group ≠ []
  names : ∀ g ∈ group, Names id kind g.key g.field

/-- A rule of APPLY, written `{name: {token: key}}`.  Its name has no underscore and is not
blank, and all aggregates but the count ask for numbers. -/
structure Rule (id : String) (kind : Kind) (v : Json) (rule : ApplyRule) : Prop where
  spelled : ∃ key, v = .object [(rule.name, .object [(rule.aggregate.token, .text key)])] ∧
    Names id kind key rule.field
  numeric : rule.aggregate.needsNumbers = true → rule.field.isNumeric = true
  plain : '_' ∉ rule.name.toList
  visible : Text.allBlank rule.name = false

/-- APPLY: rules with names of their own, perhaps none. -/
structure Apply (id : String) (kind : Kind) (v : Json) (rules : List ApplyRule) : Prop where
  items : ∃ items, v = .array items ∧ List.Forall₂ (Rule id kind) items rules
  distinct : (rules.map ApplyRule.name).Nodup

/-- TRANSFORMATIONS: GROUP and APPLY. -/
structure Transformed (id : String) (kind : Kind) (v : Json) (t : Transformation) : Prop where
  members : HasExactly ["GROUP", "APPLY"] v
  group : ∃ g, v.get? "GROUP" = some g ∧ Group id kind g t.group
  apply : ∃ a, v.get? "APPLY" = some a ∧ Apply id kind a t.apply

/-! ### OPTIONS -/

/-- COLUMNS: keys of fields or, with TRANSFORMATIONS, names of its keys and rules; at least
one. -/
structure Columns (id : String) (kind : Kind) (t : Option Transformation) (v : Json)
    (columns : List Column) : Prop where
  items : v = .array (columns.map fun c => .text c.key)
  ne_nil : columns ≠ []
  fits : ∀ c ∈ columns, ColumnFits id kind t c

/-- ORDER, whose keys are among those of the columns: a single key, or a direction and keys, at
least one. -/
inductive Sorting (columns : List String) : Json → Order → Prop
  | single {key} : key ∈ columns → Sorting columns (.text key) ⟨.up, [key]⟩
  | directed {v direction keys} : HasExactly ["dir", "keys"] v →
      v.get? "dir" = some (.text (Direction.name direction)) →
      v.get? "keys" = some (.array (keys.map .text)) → keys ≠ [] →
      (∀ key ∈ keys, key ∈ columns) → Sorting columns v ⟨direction, keys⟩

/-- OPTIONS: COLUMNS and perhaps ORDER. -/
structure Options (id : String) (kind : Kind) (t : Option Transformation) (v : Json)
    (columns : List Column) (order : Option Order) : Prop where
  members : HasExactly (if order.isSome then ["COLUMNS", "ORDER"] else ["COLUMNS"]) v
  listed : ∃ c, v.get? "COLUMNS" = some c ∧ Columns id kind t c columns
  ordered : Option.Rel (Sorting (columns.map Column.key)) (v.get? "ORDER") order

/-! ### WHERE -/

/-- A condition: a connective over conditions, a numeric field and a number, or a text field and
a pattern. -/
inductive Condition (id : String) (kind : Kind) : Json → Filter → Prop
  | and {items parts} : items ≠ [] → List.Forall₂ (Condition id kind) items parts →
      Condition id kind (.object [("AND", .array items)]) (.and parts)
  | or {items parts} : items ≠ [] → List.Forall₂ (Condition id kind) items parts →
      Condition id kind (.object [("OR", .array items)]) (.or parts)
  | not {v f} : Condition id kind v f → Condition id kind (.object [("NOT", v)]) (.not f)
  | compare {key field n} (relation : Comparison) : Names id kind key field →
      field.isNumeric = true →
      Condition id kind (.object [(relation.tag, .object [(key, .number n)])])
        (.compare relation field n.toBinary64)
  | like {key field pattern} : Names id kind key field → field.isNumeric = false →
      Condition id kind (.object [("IS", .object [(key, .text pattern)])]) (.like field pattern)

/-- WHERE: empty, or one condition. -/
inductive Where (id : String) (kind : Kind) : Json → Option Filter → Prop
  | empty : Where id kind (.object []) none
  | condition {v f} : Condition id kind v f → Where id kind v (some f)

/-! ### Documents -/

/-- A query document: WHERE, OPTIONS and perhaps TRANSFORMATIONS. -/
structure Document (document : Json) (q : Query) : Prop where
  members : ∃ members, document = .object members ∧ ∀ m ∈ members, m.1 ∈ clauses
  transformation : Option.Rel (Transformed q.dataset q.kind) (document.get? "TRANSFORMATIONS")
    q.transformation
  options : ∃ v, document.get? "OPTIONS" = some v ∧
    Options q.dataset q.kind q.transformation v q.columns q.order
  filter : ∃ v, document.get? "WHERE" = some v ∧ Where q.dataset q.kind v q.filter

/-! ### Facts about the grammar -/

variable {id : String} {kind : Kind}

/-- Keys of fields have an underscore. -/
theorem mem_toList_of_names {key : String} {field : Field}
    (h : Names id kind key field) : '_' ∈ key.toList := by
  obtain ⟨name, hkey, -⟩ := h
  by_contra hnot
  have hall : key.toList.dropWhile (· != '_') = [] := by
    rw [List.dropWhile_eq_nil_iff]
    rintro c hc
    exact bne_iff_ne.mpr fun e => hnot (e ▸ hc)
  simp [QualifiedKey.ofText?, hall] at hkey

theorem Apply.plain {v : Json} {rules : List ApplyRule}
    (h : Apply id kind v rules) {rule : ApplyRule} (hrule : rule ∈ rules) :
    '_' ∉ rule.name.toList := by
  obtain ⟨⟨items, -, hall⟩, -⟩ := h
  induction hall with
  | nil => cases hrule
  | cons hfirst _ ih =>
    rcases List.mem_cons.mp hrule with rfl | hrule
    · exact hfirst.plain
    · exact ih hrule

/-- No rule of APPLY has the name of a key of GROUP. -/
theorem Transformed.not_mem_group {v : Json}
    {t : Transformation} (h : Transformed id kind v t) {rule : ApplyRule}
    (hrule : rule ∈ t.apply) : rule.name ∉ t.group.map GroupKey.key := by
  obtain ⟨-, ⟨_, -, hgroup⟩, _, -, happly⟩ := h
  rw [List.mem_map]
  rintro ⟨g, hg, e⟩
  exact happly.plain hrule (e ▸ mem_toList_of_names (hgroup.names g hg))

theorem Condition.exists_members {v : Json} {f : Filter}
    (h : Condition id kind v f) : ∃ members, v = .object members := by
  cases h <;> exact ⟨_, rfl⟩

theorem Where.exists_members {v : Json} {f : Option Filter}
    (h : Where id kind v f) : ∃ members, v = .object members := by
  cases h with
  | empty => exact ⟨[], rfl⟩
  | condition h => exact h.exists_members

/-- A document has TRANSFORMATIONS just if its query has. -/
theorem Document.plain_or_grouped {document : Json} {q : Query} (h : Document document q) :
    (document.get? "TRANSFORMATIONS" = none ∧ q.transformation = none) ∨
      ∃ v t, document.get? "TRANSFORMATIONS" = some v ∧ q.transformation = some t ∧
        Transformed q.dataset q.kind v t := by
  have htransformation := h.transformation
  rcases hv : document.get? "TRANSFORMATIONS" with - | v <;>
    rcases ht : q.transformation with - | t <;> rw [hv, ht] at htransformation
  · exact .inl ⟨rfl, rfl⟩
  · cases htransformation
  · cases htransformation
  · exact .inr ⟨v, t, rfl, rfl, Option.rel_some_some.mp htransformation⟩

end Grammar

end CampusQuery.Query
