/-
CampusQuery/Proofs/Answer/Columns.lean

The columns of an answer are complete and homogeneous.

What type the values under a key have is read off the document and the kind of the dataset
(`Query.columnType?`): a field has the type that is declared for it, and aggregates are numbers.
A row is complete if it has a value of that type under every key of COLUMNS
(`Query.Complete`).  All rows are complete before they are sorted, on both ways that rows are made,
by records (`complete_recordRow`) and by groups (`complete_row`); and complete rows is all that
sorting asks for (`Order.totalOn`).
-/
import CampusQuery.Proofs.Answer.Groups

namespace CampusQuery

/-! ### Meaning -/

/-- Two values that can be compared: numbers with a numerical order, or texts. -/
def Scalar.Meets : Option Scalar → Option Scalar → Prop
  | some (.number x), some (.number y) => x.compare? y ≠ none
  | some (.text _), some (.text _) => True
  | _, _ => False

/-- The comparison of an order is a total preorder on the rows. -/
structure Order.TotalOn (o : Order) (rows : List Row) : Prop where
  refl : ∀ a ∈ rows, o.compare a a = .eq
  swap : ∀ a ∈ rows, ∀ b ∈ rows, o.compare b a = (o.compare a b).swap
  trans : ∀ a ∈ rows, ∀ b ∈ rows, ∀ c ∈ rows, (o.compare a b).isLE = true →
    (o.compare b c).isLE = true → (o.compare a c).isLE = true

namespace Query

/-- The type of the field that a key names. -/
def fieldType? (kind : Kind) (key : String) : Option ValueType := do
  let parts ← QualifiedKey.ofText? key
  let field ← Field.ofName? kind parts.field
  return field.valueType

/-- The type of the values under a key: numbers under the names of rules, and else the values of
the field that the key names. -/
def columnType? (document : Json) (kind : Kind) (key : String) : Option ValueType :=
  if key ∈ (applyRules document).map NamedRule.name then some .number else fieldType? kind key

/-- The row has a value of the right type under every key of COLUMNS, and it is not "not a
number". -/
def Complete (document : Json) (kind : Kind) (row : Row) : Prop :=
  ∀ key ∈ columnKeys document, ∃ v, row.get? key = some v ∧
    columnType? document kind key = some v.valueType ∧ v ≠ .number .notANumber

/-- The query that a document is read as, and the rows that it makes of the records selected,
before they are sorted. -/
structure Makes (view : CatalogView) (document : Json) (q : Query) (rows : List Row) : Prop where
  accepted : ofJson view.kinds document = .ok q
  selected : ∃ store positions, view q.dataset = some store ∧
    Filter.selectOptional store q.filter = .ok positions ∧
      rows = q.rawRows (store.select positions)

end Query

/-! ### Sorting -/

namespace Order

variable {o : Order} {rows : List Row}

/-- On rows without "not a number" under its keys, an order is a total preorder. -/
theorem totalOn (h : ∀ row ∈ rows, ∀ key ∈ o.keys, row.get? key ≠ some (.number .notANumber)) :
    o.TotalOn rows := by
  -- narrowed to the keys of the order, the rows are without "not a number" altogether
  have hcomparable : ∀ row ∈ rows, (row.project o.keys).Comparable := by
    intro row hrow key
    rw [Row.get?_project]
    split
    · rename_i hkey
      exact h row hrow key hkey
    · exact nofun
  have hranked : ∀ a ∈ rows, ∀ b ∈ rows, o.compare a b =
      ranked o.direction o.keys (a.project o.keys) (b.project o.keys) := by
    intro a ha b hb
    rw [← compareOn_eq_ranked _ _ (hcomparable a ha) (hcomparable b hb),
      Query.compareOn_project _ fun _ hkey => hkey, compare]
  refine ⟨fun a ha => ?_, fun a ha b hb => ?_, fun a ha b hb c hc hab hbc => ?_⟩
  · rw [hranked a ha a ha]
    exact Std.ReflCmp.compare_self
  · rw [hranked a ha b hb, hranked b hb a ha]
    exact Std.OrientedCmp.eq_swap
  · rw [hranked a ha b hb] at hab
    rw [hranked b hb c hc] at hbc
    rw [hranked a ha c hc]
    exact Std.TransCmp.isLE_trans hab hbc

end Order

/-- Two values of one type can be compared, unless one of them is "not a number". -/
theorem Scalar.meets_of_valueType_eq {a b : Scalar} (h : a.valueType = b.valueType)
    (ha : a ≠ .number .notANumber) (hb : b ≠ .number .notANumber) :
    Meets (some a) (some b) := by
  rcases a with x | s <;> rcases b with y | t
  · intro hnone
    refine hb (congrArg _ (Binary64.compare?_eq_none hnone ?_))
    rintro rfl
    exact ha rfl
  · cases h
  · cases h
  · trivial

/-! ### Types of values -/

/-- The values of a field have its type. -/
theorem Record.valueType_eq {r : Record} {field : Field} {v : Scalar}
    (h : r.value? field = some v) : v.valueType = field.valueType := by
  rcases r with s | r <;> cases field <;> cases h <;> rfl

namespace Query

variable {view : CatalogView} {document : Json} {store : RecordStore} {q : Query}
  {t : Transformation} {v : Json} {id : String} {kind : Kind}

theorem fieldType?_of_named? {r : Record} {key : String} {x : Scalar}
    (h : r.named? key = some x) : fieldType? r.kind key = some x.valueType := by
  obtain ⟨parts, hparts, h⟩ := Option.bind_eq_some_iff.mp h
  obtain ⟨field, hfield, h⟩ := Option.bind_eq_some_iff.mp h
  rw [fieldType?, hparts, Option.bind_eq_bind, Option.bind_some, hfield, Option.bind_eq_bind,
    Option.bind_some, Record.valueType_eq h]
  rfl

/-- The row gives all columns values of the right type, if the values that it gives are such. -/
theorem complete_of_gives {row : Row} {value : String → Option Scalar}
    (h : row.Gives (columnKeys document) value)
    (htype : ∀ key ∈ columnKeys document, ∀ x, value key = some x →
      columnType? document kind key = some x.valueType)
    (hnumber : ∀ key, value key ≠ some (.number .notANumber)) : Complete document kind row := by
  intro key hkey
  obtain ⟨x, hx, hget⟩ := h.given key hkey
  refine ⟨x, hget, htype key hkey x hx, ?_⟩
  rintro rfl
  exact hnumber key hx

/-- Narrowing rows to the columns does not change what is under the columns. -/
theorem complete_project_iff {row : Row} :
    Complete document kind (row.project (columnKeys document)) ↔ Complete document kind row := by
  refine forall₂_congr fun key hkey => ?_
  rw [Row.get?_project, if_pos hkey]

/-! ### Rows of records and rows of groups -/

theorem columnType?_of_plain (hplain : document.get? "TRANSFORMATIONS" = none) (key : String) :
    columnType? document kind key = fieldType? kind key := by
  rw [columnType?, applyRules, hplain]
  exact if_neg List.not_mem_nil

theorem complete_recordRow (hq : Spells document q)
    (hplain : document.get? "TRANSFORMATIONS" = none) (hnumeric : store.Numeric)
    (hkind : store.kind = q.kind) {r : Record} (hr : r ∈ matching document store) :
    Complete document q.kind (recordRow q.columns r) := by
  have hkinds : r.kind = q.kind := (kind_of_mem_matching hr).trans hkind
  refine complete_of_gives (gives_recordRow hq hplain hkinds) (fun key _ x hx => ?_)
    (named?_ne_notANumber hnumeric hr)
  rw [columnType?_of_plain hplain, ← hkinds]
  exact fieldType?_of_named? hx

/-- The rules have the names that they have in the query. -/
theorem map_name_applyRules (hv : document.get? "TRANSFORMATIONS" = some v)
    (ht : SpellsTransformation id kind v t) :
    (applyRules document).map NamedRule.name = t.apply.map ApplyRule.name := by
  rw [← List.forall₂_eq_eq_eq, List.forall₂_map_left_iff, List.forall₂_map_right_iff]
  exact (applyRules_forall₂ hv ht).imp fun _ _ h => h.name

theorem columnType?_of_groupedValue (hv : document.get? "TRANSFORMATIONS" = some v)
    (ht : SpellsTransformation id kind v t) {members : List Record}
    (hkind : ∀ r ∈ members, r.kind = kind) {key : String} {x : Scalar}
    (hx : groupedValue document members key = some x) :
    columnType? document kind key = some x.valueType := by
  unfold groupedValue at hx
  split at hx
  · rename_i hkey
    obtain ⟨first, hfirst, hx⟩ := Option.bind_eq_some_iff.mp hx
    have hnot : key ∉ (applyRules document).map NamedRule.name := by
      rw [groupKeys_eq hv ht] at hkey
      rw [map_name_applyRules hv ht]
      intro hmem
      obtain ⟨rule, hrule, rfl⟩ := List.mem_map.mp hmem
      exact ht.fresh rule hrule hkey
    rw [columnType?, if_neg hnot, ← hkind first (List.mem_of_mem_head? hfirst)]
    exact fieldType?_of_named? hx
  · obtain ⟨rule, hrule, rfl⟩ := Option.map_eq_some_iff.mp hx
    have hname : rule.name = key := by simpa using List.find?_some hrule
    rw [columnType?, if_pos (hname ▸ List.mem_map_of_mem (List.mem_of_find?_eq_some hrule))]
    rfl

theorem complete_row (hv : document.get? "TRANSFORMATIONS" = some v)
    (ht : SpellsTransformation id kind v t) (hnumeric : store.Numeric) {members : List Record}
    (hne : members ≠ []) (hmembers : ∀ r ∈ members, r ∈ matching document store)
    (hkind : store.kind = kind) (hcolumns : ∀ key ∈ columnKeys document, key ∈ columnNames t) :
    Complete document kind (t.row members) := by
  have hkinds : ∀ r ∈ members, r.kind = kind := fun r hr =>
    (kind_of_mem_matching (hmembers r hr)).trans hkind
  rw [← complete_project_iff]
  exact complete_of_gives (gives_row hv ht hne hkinds hcolumns)
    (fun key _ x hx => columnType?_of_groupedValue hv ht hkinds hx)
    (groupedValue_ne_notANumber hnumeric hmembers)

/-- **All rows are complete** before they are sorted. -/
theorem complete_rawRows (hq : Spells document q) (hnumeric : store.Numeric)
    (hkind : store.kind = q.kind) :
    ∀ row ∈ q.rawRows (matching document store), Complete document q.kind row := by
  intro row hrow
  rw [rawRows] at hrow
  rcases ht : q.transformation with - | t
  · rw [ht] at hrow
    obtain ⟨r, hr, rfl⟩ := List.mem_map.mp hrow
    exact complete_recordRow hq (get?_eq_none_of_transformation hq ht) hnumeric hkind hr
  · rw [ht] at hrow
    obtain ⟨v, hv, hspells⟩ := exists_spellsTransformation hq ht
    obtain ⟨members, hmembers, rfl⟩ := List.mem_map.mp hrow
    obtain ⟨hne, hmem⟩ := Transformation.of_mem_partition hmembers
    exact complete_row hv hspells hnumeric hne hmem hkind fun _ => mem_columnNames hq ht

/-- Neither sorting nor narrowing takes anything from the columns. -/
theorem complete_projected {rows : List Row} (hq : Spells document q)
    (h : ∀ row ∈ rows, Complete document kind row) :
    ∀ row ∈ q.projected (q.ordered rows), Complete document kind row := by
  have hordered : ∀ row ∈ q.ordered rows, Complete document kind row := by
    intro row hrow
    rw [ordered] at hrow
    split at hrow
    · exact h row ((List.mergeSort_perm _ _).mem_iff.mp hrow)
    · exact h row hrow
  intro row hrow
  rw [projected] at hrow
  split at hrow
  · obtain ⟨r, hr, rfl⟩ := List.mem_map.mp hrow
    rw [← hq.keys, complete_project_iff]
    exact hordered r hr
  · exact hordered row hrow

/-! ### Answers -/

/-- An accepted document without a filter has no patterns. -/
theorem patternsOf_eq_nil (hq : ofJson view.kinds document = .ok q) (hfilter : q.filter = none) :
    patternsOf document = [] := by
  obtain ⟨v, hv, hwhere⟩ := (ofJson_eq_ok.mp hq).2.filter
  rw [hfilter] at hwhere
  cases hwhere
  rw [patternsOf, hv, Option.map_some, Option.getD_some, Json.patterns] <;> simp

/-- A document that has an answer is accepted, and has no malformed pattern. -/
theorem accepted_of_answer {answer : Answer} (h : view.answer document = .ok answer) :
    ∃ q, ofJson view.kinds document = .ok q ∧
      ∀ p ∈ patternsOf document, Wildcard.WellFormed p := by
  unfold CatalogView.answer CatalogView.answerWith at h
  rcases hq : ofJson view.kinds document with e | q
  · rw [hq] at h
    cases h
  · refine ⟨q, rfl, ?_⟩
    obtain ⟨hkinds, hspells⟩ := spells_of_ofJson hq
    obtain ⟨store, hstore, -⟩ := Option.map_eq_some_iff.mp hkinds
    rcases hfilter : q.filter with - | f
    · rw [patternsOf_eq_nil hq hfilter]
      exact nofun
    · -- a malformed pattern would have been reported
      rw [← hspells.patterns f hfilter, ← Filter.firstMalformed?_eq_none]
      rcases hmalformed : Filter.firstMalformed? f.patterns with - | pattern
      · rfl
      · simp only [hq, CatalogView.run, hstore, runOn, Filter.selectOptional, hfilter,
          Filter.select_of_malformed store f hmalformed] at h
        cases h

theorem length_rawRows_le (q : Query) (records : List Record) :
    (q.rawRows records).length ≤ records.length := by
  rw [rawRows]
  split
  · rename_i t _
    rw [Transformation.rows, List.length_map]
    exact t.length_partition_le records
  · rw [List.length_map]

/-- A dataset within the limit has an answer to every document about it. -/
theorem exists_answer (hq : ofJson view.kinds document = .ok q)
    (hpatterns : ∀ p ∈ patternsOf document, Wildcard.WellFormed p)
    (hsize : ∀ store, view q.dataset = some store → store.records.size ≤ resultLimit) :
    ∃ answer, view.answer document = .ok answer := by
  obtain ⟨store, hstore, -, hanswer⟩ := answer_eq hq hpatterns
  have hmatching : (matching document store).length ≤ store.records.size := by
    rw [← Array.length_toList]
    exact List.length_filter_le _ _
  have hlength := (length_rawRows_le q (matching document store)).trans
    (hmatching.trans (hsize store hstore))
  rw [if_neg (Nat.not_lt.mpr hlength)] at hanswer
  exact ⟨_, hanswer⟩

/-- A document about one dataset that is not too large has an answer if it is accepted. -/
theorem exists_answer_ofStore {store : RecordStore} {document : Json}
    (haccepted : (ofJson (CatalogView.ofStore store).kinds document).isOk = true)
    (hpatterns : patternsOf document = []) (hsize : store.records.size ≤ resultLimit) :
    ∃ answer, (CatalogView.ofStore store).answer document = .ok answer := by
  obtain ⟨q, hq⟩ := exists_of_isOk haccepted
  refine exists_answer hq (fun p hp => ?_) fun found h => CatalogView.eq_of_ofStore h ▸ hsize
  rw [hpatterns] at hp
  cases hp

/-- **Columns are complete and homogeneous.**  All rows of an answer have values under all keys of
COLUMNS, of the types that the document says and none of them "not a number".  Before the rows were
sorted they had too, so under the keys of ORDER any two of them can be compared, and
the comparison is a total preorder. -/
theorem columns_homogeneous (hnumeric : ∀ id store, view id = some store → store.Numeric)
    {answer : Answer} (h : view.answer document = .ok answer) :
    ∃ q rows, Makes view document q rows ∧
      answer = ⟨q.dataset, q.projected (q.ordered rows)⟩ ∧
      (∀ row ∈ answer.rows, Complete document q.kind row) ∧
      ∀ o, q.order = some o →
        (∀ a ∈ rows, ∀ b ∈ rows, ∀ key ∈ o.keys, Scalar.Meets (a.get? key) (b.get? key)) ∧
          o.TotalOn rows := by
  obtain ⟨q, hq, hpatterns⟩ := accepted_of_answer h
  obtain ⟨-, hspells⟩ := spells_of_ofJson hq
  obtain ⟨store, hstore, hkind, hanswer⟩ := answer_eq hq hpatterns
  obtain ⟨positions, hpositions, hselect⟩ := exists_selected hspells hkind hpatterns
  have hcomplete := complete_rawRows hspells (hnumeric _ store hstore) hkind
  rw [← hselect] at hcomplete hanswer
  refine ⟨q, q.rawRows (store.select positions),
    ⟨hq, store, positions, hstore, hpositions, rfl⟩, ?_⟩
  rw [h] at hanswer
  split at hanswer
  · cases hanswer
  · obtain rfl := Except.ok.inj hanswer
    refine ⟨rfl, complete_projected hspells hcomplete, fun o ho => ?_⟩
    have hkeys := hspells.orderKeys o ho
    refine ⟨fun a ha b hb key hkey => ?_, Order.totalOn fun row hrow key hkey => ?_⟩
    · obtain ⟨x, hx, hxtype, hxnumber⟩ := hcomplete a ha key (hkeys key hkey)
      obtain ⟨y, hy, hytype, hynumber⟩ := hcomplete b hb key (hkeys key hkey)
      rw [hx, hy]
      exact Scalar.meets_of_valueType_eq (Option.some.inj (hxtype.symm.trans hytype))
        hxnumber hynumber
    · obtain ⟨x, hx, -, hnumber⟩ := hcomplete row hrow key (hkeys key hkey)
      rw [hx]
      exact fun e => hnumber (Option.some.inj e)

theorem columns_homogeneous_sample :
    (∀ id store, CatalogView.ofStore sampleDepartments id = some store → store.Numeric) ∧
      ∃ answer, (CatalogView.ofStore sampleDepartments).answer sampleGrouped = .ok answer ∧
        ∃ q rows, Makes (.ofStore sampleDepartments) sampleGrouped q rows ∧
          answer = ⟨q.dataset, q.projected (q.ordered rows)⟩ ∧
          (∀ row ∈ answer.rows, Complete sampleGrouped q.kind row) ∧
          ∀ o, q.order = some o →
            (∀ a ∈ rows, ∀ b ∈ rows, ∀ key ∈ o.keys, Scalar.Meets (a.get? key) (b.get? key)) ∧
              o.TotalOn rows := by
  obtain ⟨answer, h⟩ :
      ∃ answer, (CatalogView.ofStore sampleDepartments).answer sampleGrouped = .ok answer :=
    exists_answer_ofStore (by decide +kernel)
      (by simp [patternsOf, sampleGrouped, Json.get?, Json.patterns]) (by decide)
  exact ⟨sampleDepartments_numeric, answer, h, columns_homogeneous sampleDepartments_numeric h⟩

end Query

end CampusQuery
