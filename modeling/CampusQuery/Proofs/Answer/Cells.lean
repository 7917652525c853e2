/-
CampusQuery/Proofs/Answer/Cells.lean

What the cells of an answer are written as.

A number that is not finite has no text in a document; it is written as `null`
(`Scalar.denotes_chars_toJson`).  Stored numbers are finite, and so are extremes, counts and means
of them, however large the numbers are.  The one result that need not be is a sum: it is computed
exactly, but read as a binary number in the end, and it is beyond these if it overflows
(`Query.SumOverflows`).  So a cell is a number or a text, except where a sum overflows, and there it
is null (`answer_cells`).
-/
import CampusQuery.Proofs.Answer.Classes
import CampusQuery.Proofs.Dataset.Literals

namespace CampusQuery

/-! ### Finite results -/

namespace Aggregate

variable {values : List Scalar}

/-- The number of different values is at most that of all. -/
theorem countDistinct_le (values : List Scalar) : countDistinct values ≤ values.length := by
  rw [countDistinct, ← List.length_map Scalar.identity]
  exact Std.HashSet.size_ofList_le

/-- What is made of finite numbers is finite, but for a sum that overflows. -/
theorem isFinite_apply (a : Aggregate) (hfinite : ∀ v ∈ values, v.Writable)
    (hnumbers : a.needsNumbers = true → values.filterMap Scalar.number? ≠ [])
    (hlength : values.length < 2 ^ 64) :
    (a.apply values).Writable ↔ (a = .sum →
      ¬ ((decimalSum (values.filterMap Scalar.number?)).round places).Overflows) := by
  have hnumber : ∀ x ∈ values.filterMap Scalar.number?, x.isFinite = true := by
    intro x hx
    obtain ⟨v, hv, hvalue⟩ := List.mem_filterMap.mp hx
    rcases v with y | s
    · cases hvalue
      exact hfinite _ hv _ rfl
    · cases hvalue
  have hnotANumber : ∀ x ∈ values.filterMap Scalar.number?, x ≠ .notANumber :=
    fun x hx => Binary64.ne_notANumber (hnumber x hx)
  unfold apply
  rw [Scalar.writable_number]
  cases a with
  | max => exact ⟨nofun, fun _ => hnumber _ (foldl_larger_mem (hnumbers rfl) hnotANumber)⟩
  | min => exact ⟨nofun, fun _ => hnumber _ (foldl_smaller_mem (hnumbers rfl) hnotANumber)⟩
  | sum => exact isFinite_sumOf.trans ⟨fun h _ => h, fun h => h rfl⟩
  | avg => exact ⟨nofun, fun _ => isFinite_meanOf _⟩
  | count =>
    refine ⟨nofun, fun _ => Binary64.isFinite_ofInt_of_le ?_⟩
    rw [Int.natAbs_natCast]
    exact (countDistinct_le values).trans hlength.le

end Aggregate

namespace Query

variable {view : CatalogView} {document : Json} {answer : Answer} {row : Row} {q : Query}
  {store : RecordStore} {members : List Record} {key : String} {v : Scalar}

/-! ### Rules -/

/-- A rule of an accepted document is one of the query. -/
theorem exists_applies_of_find? (hq : Spells document q) {rule : NamedRule}
    (h : (applyRules document).find? (·.name == key) = some rule) :
    ∃ r, Applies q.dataset q.kind rule r := by
  have hmem := List.mem_of_find?_eq_some h
  rcases ht : q.transformation with - | t
  · rw [applyRules, get?_eq_none_of_transformation hq ht] at hmem
    cases hmem
  · obtain ⟨w, hw, hspells⟩ := exists_spellsTransformation hq ht
    obtain ⟨r, -, happlies⟩ := exists_of_mem_forall₂ (applyRules_forall₂ hw hspells).flip hmem
    exact ⟨r, happlies⟩

/-- The field of a rule has a value in every record, and a number if the rule needs one. -/
theorem exists_named?_of_applies {rule : NamedRule} {r : ApplyRule}
    (h : Applies q.dataset q.kind rule r) {s : Record} (hs : s.kind = q.kind) :
    ∃ x, s.named? rule.key = some x ∧
      (rule.aggregate.needsNumbers = true → x.valueType = .number) := by
  have hnames := h.field
  rw [← hs] at hnames
  have hnamed := hnames.named?
  obtain ⟨name, -, hname⟩ := hnames
  obtain ⟨x, hx⟩ := Option.ne_none_iff_exists'.mp (value?_ne_none hname)
  refine ⟨x, hnamed.trans hx, fun hneeds => ?_⟩
  rw [h.aggregate] at hneeds
  rw [Record.valueType_eq hx]
  exact eq_of_beq (h.numeric hneeds)

/-! ### Cells -/

/-- The value under the key is a sum over the group, and the rounded sum is beyond all binary
numbers. -/
def SumOverflows (document : Json) (members : List Record) (key : String) : Prop :=
  key ∉ groupKeys document ∧ ∃ rule, (applyRules document).find? (·.name == key) = some rule ∧
    rule.aggregate = .sum ∧
    ((Aggregate.decimalSum ((members.filterMap (·.named? rule.key)).filterMap
      Scalar.number?)).round Aggregate.places).Overflows

/-- The named values of storable records can be written. -/
theorem writable_of_named? {r : Record} (hr : r.Storable) (h : r.named? key = some v) :
    v.Writable := by
  rintro x rfl
  obtain ⟨parts, -, h⟩ := Option.bind_eq_some_iff.mp h
  obtain ⟨field, -, h⟩ := Option.bind_eq_some_iff.mp h
  exact hr.isFinite h

/-- The value of a rule can be written unless it is a sum that overflows. -/
theorem writable_apply_iff {rule : NamedRule} {r : ApplyRule}
    (happlies : Applies q.dataset q.kind rule r) (hne : members ≠ [])
    (hmembers : ∀ r ∈ members, r.kind = q.kind ∧ r.Storable) (hlength : members.length < 2 ^ 64) :
    (rule.aggregate.apply (members.filterMap (·.named? rule.key))).Writable ↔
      (rule.aggregate = .sum → ¬ ((Aggregate.decimalSum ((members.filterMap
        (·.named? rule.key)).filterMap Scalar.number?)).round Aggregate.places).Overflows) := by
  have hwritable : ∀ v ∈ members.filterMap (·.named? rule.key), v.Writable := by
    intro v hv
    obtain ⟨s, hs, hvalue⟩ := List.mem_filterMap.mp hv
    exact writable_of_named? (hmembers s hs).2 hvalue
  have hnumbers : rule.aggregate.needsNumbers = true →
      (members.filterMap (·.named? rule.key)).filterMap Scalar.number? ≠ [] := by
    intro hneeds
    obtain ⟨s, hs⟩ := List.exists_mem_of_ne_nil _ hne
    obtain ⟨x, hx, htype⟩ := exists_named?_of_applies happlies (hmembers s hs).1
    rcases x with x | t
    · exact List.ne_nil_of_mem
        (List.mem_filterMap.mpr ⟨_, List.mem_filterMap.mpr ⟨s, hs, hx⟩, rfl⟩)
    · cases htype hneeds
  exact rule.aggregate.isFinite_apply hwritable hnumbers
    ((List.length_filterMap_le _ _).trans_lt hlength)

/-- The value of a class can be written unless it is a sum that overflows. -/
theorem writable_iff_of_classValue (hq : Spells document q) (hne : members ≠ [])
    (hmembers : ∀ r ∈ members, r.kind = q.kind ∧ r.Storable) (hlength : members.length < 2 ^ 64)
    (h : classValue document members key = some v) :
    v.Writable ↔ ¬ SumOverflows document members key := by
  have hfirst : members.head?.bind (·.named? key) = some v → v.Writable := by
    intro h
    obtain ⟨first, hfirst, h⟩ := Option.bind_eq_some_iff.mp h
    exact writable_of_named? (hmembers first (List.mem_of_mem_head? hfirst)).2 h
  unfold classValue at h
  split at h
  · -- without TRANSFORMATIONS there are no sums
    rename_i hplain
    refine ⟨fun _ hsum => ?_, fun _ => hfirst h⟩
    obtain ⟨-, rule, hrule, -⟩ := hsum
    rw [applyRules, hplain] at hrule
    cases hrule
  · unfold groupedValue at h
    split at h
    · rename_i hkey
      exact ⟨fun _ hsum => hsum.1 hkey, fun _ => hfirst h⟩
    · rename_i hkey
      obtain ⟨rule, hrule, rfl⟩ := Option.map_eq_some_iff.mp h
      obtain ⟨r, happlies⟩ := exists_applies_of_find? hq hrule
      rw [writable_apply_iff happlies hne hmembers hlength]
      constructor
      · rintro h ⟨-, rule', hrule', hsum, hoverflows⟩
        obtain rfl := Option.some.inj (hrule.symm.trans hrule')
        exact h hsum hoverflows
      · exact fun h hsum hoverflows => h ⟨hkey, rule, hrule, hsum, hoverflows⟩

/-- Every row is that of a class, and a cell can be written unless it is a sum that overflows. -/
theorem writable_iff_of_answer
    (hview : ∀ id store, view id = some store →
      (∀ r ∈ store.records.toList, r.Storable) ∧ store.size < 2 ^ 64)
    (h : view.answer document = .ok answer) (hrow : row ∈ answer.rows) :
    ∃ store members, view answer.dataset = some store ∧
      members ∈ classes document (matching document store) ∧
      ∀ cell ∈ row.entries, cell.2.Writable ↔ ¬ SumOverflows document members cell.1 := by
  obtain ⟨q, store, members, hq, hstore, hkind, hmembers, hcells⟩ :=
    exists_class_of_mem_rows h hrow
  obtain ⟨hne, hsub⟩ := of_mem_classes hmembers
  obtain ⟨hstorable, hsize⟩ := hview _ store hstore
  have hlength : members.length < 2 ^ 64 := by
    refine lt_of_le_of_lt ?_ hsize
    rw [RecordStore.size, ← Array.length_toList]
    exact (hsub.trans List.filter_sublist).length_le
  refine ⟨store, members, hstore, hmembers, fun cell hcell => ?_⟩
  refine writable_iff_of_classValue (spells_of_ofJson hq).2 hne (fun r hr => ?_) hlength
    (hcells cell hcell).2
  exact ⟨(kind_of_mem_matching (hsub.mem hr)).trans hkind,
    hstorable r (List.mem_of_mem_filter (hsub.mem hr))⟩

/-- **Every cell is a number or a text, but for sums that overflow.**  The records of a dataset come
from outside, and there are no more of them than fit into memory.  Then the text of a cell is read
as a number or a text, unless the cell is a sum over the records of its row that, rounded to its
places, is beyond all binary numbers; the text of such a cell is `null`. -/
theorem answer_cells
    (hview : ∀ id store, view id = some store →
      (∀ r ∈ store.records.toList, r.Ingested) ∧ store.size < 2 ^ 64)
    (h : view.answer document = .ok answer) (hrow : row ∈ answer.rows) :
    ∃ store members, view answer.dataset = some store ∧
      members ∈ classes document (matching document store) ∧
      row.toJson = .object (row.entries.map fun cell => (cell.1, cell.2.toJson)) ∧
      ∀ cell ∈ row.entries, ∃ w, Json.Denotes cell.2.toJson.chars w ∧
        (¬ SumOverflows document members cell.1 → w.IsScalar) ∧
        (SumOverflows document members cell.1 → w = .null) := by
  obtain ⟨store, members, hstore, hmembers, hcells⟩ := writable_iff_of_answer
    (fun id store hstore => ⟨fun r hr => ((hview id store hstore).1 r hr).storable,
      (hview id store hstore).2⟩) h hrow
  refine ⟨store, members, hstore, hmembers, rfl, fun cell hcell => ?_⟩
  obtain ⟨w, hw, hscalar, hnull⟩ := cell.2.denotes_chars_toJson
  exact ⟨w, hw, fun hsum => hscalar ((hcells cell hcell).mpr hsum),
    fun hsum => hnull fun hwritable => (hcells cell hcell).mp hwritable hsum⟩

/-- A section whose average is the largest finite number. -/
def sampleLargest (uuid : String) : Record :=
  .course ⟨"cpsc", "310", "", "", .finite false ⟨2 ^ 53 - 1, 2045, by decide⟩, 1, 0, 0, uuid, 2015⟩

/-- Two such sections. -/
def sampleLargestStore : RecordStore where
  kind := .courses
  records := #[sampleLargest "1", sampleLargest "2"]
  ofKind := by decide
  distinct := by decide

/-- The sum of the averages of each department. -/
def sampleTotal : Json :=
  .object [("WHERE", .object []),
    ("OPTIONS", .object [("COLUMNS", .array [.text "ubc_dept", .text "total"])]),
    ("TRANSFORMATIONS", .object [("GROUP", .array [.text "ubc_dept"]),
      ("APPLY", .array [.object [("total", .object [("SUM", .text "ubc_avg")])]])])]

theorem sampleLargestStore_ingested (id : String) (store : RecordStore)
    (h : CatalogView.ofStore sampleLargestStore id = some store) :
    (∀ r ∈ store.records.toList, r.Ingested) ∧ store.size < 2 ^ 64 := by
  obtain rfl := CatalogView.eq_of_ofStore h
  refine ⟨RecordStore.Storable.ingested ?_, by decide⟩
  intro r hr
  have hint {i : Int} (hi : 0 ≤ i ∧ i ≤ 2015) : IsInt64 i :=
    ⟨le_trans (by decide) hi.1, le_trans hi.2 (by decide)⟩
  rcases List.mem_pair.mp hr with rfl | rfl <;>
    exact ⟨rfl, hint (by decide), hint (by decide), hint (by decide), hint (by decide)⟩

theorem exists_row_sampleTotal :
    ∃ answer, (CatalogView.ofStore sampleLargestStore).answer sampleTotal = .ok answer ∧
      ∃ row, row ∈ answer.rows := by
  obtain ⟨answer, h⟩ :
      ∃ answer, (CatalogView.ofStore sampleLargestStore).answer sampleTotal = .ok answer :=
    exists_answer_ofStore (by decide +kernel)
      (by simp [patternsOf, sampleTotal, Json.get?, Json.patterns]) (by decide)
  refine ⟨answer, h, exists_row h fun id store h => ?_⟩
  rw [CatalogView.eq_of_ofStore h, matching_eq_records rfl]
  exact List.cons_ne_nil _ _

theorem answer_cells_sample :
    (∀ id store, CatalogView.ofStore sampleLargestStore id = some store →
        (∀ r ∈ store.records.toList, r.Ingested) ∧ store.size < 2 ^ 64) ∧
      ∃ answer, (CatalogView.ofStore sampleLargestStore).answer sampleTotal = .ok answer ∧
        ∃ row, row ∈ answer.rows ∧
          ∃ store members, CatalogView.ofStore sampleLargestStore answer.dataset = some store ∧
            members ∈ classes sampleTotal (matching sampleTotal store) ∧
            row.toJson = .object (row.entries.map fun cell => (cell.1, cell.2.toJson)) ∧
            ∀ cell ∈ row.entries, ∃ w, Json.Denotes cell.2.toJson.chars w ∧
              (¬ SumOverflows sampleTotal members cell.1 → w.IsScalar) ∧
              (SumOverflows sampleTotal members cell.1 → w = .null) := by
  obtain ⟨answer, h, row, hrow⟩ := exists_row_sampleTotal
  exact ⟨sampleLargestStore_ingested, answer, h, row, hrow,
    answer_cells sampleLargestStore_ingested h hrow⟩

/-- There is an answer about records from outside that has a `null` in a cell. -/
theorem sum_written_as_null :
    (∀ r ∈ sampleLargestStore.records.toList, r.Ingested) ∧
      ∃ answer, (CatalogView.ofStore sampleLargestStore).answer sampleTotal = .ok answer ∧
        ∃ row ∈ answer.rows, ∃ cell ∈ row.entries, cell.1 = "total" ∧
          Json.Denotes cell.2.toJson.chars .null ∧ cell.2.toJson.write = "null" := by
  refine ⟨(sampleLargestStore_ingested "ubc" _ rfl).1, ?_⟩
  obtain ⟨answer, h, row, hrow⟩ := exists_row_sampleTotal
  refine ⟨answer, h, row, hrow, ?_⟩
  obtain ⟨q, store, rows, -, -, hstore, -, hgives, hperm⟩ := rows_of_answer h
  obtain ⟨members, hmembers, hgives⟩ := exists_of_mem_forall₂ hgives (hperm.mem_iff.mp hrow)
  -- both sections are in the only group
  have hclasses : classes sampleTotal (matching sampleTotal store) =
      [[sampleLargest "1", sampleLargest "2"]] := by
    rw [CatalogView.eq_of_ofStore hstore, matching_eq_records rfl]
    decide +kernel
  rw [hclasses, List.mem_singleton] at hmembers
  obtain ⟨v, hvalue, hget⟩ := hgives.given "total" (by decide +kernel)
  have hinfinite : classValue sampleTotal [sampleLargest "1", sampleLargest "2"] "total" =
      some (.number (.infinite false)) := by decide +kernel
  rw [hmembers, hinfinite] at hvalue
  obtain rfl := Option.some.inj hvalue
  have hchars := Scalar.chars_toJson_of_not_finite (x := .infinite false) nofun
  refine ⟨_, Row.mem_entries_of_get? hget, rfl, ?_, ?_⟩
  · rw [hchars]
    exact Json.denotes_chars .null .null
  · rw [Json.write, hchars]

end Query

end CampusQuery
