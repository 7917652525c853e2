/-
CampusQuery/Proofs/Answer/Keys.lean

The keys of the rows of an answer.

The row of a record is built key by key, and setting a key that is there already puts no second one
(`Row.keys_insert`); so each column stands once, at its first place.  The row of a group is narrowed
instead, and narrowing goes through the columns as they are listed (`Row.keys_project`): a column
that is listed twice stands in the row twice.
-/
import CampusQuery.Proofs.Answer.Columns

namespace CampusQuery

/-! ### Keys of rows -/

namespace Row

theorem keys_insert (row : Row) (key : String) (value : Scalar) :
    (row.insert key value).keys = if key ∈ row.keys then row.keys else row.keys ++ [key] := by
  obtain ⟨entries⟩ := row
  rw [insert, keys, keys]
  induction entries with
  | nil => rfl
  | cons e rest ih =>
    rw [setEntry]
    by_cases h : e.1 = key
    · simp [h]
    · simp only [if_neg h, List.map_cons, ih, List.mem_cons, Ne.symm h, false_or]
      split <;> rfl

/-- Narrowing to keys that are there lists them as they are given. -/
theorem keys_project {row : Row} {columns : List String} (h : ∀ c ∈ columns, row.get? c ≠ none) :
    (row.project columns).keys = columns := by
  rw [keys, project]
  induction columns with
  | nil => rfl
  | cons c columns ih =>
    rw [List.forall_mem_cons] at h
    obtain ⟨v, hv⟩ := Option.ne_none_iff_exists'.mp h.1
    rw [List.filterMap_cons_some (by rw [hv, Option.map_some]), List.map_cons, ih h.2]

/-- What a row is narrowed to depends on the values under the columns only. -/
theorem project_congr {a b : Row} {columns : List String} (h : ∀ c ∈ columns, a.get? c = b.get? c) :
    a.project columns = b.project columns := by
  rw [project, project]
  exact congrArg Row.mk (List.filterMap_congr fun c hc => by rw [h c hc])

/-- A row without repeated keys is not changed by narrowing it to all of them. -/
theorem project_keys {row : Row} (h : row.keys.Nodup) : row.project row.keys = row := by
  obtain ⟨entries⟩ := row
  rw [project, keys]
  congr 1
  induction entries with
  | nil => rfl
  | cons e rest ih =>
    obtain ⟨key, value⟩ := e
    obtain ⟨hkey, hrest⟩ := List.nodup_cons.mp h
    have hothers : ∀ c ∈ rest.map Prod.fst,
        (get? ⟨(key, value) :: rest⟩ c).map (c, ·) = (get? ⟨rest⟩ c).map (c, ·) := by
      intro c hc
      rw [get?_cons, if_neg]
      rintro rfl
      exact hkey hc
    rw [List.map_cons, List.filterMap_cons, get?_cons, if_pos rfl, Option.map_some]
    exact congrArg _ ((List.filterMap_congr hothers).trans (ih hrest))

end Row

namespace Query

variable {view : CatalogView} {document v : Json} {q : Query} {t : Transformation} {row : Row}

/-- Setting columns that have values, one after the other, leaves each at its first place. -/
theorem keys_recordRow_of_values {columns : List Column} {r : Record}
    (h : ∀ c ∈ columns, c.field.bind r.value? ≠ none) :
    (recordRow columns r).keys = (columns.map Column.key).eraseDups := by
  induction columns using List.reverseRecOn with
  | nil => rfl
  | append_singleton columns c ih =>
    have hrest := ih fun c hc => h c (List.mem_append_left _ hc)
    obtain ⟨x, hx⟩ := Option.ne_none_iff_exists'.mp
      (h c (List.mem_append_right _ List.mem_cons_self))
    rw [recordRow, List.foldl_append, ← recordRow, List.foldl_cons, List.foldl_nil, hx, Row.insert?,
      Row.keys_insert, hrest, List.map_append, List.map_singleton,
      Partition.eraseDups_append_singleton]
    simp only [List.mem_eraseDups]

/-- The row of a record has each column once, at its first place. -/
theorem keys_recordRow (hq : Spells document q) (hplain : document.get? "TRANSFORMATIONS" = none)
    {r : Record} (hr : r.kind = q.kind) :
    (recordRow q.columns r).keys = (columnKeys document).eraseDups := by
  rw [hq.keys]
  refine keys_recordRow_of_values fun c hc => ?_
  obtain ⟨field, hfield, hnames⟩ := names_of_mem_columns hq hplain hc
  obtain ⟨name, -, hname⟩ := hnames
  rw [hfield]
  exact value?_ne_none (hr.symm ▸ hname)

/-! ### Keys of answers -/

/-- Ordering gives back the rows that it is given. -/
theorem mem_ordered {rows : List Row} : row ∈ q.ordered rows ↔ row ∈ rows := by
  rw [ordered]
  split
  · exact (List.mergeSort_perm _ _).mem_iff
  · exact Iff.rfl

theorem keys_of_mem_records (hq : Spells document q)
    (hplain : document.get? "TRANSFORMATIONS" = none) {records : List Record}
    (hkind : ∀ r ∈ records, r.kind = q.kind)
    (hrow : row ∈ q.projected (q.ordered (q.rawRows records))) :
    row.keys = (columnKeys document).eraseDups := by
  have ht := transformation_eq_none hq hplain
  rw [projected, ht] at hrow
  replace hrow := mem_ordered.mp hrow
  rw [rawRows, ht] at hrow
  obtain ⟨r, hr, rfl⟩ := List.mem_map.mp hrow
  exact keys_recordRow hq hplain (hkind r hr)

theorem keys_of_mem_groups (hq : Spells document q) (ht : q.transformation = some t)
    {records : List Record} (hkind : ∀ r ∈ records, r.kind = q.kind)
    (hrow : row ∈ q.projected (q.ordered (q.rawRows records))) :
    row.keys = columnKeys document := by
  obtain ⟨v, hv, hspells⟩ := exists_spellsTransformation hq ht
  rw [projected, ht] at hrow
  obtain ⟨raw, hraw, rfl⟩ := List.mem_map.mp hrow
  replace hraw := mem_ordered.mp hraw
  rw [rawRows, ht] at hraw
  obtain ⟨members, hmembers, rfl⟩ := List.mem_map.mp hraw
  obtain ⟨hne, hmem⟩ := Transformation.of_mem_partition hmembers
  rw [← hq.keys]
  refine Row.keys_project fun key hkey => ?_
  obtain ⟨x, -, hx⟩ := (gives_row hv hspells hne (fun r hr => hkind r (hmem r hr))
    fun _ => mem_columnNames hq ht).given key hkey
  rw [Row.get?_project, if_pos hkey] at hx
  rw [hx]
  exact Option.some_ne_none x

/-- The keys of a row of the answer to a document: of the row of a record each column once, and of
the row of a group the columns as they are listed. -/
def rowKeys (document : Json) : List String :=
  match document.get? "TRANSFORMATIONS" with
  | none => (columnKeys document).eraseDups
  | some _ => columnKeys document

theorem keys_of_answer {answer : Answer} (h : view.answer document = .ok answer)
    (hrow : row ∈ answer.rows) : row.keys = rowKeys document := by
  obtain ⟨q, hq, hpatterns⟩ := accepted_of_answer h
  obtain ⟨-, hspells⟩ := spells_of_ofJson hq
  obtain ⟨store, hstore, hkind, hanswer⟩ := answer_eq hq hpatterns
  have hkinds : ∀ r ∈ matching document store, r.kind = q.kind := fun r hr =>
    (kind_of_mem_matching hr).trans hkind
  rw [h] at hanswer
  split at hanswer
  · cases hanswer
  · obtain rfl := Except.ok.inj hanswer
    rcases ht : q.transformation with - | t
    · have hplain := get?_eq_none_of_transformation hspells ht
      rw [rowKeys, hplain]
      exact keys_of_mem_records hspells hplain hkinds hrow
    · obtain ⟨v, hv, -⟩ := exists_spellsTransformation hspells ht
      rw [rowKeys, hv]
      exact keys_of_mem_groups hspells ht hkinds hrow

theorem rawRows_ne_nil {records : List Record} (h : records ≠ []) : q.rawRows records ≠ [] := by
  obtain ⟨r, hr⟩ := List.exists_mem_of_ne_nil _ h
  rw [rawRows]
  split
  · rename_i t _
    have htuple : t.tuple r ∈ (records.map t.tuple).eraseDups :=
      List.mem_eraseDups.mpr (List.mem_map_of_mem hr)
    rw [Transformation.rows, Transformation.partition_eq]
    exact List.ne_nil_of_mem (List.mem_map_of_mem (List.mem_map_of_mem htuple))
  · exact List.ne_nil_of_mem (List.mem_map_of_mem hr)

/-- Where records satisfy WHERE, an answer has a row. -/
theorem exists_row {answer : Answer} (h : view.answer document = .ok answer)
    (hmatch : ∀ id store, view id = some store → matching document store ≠ []) :
    ∃ row, row ∈ answer.rows := by
  obtain ⟨q, hq, hpatterns⟩ := accepted_of_answer h
  obtain ⟨store, hstore, -, hanswer⟩ := answer_eq hq hpatterns
  rw [h] at hanswer
  split at hanswer
  · cases hanswer
  · obtain rfl := Except.ok.inj hanswer
    obtain ⟨raw, hraw⟩ := List.exists_mem_of_ne_nil _ (rawRows_ne_nil (hmatch _ store hstore))
    rw [projected]
    split
    · exact ⟨_, List.mem_map_of_mem (mem_ordered.mpr hraw)⟩
    · exact ⟨raw, mem_ordered.mpr hraw⟩

/-- **A row repeats just the keys that a grouped document lists twice.**  The row of a record has
each column once, at its first place, and serializes so.  The row of a group has the columns as they
are listed, so it is a mapping only if they are distinct. -/
theorem answer_row_keys {answer : Answer} (h : view.answer document = .ok answer)
    (hrow : row ∈ answer.rows) :
    row.keys = rowKeys document ∧
      (row.keys.Nodup ↔
        document.get? "TRANSFORMATIONS" = none ∨ (columnKeys document).Nodup) ∧
      (row.keys = (columnKeys document).eraseDups ↔ row.keys.Nodup) ∧
      ∃ members, row.toJson = .object members ∧ members.map Prod.fst = row.keys := by
  have hkeys := keys_of_answer h hrow
  have hserialized : ∃ members, row.toJson = .object members ∧ members.map Prod.fst = row.keys := by
    refine ⟨_, rfl, ?_⟩
    rw [List.map_map]
    rfl
  refine ⟨hkeys, ?_, ?_, hserialized⟩
  · rw [hkeys, rowKeys]
    rcases document.get? "TRANSFORMATIONS" with - | v
    · simp [Partition.nodup_eraseDups]
    · simp
  · constructor
    · intro e
      rw [e]
      exact Partition.nodup_eraseDups _
    · intro hnodup
      rw [hkeys, rowKeys] at hnodup ⊢
      split at hnodup
      · rfl
      · exact (Partition.eraseDups_of_nodup hnodup).symm

/-- The departments, with their column listed twice. -/
def sampleRepeated : Json :=
  .object [("WHERE", .object []),
    ("OPTIONS", .object [("COLUMNS", .array [.text "ubc_dept", .text "ubc_dept"])]),
    ("TRANSFORMATIONS", .object [("GROUP", .array [.text "ubc_dept"]), ("APPLY", .array [])])]

theorem exists_row_sampleRepeated :
    ∃ answer, sampleView.answer sampleRepeated = .ok answer ∧ ∃ row, row ∈ answer.rows := by
  obtain ⟨answer, h⟩ : ∃ answer, sampleView.answer sampleRepeated = .ok answer :=
    exists_answer_ofStore (by decide +kernel)
      (by simp [patternsOf, sampleRepeated, Json.get?, Json.patterns]) (by decide)
  refine ⟨answer, h, exists_row h fun id store h => ?_⟩
  rw [CatalogView.eq_of_ofStore h, matching_eq_records rfl]
  exact List.cons_ne_nil _ _

theorem answer_row_keys_sample :
    ∃ answer, sampleView.answer sampleRepeated = .ok answer ∧ ∃ row, row ∈ answer.rows ∧
      row.keys = rowKeys sampleRepeated ∧
        (row.keys.Nodup ↔
          sampleRepeated.get? "TRANSFORMATIONS" = none ∨ (columnKeys sampleRepeated).Nodup) ∧
        (row.keys = (columnKeys sampleRepeated).eraseDups ↔ row.keys.Nodup) ∧
        ∃ members, row.toJson = .object members ∧ members.map Prod.fst = row.keys := by
  obtain ⟨answer, h, row, hrow⟩ := exists_row_sampleRepeated
  exact ⟨answer, h, row, hrow, answer_row_keys h hrow⟩

/-- There is an answer with a row that has its only column twice. -/
theorem row_repeats_column :
    ∃ answer, sampleView.answer sampleRepeated = .ok answer ∧ ∃ row, row ∈ answer.rows ∧
      row.keys = ["ubc_dept", "ubc_dept"] ∧ ¬ row.keys.Nodup ∧
      row.keys ≠ (columnKeys sampleRepeated).eraseDups := by
  obtain ⟨answer, h, row, hrow⟩ := exists_row_sampleRepeated
  have hkeys : row.keys = ["ubc_dept", "ubc_dept"] :=
    (keys_of_answer h hrow).trans (by decide +kernel)
  refine ⟨answer, h, row, hrow, hkeys, ?_, ?_⟩
  · rw [hkeys]
    decide
  · rw [hkeys]
    decide +kernel

end Query

end CampusQuery
