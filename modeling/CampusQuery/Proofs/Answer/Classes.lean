/-
CampusQuery/Proofs/Answer/Classes.lean

The records behind the rows of an answer.

Every row is made of some records: of one alone, or with TRANSFORMATIONS of those that have one
tuple (`Query.classes`).  What a row holds under a column is read off the document and these records
(`Query.classValue`).  Sorting aside, an answer has one row for each class, and nothing else
(`rows_of_answer`).  All values of a row can be looked up by their keys, also where a row repeats
a key (`get?_of_mem_entries`), so a property of values is proved class by class
(`exists_class_of_mem_rows`).
-/
import CampusQuery.Proofs.Answer.Keys

namespace CampusQuery

/-! ### Entries of rows -/

namespace Row

theorem get?_of_mem_project {row : Row} {columns : List String} {e : String × Scalar}
    (he : e ∈ (row.project columns).entries) : (row.project columns).get? e.1 = some e.2 := by
  obtain ⟨c, hc, hvalue⟩ := List.mem_filterMap.mp he
  obtain ⟨v, hv, rfl⟩ := Option.map_eq_some_iff.mp hvalue
  rw [get?_project, if_pos hc, hv]

theorem get?_of_mem_of_nodup {row : Row} (hkeys : row.keys.Nodup) {e : String × Scalar}
    (he : e ∈ row.entries) : row.get? e.1 = some e.2 := by
  -- a row without repeated keys is narrowed to itself
  have hself := project_keys hkeys
  rw [← hself] at he ⊢
  exact get?_of_mem_project he

theorem mem_entries_of_get? {row : Row} {key : String} {v : Scalar} (h : row.get? key = some v) :
    (key, v) ∈ row.entries := by
  obtain ⟨e, he, rfl⟩ := Option.map_eq_some_iff.mp h
  have hkey : e.1 = key := by simpa using List.find?_some he
  rw [← hkey]
  exact List.mem_of_find?_eq_some he

end Row

namespace Query

/-! ### Classes -/

/-- What is related to a list item by item has a partner for each. -/
theorem exists_of_mem_forall₂ {α β : Type} {R : α → β → Prop} {l : List α} {l' : List β}
    (h : List.Forall₂ R l l') {b : β} (hb : b ∈ l') : ∃ a ∈ l, R a b := by
  induction h with
  | nil => cases hb
  | @cons a c l l' hac _ ih =>
    rcases List.mem_cons.mp hb with rfl | hb
    · exact ⟨a, List.mem_cons_self, hac⟩
    · obtain ⟨a', ha', hab⟩ := ih hb
      exact ⟨a', List.mem_cons_of_mem _ ha', hab⟩

/-- The records behind each row: every record alone, or with TRANSFORMATIONS those with one tuple
together. -/
def classes (document : Json) (records : List Record) : List (List Record) :=
  match document.get? "TRANSFORMATIONS" with
  | none => records.map fun r => [r]
  | some _ => (tuplesOf document records).map fun tuple =>
    records.filter (tupleOf document · == tuple)

/-- The value under a key in the row of a class: that of the field of its record, or with
TRANSFORMATIONS what these give the group. -/
def classValue (document : Json) (members : List Record) (key : String) : Option Scalar :=
  match document.get? "TRANSFORMATIONS" with
  | none => members.head?.bind (·.named? key)
  | some _ => groupedValue document members key

variable {view : CatalogView} {document : Json} {answer : Answer} {row : Row}

/-- A class has a member, and its members are some of the records, in their order. -/
theorem of_mem_classes {records members : List Record} (h : members ∈ classes document records) :
    members ≠ [] ∧ members.Sublist records := by
  unfold classes at h
  split at h
  · obtain ⟨r, hr, rfl⟩ := List.mem_map.mp h
    exact ⟨List.cons_ne_nil r [], List.singleton_sublist.mpr hr⟩
  · obtain ⟨tuple, htuple, rfl⟩ := List.mem_map.mp h
    obtain ⟨r, hr, rfl⟩ := List.mem_map.mp (List.mem_eraseDups.mp htuple)
    have hmem : r ∈ records.filter (tupleOf document · == tupleOf document r) :=
      List.mem_filter.mpr ⟨hr, beq_self_eq_true _⟩
    exact ⟨List.ne_nil_of_mem hmem, List.filter_sublist⟩

/-- Two members of one class of a grouped document have one tuple. -/
theorem tupleOf_eq_of_mem_classes {records members : List Record}
    (hgrouped : document.get? "TRANSFORMATIONS" ≠ none) (h : members ∈ classes document records)
    {a b : Record} (ha : a ∈ members) (hb : b ∈ members) :
    tupleOf document a = tupleOf document b := by
  obtain ⟨v, hv⟩ := Option.ne_none_iff_exists'.mp hgrouped
  rw [classes, hv] at h
  obtain ⟨tuple, -, rfl⟩ := List.mem_map.mp h
  have htuple {r : Record} (hr : r ∈ records.filter (tupleOf document · == tuple)) :
      tupleOf document r = tuple := by simpa using (List.mem_filter.mp hr).2
  rw [htuple ha, htuple hb]

theorem ordered_perm (q : Query) (rows : List Row) : (q.ordered rows).Perm rows := by
  rw [ordered]
  split
  · exact List.mergeSort_perm _ _
  · exact .refl _

/-- Without TRANSFORMATIONS the rows of the records are those of the classes. -/
theorem gives_classes_plain {q : Query} (hq : Spells document q) (ht : q.transformation = none)
    {records : List Record} (hkind : ∀ r ∈ records, r.kind = q.kind) :
    List.Forall₂ (fun members row => row.Gives (columnKeys document)
      (classValue document members)) (classes document records) (q.rawRows records) := by
  have hplain := get?_eq_none_of_transformation hq ht
  rw [classes, hplain, rawRows, ht, List.forall₂_map_left_iff, List.forall₂_map_right_iff,
    List.forall₂_same]
  intro r hr
  have hvalue : classValue document [r] = r.named? := by
    funext key
    rw [classValue, hplain]
    rfl
  rw [hvalue]
  exact gives_recordRow hq hplain (hkind r hr)

/-- With TRANSFORMATIONS the rows of the groups are those of the classes, once they are narrowed to
the columns. -/
theorem gives_classes_grouped {q : Query} (hq : Spells document q) {t : Transformation}
    (ht : q.transformation = some t) {records : List Record}
    (hkind : ∀ r ∈ records, r.kind = q.kind) :
    List.Forall₂ (fun members row => row.Gives (columnKeys document)
      (classValue document members)) (classes document records)
      ((q.rawRows records).map (·.project (columnKeys document))) := by
  obtain ⟨v, hv, htransformation⟩ := exists_spellsTransformation hq ht
  rw [rawRows, ht]
  show List.Forall₂ _ _ (((t.partition records).map t.row).map _)
  rw [partition_eq_tuplesOf hv htransformation hkind, classes, hv,
    List.forall₂_map_right_iff, List.forall₂_map_right_iff, List.forall₂_same]
  intro members hmembers
  have hclass : members ∈ classes document records := by
    rwa [classes, hv]
  obtain ⟨hne, hsub⟩ := of_mem_classes hclass
  have hvalue : classValue document members = groupedValue document members := by
    funext key
    rw [classValue, hv]
  rw [hvalue]
  exact gives_row hv htransformation hne (fun r hr => hkind r (hsub.mem hr))
    fun _ => mem_columnNames hq ht

/-- **The rows of an answer are those of the classes**, in some order. -/
theorem rows_of_answer (h : view.answer document = .ok answer) :
    ∃ q store rows, ofJson view.kinds document = .ok q ∧ q.dataset = answer.dataset ∧
      view answer.dataset = some store ∧ store.kind = q.kind ∧
      List.Forall₂ (fun members row => row.Gives (columnKeys document)
        (classValue document members)) (classes document (matching document store)) rows ∧
      answer.rows.Perm rows := by
  obtain ⟨q, hq, hpatterns⟩ := accepted_of_answer h
  obtain ⟨-, hspells⟩ := spells_of_ofJson hq
  obtain ⟨store, hstore, hkind, hanswer⟩ := answer_eq hq hpatterns
  have hkinds : ∀ r ∈ matching document store, r.kind = q.kind := fun r hr =>
    (kind_of_mem_matching hr).trans hkind
  rw [h] at hanswer
  split at hanswer
  · cases hanswer
  · obtain rfl := Except.ok.inj hanswer
    rcases ht : q.transformation with - | t
    · refine ⟨q, store, _, hq, rfl, hstore, hkind, gives_classes_plain hspells ht hkinds, ?_⟩
      show List.Perm (q.projected (q.ordered (q.rawRows _))) _
      rw [projected, ht]
      exact ordered_perm q _
    · refine ⟨q, store, _, hq, rfl, hstore, hkind, gives_classes_grouped hspells ht hkinds, ?_⟩
      show List.Perm (q.projected (q.ordered (q.rawRows _))) _
      rw [projected_ordered hspells ht]
      exact ordered_perm q _

/-! ### Entries of answers -/

/-- All values of a row can be looked up, also under a key that the row repeats. -/
theorem get?_of_mem_entries (h : view.answer document = .ok answer) (hrow : row ∈ answer.rows)
    {e : String × Scalar} (he : e ∈ row.entries) : row.get? e.1 = some e.2 := by
  obtain ⟨q, hq, hpatterns⟩ := accepted_of_answer h
  obtain ⟨-, hspells⟩ := spells_of_ofJson hq
  have hkeys := keys_of_answer h hrow
  rcases ht : q.transformation with - | t
  · rw [rowKeys, get?_eq_none_of_transformation hspells ht] at hkeys
    exact Row.get?_of_mem_of_nodup (hkeys ▸ Partition.nodup_eraseDups _) he
  · obtain ⟨store, -, -, hanswer⟩ := answer_eq hq hpatterns
    rw [h] at hanswer
    split at hanswer
    · cases hanswer
    · obtain rfl := Except.ok.inj hanswer
      rw [projected, ht] at hrow
      obtain ⟨raw, -, rfl⟩ := List.mem_map.mp hrow
      exact Row.get?_of_mem_project he

/-- **Every value in an answer is that of a class under a column.** -/
theorem exists_class_of_mem_rows (h : view.answer document = .ok answer)
    (hrow : row ∈ answer.rows) :
    ∃ q store members, ofJson view.kinds document = .ok q ∧ view answer.dataset = some store ∧
      store.kind = q.kind ∧ members ∈ classes document (matching document store) ∧
      ∀ e ∈ row.entries, e.1 ∈ columnKeys document ∧
        classValue document members e.1 = some e.2 := by
  obtain ⟨q, store, rows, hq, -, hstore, hkind, hrows, hperm⟩ := rows_of_answer h
  obtain ⟨members, hmembers, hgives⟩ := exists_of_mem_forall₂ hrows (hperm.mem_iff.mp hrow)
  refine ⟨q, store, members, hq, hstore, hkind, hmembers, fun e he => ?_⟩
  have hget := get?_of_mem_entries h hrow he
  have hkey : e.1 ∈ columnKeys document := by
    by_contra hkey
    exact Option.some_ne_none _ (hget.symm.trans (hgives.only _ hkey))
  obtain ⟨v, hvalue, hv⟩ := hgives.given _ hkey
  exact ⟨hkey, hvalue.trans (hv.symm.trans hget)⟩

end Query

end CampusQuery
