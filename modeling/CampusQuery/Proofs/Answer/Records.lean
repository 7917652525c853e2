/-
CampusQuery/Proofs/Answer/Records.lean

What the answer to a query without groups is.

The stages of a query are joined in two steps.  `answer_eq` puts the records that
satisfy WHERE, read off the document, in the place of selection and checking; what is
left is one case distinction on the number of rows.  `gives_recordRow` then says what the
row of a record is, and sorting has been dealt with before.
-/
import CampusQuery.Answer.Run
import CampusQuery.Proofs.Answer.Order
import CampusQuery.Proofs.Answer.Rows
import CampusQuery.Proofs.Query.Accepted

namespace CampusQuery

/-- No value of the store is "not a number". -/
def RecordStore.Numeric (store : RecordStore) : Prop :=
  ∀ r ∈ store.records.toList, ∀ field, r.value? field ≠ some (.number .notANumber)

namespace Query

variable {view : CatalogView} {document : Json} {store : RecordStore} {q : Query}

/-! ### Stages -/

theorem kind_of_mem_matching {r : Record} (h : r ∈ matching document store) :
    r.kind = store.kind :=
  store.ofKind r (List.mem_of_mem_filter h)

/-- The records that are selected are those that satisfy WHERE. -/
theorem exists_selected (hq : Spells document q) (hkind : store.kind = q.kind)
    (hpatterns : ∀ p ∈ patternsOf document, Wildcard.WellFormed p) :
    ∃ s, Filter.selectOptional store q.filter = .ok s ∧
      store.select s = matching document store := by
  -- the patterns of the filter are those of WHERE
  have hwell : ∀ f ∈ q.filter, f.WellFormed := by
    intro f hf
    rw [Filter.WellFormed, hq.patterns f hf]
    exact hpatterns
  obtain ⟨s, hs, hselect⟩ := Filter.exists_selectOptional store q.filter hwell
  refine ⟨s, hs, ?_⟩
  rw [hselect, matching]
  refine List.filter_congr fun r hr => ?_
  rw [decide_eq_decide]
  exact hq.holds_iff r ((store.ofKind r hr).trans hkind)

/-- The answer to a document, from the records that satisfy WHERE. -/
theorem answer_eq (h : ofJson view.kinds document = .ok q)
    (hpatterns : ∀ p ∈ patternsOf document, Wildcard.WellFormed p) :
    ∃ store, view q.dataset = some store ∧ store.kind = q.kind ∧
      view.answer document =
        if (q.rawRows (matching document store)).length > resultLimit then
          .error (.tooLarge (q.rawRows (matching document store)).length)
        else .ok ⟨q.dataset, q.projected (q.ordered (q.rawRows (matching document store)))⟩ := by
  obtain ⟨hkinds, hspells⟩ := spells_of_ofJson h
  obtain ⟨store, hstore, hkind⟩ := Option.map_eq_some_iff.mp hkinds
  refine ⟨store, hstore, hkind, ?_⟩
  obtain ⟨s, hs, hselect⟩ := exists_selected hspells hkind hpatterns
  simp only [CatalogView.answer, CatalogView.answerWith, h, CatalogView.run, hstore, runOn, hs,
    hselect]

/-- The rows are the given ones in the order of the document: as they are given, or in
the only arrangement that ORDER allows. -/
def InOrder (document : Json) (given rows : List Row) : Prop :=
  match orderOf document with
  | none => rows = given
  | some o => o.Arranges given rows ∧ ∀ other, o.Arranges given other → other = rows

theorem inOrder_ordered (hq : Spells document q) {rows : List Row}
    (h : ∀ row ∈ rows, row.Comparable) : InOrder document rows (q.ordered rows) := by
  rw [InOrder, ordered, hq.order]
  rcases q.order with - | o
  · rfl
  · have harranges := Order.arranges_sort (o := o) h
    exact ⟨harranges, fun other hother => hother.unique h harranges⟩

/-! ### Rows of records -/

theorem transformation_eq_none (hq : Spells document q)
    (hplain : document.get? "TRANSFORMATIONS" = none) : q.transformation = none := by
  have hrel := hq.transformation
  rw [hplain] at hrel
  rcases ht : q.transformation with - | t
  · rfl
  · rw [ht] at hrel
    cases hrel

/-- The columns of a query without groups name fields of its dataset. -/
theorem names_of_mem_columns (hq : Spells document q)
    (hplain : document.get? "TRANSFORMATIONS" = none) {c : Column} (hc : c ∈ q.columns) :
    ∃ field, c.field = some field ∧ Names q.dataset q.kind c.key field := by
  have hfits := hq.columns c hc
  rw [transformation_eq_none hq hplain] at hfits
  exact hfits

/-- The row of a record gives the columns the values of the fields that they name. -/
theorem gives_recordRow (hq : Spells document q)
    (hplain : document.get? "TRANSFORMATIONS" = none) {r : Record} (hr : r.kind = q.kind) :
    (recordRow q.columns r).Gives (columnKeys document) r.named? := by
  have hvalue : ∀ c ∈ q.columns,
      c.field.bind r.value? = r.named? c.key ∧ c.field.bind r.value? ≠ none := by
    intro c hc
    obtain ⟨field, hfield, hnames⟩ := names_of_mem_columns hq hplain hc
    rw [← hr] at hnames
    rw [hfield, Option.bind_some, hnames.named?]
    obtain ⟨name, -, hname⟩ := hnames
    exact ⟨rfl, value?_ne_none hname⟩
  have hrow (key : String) : (recordRow q.columns r).get? key =
      if key ∈ columnKeys document then r.named? key else none := by
    rw [recordRow, Row.get?_foldl_insert? hvalue, ← hq.keys, Row.get?_empty]
  refine ⟨fun key hkey => ?_, fun key hkey => ?_⟩
  · rw [hrow, if_pos hkey]
    rw [hq.keys] at hkey
    obtain ⟨c, hc, rfl⟩ := List.mem_map.mp hkey
    obtain ⟨hnamed, hsome⟩ := hvalue c hc
    obtain ⟨v, hv⟩ := Option.ne_none_iff_exists'.mp hsome
    exact ⟨v, hnamed ▸ hv, hnamed ▸ hv⟩
  · rw [hrow, if_neg hkey]

/-- A document without groups is about the dataset of its query. -/
theorem targets_of_columns (hq : Spells document q)
    (hplain : document.get? "TRANSFORMATIONS" = none) : Targets document q.dataset := by
  have hfieldKeys : fieldKeys document = q.columns.map Column.key := by
    rw [fieldKeys, hplain]
    exact hq.keys
  rw [Targets, hfieldKeys]
  refine ⟨fun h => hq.columns_ne_nil (List.map_eq_nil_iff.mp h), fun key hkey => ?_⟩
  obtain ⟨c, hc, rfl⟩ := List.mem_map.mp hkey
  obtain ⟨field, -, name, hparts, -⟩ := names_of_mem_columns hq hplain hc
  rw [hparts, Option.map_some]

theorem named?_ne_notANumber (hnumeric : store.Numeric) {r : Record}
    (hr : r ∈ matching document store) (key : String) :
    r.named? key ≠ some (.number .notANumber) := by
  intro h
  obtain ⟨parts, -, h⟩ := Option.bind_eq_some_iff.mp h
  obtain ⟨field, -, h⟩ := Option.bind_eq_some_iff.mp h
  exact hnumeric r (List.mem_of_mem_filter hr) field h

/-- A row can be compared if the values that it gives can. -/
theorem comparable_of_gives {row : Row} {keys : List String} {value : String → Option Scalar}
    (h : row.Gives keys value) (hvalue : ∀ key, value key ≠ some (.number .notANumber)) :
    row.Comparable := by
  intro key hkey
  by_cases hmem : key ∈ keys
  · obtain ⟨x, hx, hget⟩ := h.given key hmem
    rw [hget] at hkey
    exact hvalue key (hx.trans hkey)
  · rw [h.only key hmem] at hkey
    cases hkey

/-- **An untransformed query means what it says.**  The rows are those of the records
that satisfy WHERE, one each; with ORDER they are in the only arrangement that the order
allows, and without it in scan order.  Too many records are refused, and nothing
else is. -/
theorem answer_records (haccepted : ∃ q, ofJson view.kinds document = .ok q)
    (hplain : document.get? "TRANSFORMATIONS" = none)
    (hpatterns : ∀ p ∈ patternsOf document, Wildcard.WellFormed p)
    (hnumeric : ∀ id store, view id = some store → store.Numeric) :
    ∃ id store, Targets document id ∧ view id = some store ∧
      (resultLimit < (matching document store).length →
        view.answer document = .error (.tooLarge (matching document store).length)) ∧
      ((matching document store).length ≤ resultLimit →
        ∃ scanned rows, view.answer document = .ok ⟨id, rows⟩ ∧
          List.Forall₂ (fun r row => row.Gives (columnKeys document) (Record.named? r))
            (matching document store) scanned ∧
          InOrder document scanned rows) := by
  obtain ⟨q, hq⟩ := haccepted
  obtain ⟨-, hspells⟩ := spells_of_ofJson hq
  obtain ⟨store, hstore, hkind, hanswer⟩ := answer_eq hq hpatterns
  have hnone := transformation_eq_none hspells hplain
  -- there is one row for each record
  have hraw : q.rawRows (matching document store) =
      (matching document store).map (recordRow q.columns) := by
    rw [rawRows, hnone]
  rw [hraw, List.length_map] at hanswer
  refine ⟨q.dataset, store, targets_of_columns hspells hplain, hstore, ?_, ?_⟩
  · intro hlarge
    rw [hanswer, if_pos hlarge]
  · intro hsmall
    have hgives : List.Forall₂ (fun r row => row.Gives (columnKeys document) (Record.named? r))
        (matching document store) ((matching document store).map (recordRow q.columns)) := by
      rw [List.forall₂_map_right_iff, List.forall₂_same]
      intro r hr
      exact gives_recordRow hspells hplain ((kind_of_mem_matching hr).trans hkind)
    -- ORDER asks that the rows can be compared
    have hcomparable : ∀ row ∈ (matching document store).map (recordRow q.columns),
        row.Comparable := by
      intro row hrow
      obtain ⟨r, hr, rfl⟩ := List.mem_map.mp hrow
      exact comparable_of_gives
        (gives_recordRow hspells hplain ((kind_of_mem_matching hr).trans hkind))
        (named?_ne_notANumber (hnumeric _ store hstore) hr)
    refine ⟨_, _, by rw [hanswer, if_neg (Nat.not_lt.mpr hsmall)], hgives, ?_⟩
    rw [projected, hnone]
    exact inOrder_ordered hspells hcomparable

/-- An empty WHERE is satisfied by all. -/
theorem matching_eq_records {store : RecordStore}
    (h : document.get? "WHERE" = some (.object [])) :
    matching document store = store.records.toList := by
  rw [matching, List.filter_eq_self]
  intro r _
  have hmatches : Matches document r := ⟨_, h, .inl rfl⟩
  simpa using hmatches

end Query

/-! ### Views of one dataset -/

/-- The view that has only one dataset, `ubc`. -/
def CatalogView.ofStore (store : RecordStore) : CatalogView :=
  fun id => if id = "ubc" then some store else none

theorem CatalogView.eq_ubc_of_ofStore {store found : RecordStore} {id : String}
    (h : ofStore store id = some found) : id = "ubc" := by
  unfold ofStore at h
  split at h
  · assumption
  · cases h

theorem CatalogView.eq_of_ofStore {store found : RecordStore} {id : String}
    (h : ofStore store id = some found) : found = store := by
  rw [eq_ubc_of_ofStore h] at h
  exact (Option.some.inj h).symm

namespace Query

/-- A section with an average. -/
def sampleSection (uuid : String) (avg : Int) : Record :=
  .course ⟨"cpsc", "310", "", "", .ofInt avg, 1, 0, 0, uuid, 2015⟩

/-- Two sections, not in the order of their averages. -/
def sampleStore : RecordStore where
  kind := .courses
  records := #[sampleSection "1" 90, sampleSection "2" 70]
  ofKind := by decide
  distinct := by decide

/-- The two sections under `ubc`. -/
def sampleView : CatalogView := .ofStore sampleStore

/-- All sections that are not from before 2015, by their averages. -/
def sampleDocument : Json :=
  .object [("WHERE", .object [("NOT", .object [("LT", .object [("ubc_year", .ofInt 2015)])])]),
    ("OPTIONS", .object [("COLUMNS", .array [.text "ubc_uuid", .text "ubc_avg"]),
      ("ORDER", .text "ubc_avg")])]

theorem sampleView_numeric (id : String) (store : RecordStore) (h : sampleView id = some store) :
    store.Numeric := by
  obtain rfl := CatalogView.eq_of_ofStore h
  intro r hr field
  rcases List.mem_pair.mp hr with rfl | rfl <;> cases field <;> decide +kernel

theorem answer_records_sample :
    (∃ q, ofJson sampleView.kinds sampleDocument = .ok q) ∧
      sampleDocument.get? "TRANSFORMATIONS" = none ∧
      (∀ p ∈ patternsOf sampleDocument, Wildcard.WellFormed p) ∧
      (∀ id store, sampleView id = some store → store.Numeric) ∧
      ∃ id store, Targets sampleDocument id ∧ sampleView id = some store ∧
        (resultLimit < (matching sampleDocument store).length →
          sampleView.answer sampleDocument =
            .error (.tooLarge (matching sampleDocument store).length)) ∧
        ((matching sampleDocument store).length ≤ resultLimit →
          ∃ scanned rows, sampleView.answer sampleDocument = .ok ⟨id, rows⟩ ∧
            List.Forall₂ (fun r row => row.Gives (columnKeys sampleDocument) (Record.named? r))
              (matching sampleDocument store) scanned ∧
            InOrder sampleDocument scanned rows) := by
  have haccepted : ∃ q, ofJson sampleView.kinds sampleDocument = .ok q :=
    exists_of_isOk (by decide +kernel)
  have hpatterns : ∀ p ∈ patternsOf sampleDocument, Wildcard.WellFormed p := by
    simp [patternsOf, sampleDocument, Json.get?, Json.patterns]
  have hplain : sampleDocument.get? "TRANSFORMATIONS" = none := by decide +kernel
  exact ⟨haccepted, hplain, hpatterns, sampleView_numeric,
    answer_records haccepted hplain hpatterns sampleView_numeric⟩

end Query

end CampusQuery
