/-
CampusQuery/Proofs/Answer/PrimaryKey.lean

Grouping by the primary key changes nothing.

A query without groups turns records into rows and sorts these; one with groups partitions the
records, sorts the rows of the groups and narrows them to the columns.  If the columns and the
primary key are what is grouped by, then no two records are in one group
(`Transformation.partition_of_nodup`), and the narrowed row of a group is the row of its only record
(`project_row_singleton`).  So both ways lead to the same answer, also where this is an error.
-/
import CampusQuery.Proofs.Answer.Agreement
import CampusQuery.Proofs.Answer.Keys
import CampusQuery.Proofs.Json.Canonical

namespace CampusQuery

/-! ### Primary keys -/

/-- The field whose values tell the records of a kind apart. -/
def Kind.primaryField : Kind → Field
  | .courses => .uuid
  | .rooms => .roomName

theorem Kind.kind_primaryField (kind : Kind) : kind.primaryField.kind = kind := by
  cases kind <;> rfl

theorem Record.value?_primaryField (r : Record) :
    r.value? r.kind.primaryField = some (.text r.primaryKey) := by
  cases r <;> rfl

namespace Transformation

/-- If no two records have one tuple, then every record is a group. -/
theorem partition_of_nodup {t : Transformation} {records : List Record}
    (h : (records.map t.tuple).Nodup) : t.partition records = records.map fun r => [r] := by
  rw [t.partition_eq, Partition.eraseDups_of_nodup h, List.map_map]
  refine List.map_congr_left fun r hr => ?_
  have hsame : ∀ s ∈ records, (t.tuple s == t.tuple r) = (s == r) := by
    intro s hs
    rw [Bool.eq_iff_iff, beq_iff_eq, beq_iff_eq]
    exact ⟨fun e => List.inj_on_of_nodup_map h hs hr e, fun e => e ▸ rfl⟩
  rw [Function.comp_apply, List.filter_congr hsame, List.filter_beq,
    List.count_eq_one_of_mem h.of_map hr, List.replicate_one]

/-- Grouping by the primary key, whatever else is grouped by. -/
theorem nodup_map_tuple {t : Transformation} {kind : Kind} {records : List Record}
    (hkind : ∀ r ∈ records, r.kind = kind) (hdistinct : (records.map Record.primaryKey).Nodup)
    (hvalue : ∀ g ∈ t.group, ∀ r ∈ records, r.value? g.field ≠ none)
    (hprimary : ∃ g ∈ t.group, g.field = kind.primaryField) : (records.map t.tuple).Nodup := by
  obtain ⟨g, hg, hfield⟩ := hprimary
  refine hdistinct.of_map.map_on fun r hr s hs e => ?_
  have hsome {r : Record} (hr : r ∈ records) :
      ∀ g ∈ t.group, (r.value? g.field).map Scalar.identity ≠ none := by
    intro g hg
    simpa using hvalue g hg r hr
  have hvalues := (Query.filterMap_eq_filterMap_iff (hsome hr) (hsome hs)).mp e g hg
  have hr' := hkind r hr ▸ r.value?_primaryField
  have hs' := hkind s hs ▸ s.value?_primaryField
  rw [hfield, hr', hs'] at hvalues
  refine List.inj_on_of_nodup_map hdistinct hr hs ?_
  simpa [Scalar.identity] using hvalues

end Transformation

/-! ### Adding groups to a document -/

theorem Json.get?_insertMember (key : String) (value : Json) (members : List (String × Json))
    (k : String) : (Json.object (insertMember key value members)).get? k =
      if key = k then some value else (Json.object members).get? k := by
  induction members with
  | nil => exact Query.get?_object_cons key value [] k
  | cons m members ih =>
    obtain ⟨k', v'⟩ := m
    rw [insertMember]
    split
    · exact Query.get?_object_cons key value _ k
    · split
      · -- the value under the key is replaced
        rename_i heq
        subst heq
        rw [Query.get?_object_cons, Query.get?_object_cons]
        split <;> rfl
      · rename_i hne
        rw [Query.get?_object_cons, Query.get?_object_cons, ih]
        by_cases h : key = k
        · rw [if_pos h, if_pos h, if_neg (h ▸ Ne.symm hne)]
        · rw [if_neg h, if_neg h]

namespace Query

variable {view : CatalogView} {kinds : String → Option Kind} {document document' : Json} {q : Query}
  {group : List GroupKey}

/-- TRANSFORMATIONS with groups and no rules. -/
def groupsOnly (keys : List String) : Json :=
  .object [("APPLY", .array []), ("GROUP", .array (keys.map .text))]

/-- The document with groups by the given keys added. -/
def addGroups (keys : List String) : Json → Json
  | .object members => .object (Json.insertMember "TRANSFORMATIONS" (groupsOnly keys) members)
  | v => v

/-- The query with groups added, whose keys its columns are now. -/
def withGroups (group : List GroupKey) (q : Query) : Query :=
  { q with
    columns := q.columns.map fun c => ⟨c.key, none⟩
    transformation := some ⟨group, []⟩ }

theorem get?_addGroups (h : Grammar.Document document q) (keys : List String) (k : String) :
    (addGroups keys document).get? k =
      if "TRANSFORMATIONS" = k then some (groupsOnly keys) else document.get? k := by
  obtain ⟨members, rfl, -⟩ := h.members
  exact Json.get?_insertMember _ _ _ _

theorem transformed_groupsOnly {id : String} {kind : Kind} (hnil : group ≠ [])
    (hnames : ∀ g ∈ group, Names id kind g.key g.field) :
    Grammar.Transformed id kind (groupsOnly (group.map GroupKey.key)) ⟨group, []⟩ where
  members := ⟨_, rfl, .swap _ _ _⟩
  group := ⟨_, rfl, by rw [List.map_map]; rfl, hnil, hnames⟩
  apply := ⟨_, rfl, ⟨[], rfl, .nil⟩, List.nodup_nil⟩

/-- An accepted document without groups is still accepted if groups are added that its columns are
among. -/
theorem ofJson_addGroups (hq : ofJson kinds document = .ok q)
    (hplain : document.get? "TRANSFORMATIONS" = none) (hnil : group ≠ [])
    (hnames : ∀ g ∈ group, Names q.dataset q.kind g.key g.field)
    (hcolumns : ∀ key ∈ columnKeys document, key ∈ group.map GroupKey.key) :
    ofJson kinds (addGroups (group.map GroupKey.key) document) = .ok (q.withGroups group) := by
  obtain ⟨hkind, h⟩ := ofJson_eq_ok.mp hq
  obtain ⟨-, hspells⟩ := spells_of_ofJson hq
  have hget := get?_addGroups h (group.map GroupKey.key)
  obtain ⟨⟨members, rfl, hclauses⟩, -, ⟨o, ho, hoptions⟩, w, hw, hwhere⟩ := h
  obtain ⟨hmembers, ⟨c, hc, hitems, hne, -⟩, hordered⟩ := hoptions
  have hkeys : (q.columns.map fun c => (⟨c.key, none⟩ : Column)).map Column.key =
      q.columns.map Column.key := by
    rw [List.map_map]
    rfl
  refine ofJson_eq_ok.mpr ⟨hkind, ⟨_, rfl, ?_⟩, ?_, ⟨o, ?_, ?_⟩, w, ?_, hwhere⟩
  · intro m hm
    rcases Json.mem_insertMember hm with rfl | hm
    · exact .tail _ (.tail _ (.head _))
    · exact hclauses m hm
  · rw [hget, if_pos rfl]
    exact .some (transformed_groupsOnly hnil hnames)
  · rw [hget, if_neg (by decide), ho]
  · refine ⟨hmembers, ⟨c, hc, ?_, ?_, ?_⟩, hkeys.symm ▸ hordered⟩
    · rw [hitems, withGroups, List.map_map]
      rfl
    · exact mt List.map_eq_nil_iff.mp hne
    · intro column hcolumn
      obtain ⟨c, hc, rfl⟩ := List.mem_map.mp hcolumn
      have hkey : c.key ∈ columnKeys (.object members) :=
        hspells.keys ▸ List.mem_map_of_mem hc
      exact ⟨rfl, List.mem_append_left _ (hcolumns _ hkey)⟩
  · rw [hget, if_neg (by decide), hw]

/-! ### The same rows -/

/-- The key of the field that tells the records of a dataset apart. -/
def primaryKeyOf (id : String) (kind : Kind) : String :=
  QualifiedKey.toText ⟨id, kind.primaryField.name⟩

/-- The keys of the columns and the primary key, with the fields that they name. -/
def recordGroup (q : Query) : List GroupKey :=
  (q.columns.map fun c => ⟨c.key, c.field.getD q.kind.primaryField⟩) ++
    [⟨primaryKeyOf q.dataset q.kind, q.kind.primaryField⟩]

theorem map_key_recordGroup (hq : Spells document q) :
    q.recordGroup.map GroupKey.key = columnKeys document ++ [primaryKeyOf q.dataset q.kind] := by
  rw [recordGroup, List.map_append, List.map_map, hq.keys]
  rfl

theorem mem_recordGroup (hq : Spells document q) {key : String} (hkey : key ∈ columnKeys document) :
    key ∈ q.recordGroup.map GroupKey.key := by
  rw [map_key_recordGroup hq]
  exact List.mem_append_left _ hkey

theorem names_of_mem_recordGroup (hq : Spells document q)
    (hplain : document.get? "TRANSFORMATIONS" = none) {g : GroupKey} (hg : g ∈ q.recordGroup) :
    Names q.dataset q.kind g.key g.field := by
  rcases List.mem_append.mp hg with hg | hg
  · obtain ⟨c, hc, rfl⟩ := List.mem_map.mp hg
    obtain ⟨field, hfield, hnames⟩ := names_of_mem_columns hq hplain hc
    rw [hfield]
    exact hnames
  · obtain rfl := List.mem_singleton.mp hg
    -- the columns show that the id of the dataset may stand in a key
    obtain ⟨c, hc⟩ := List.exists_mem_of_ne_nil _ hq.columns_ne_nil
    obtain ⟨field, -, name, hkey, -⟩ := names_of_mem_columns hq hplain hc
    exact ⟨_, ofText?_toText (plain_of_ofText? hkey).1 (Field.noUnderscore_name _),
      Field.ofName?_eq_some_iff.mpr ⟨Field.mem_ofKind_iff.mpr q.kind.kind_primaryField, rfl⟩⟩

/-- The row of a group of one record is, narrowed to the columns, the row of the record. -/
theorem project_row_singleton {t : Transformation} {v : Json} (hq : Spells document q)
    (hplain : document.get? "TRANSFORMATIONS" = none) (hdistinct : (columnKeys document).Nodup)
    (hv : document'.get? "TRANSFORMATIONS" = some v)
    (ht : SpellsTransformation q.dataset q.kind v t)
    (hcolumns : ∀ key ∈ columnKeys document, key ∈ t.group.map GroupKey.key) {r : Record}
    (hr : r.kind = q.kind) :
    (t.row [r]).project (columnKeys document) = recordRow q.columns r := by
  have hrecord := gives_recordRow hq hplain hr
  have hgroup := gives_row hv ht (List.cons_ne_nil r []) (by simpa using hr)
    fun key hkey => List.mem_append_left _ (hcolumns key hkey)
  have hget : ∀ key ∈ columnKeys document,
      (t.row [r]).get? key = (recordRow q.columns r).get? key := by
    intro key hkey
    obtain ⟨x, hx, hrow⟩ := hgroup.given key hkey
    obtain ⟨y, hy, hrecordRow⟩ := hrecord.given key hkey
    rw [groupedValue, if_pos (groupKeys_eq hv ht ▸ hcolumns key hkey), List.head?_cons,
      Option.bind_some, hy] at hx
    rw [Row.get?_project, if_pos hkey] at hrow
    rw [hrow, hrecordRow, hx]
  have hkeys : (recordRow q.columns r).keys = columnKeys document :=
    (keys_recordRow hq hplain hr).trans (Partition.eraseDups_of_nodup hdistinct)
  rw [Row.project_congr hget, ← hkeys]
  exact Row.project_keys (hkeys ▸ hdistinct)

/-- All rows of the groups are, narrowed to the columns, those of the records. -/
theorem map_project_rows {v : Json} (hq : Spells document q)
    (hplain : document.get? "TRANSFORMATIONS" = none) (hcolumns : (columnKeys document).Nodup)
    (hv : document'.get? "TRANSFORMATIONS" = some v)
    (ht : SpellsTransformation q.dataset q.kind v ⟨q.recordGroup, []⟩) {records : List Record}
    (hkind : ∀ r ∈ records, r.kind = q.kind) (hdistinct : (records.map Record.primaryKey).Nodup) :
    (Transformation.rows ⟨q.recordGroup, []⟩ records).map (·.project (columnKeys document)) =
      records.map (recordRow q.columns) := by
  have hvalue : ∀ g ∈ q.recordGroup, ∀ r ∈ records, r.value? g.field ≠ none := by
    intro g hg r hr
    obtain ⟨name, -, hname⟩ := names_of_mem_recordGroup hq hplain hg
    exact value?_ne_none (hkind r hr ▸ hname)
  have hnodup := Transformation.nodup_map_tuple (t := ⟨q.recordGroup, []⟩) hkind hdistinct hvalue
    ⟨_, List.mem_append_right _ List.mem_cons_self, rfl⟩
  rw [Transformation.rows, Transformation.partition_of_nodup hnodup, List.map_map, List.map_map]
  exact List.map_congr_left fun r hr =>
    project_row_singleton hq hplain hcolumns hv ht (fun _ => mem_recordGroup hq) (hkind r hr)

/-! ### The same answer -/

/-- **The two ways to an answer agree.**  Adding groups by the columns and the primary key to an
accepted document with distinct columns gives a document that is accepted as well, and has the same
answer: the same rows in the same order, or the same error. -/
theorem answer_grouped_by_key (haccepted : ∃ q, ofJson view.kinds document = .ok q)
    (hplain : document.get? "TRANSFORMATIONS" = none) (hdistinct : (columnKeys document).Nodup) :
    ∃ id kind, Targets document id ∧ view.kinds id = some kind ∧
      (∃ q, ofJson view.kinds
        (addGroups (columnKeys document ++ [primaryKeyOf id kind]) document) = .ok q) ∧
      view.answer (addGroups (columnKeys document ++ [primaryKeyOf id kind]) document) =
        view.answer document := by
  obtain ⟨q, hq⟩ := haccepted
  obtain ⟨hkinds, hspells⟩ := spells_of_ofJson hq
  have hgroup : q.recordGroup ≠ [] := List.append_ne_nil_of_right_ne_nil _ (List.cons_ne_nil _ _)
  have hq' := ofJson_addGroups hq hplain hgroup
    (fun g hg => names_of_mem_recordGroup hspells hplain hg) fun _ => mem_recordGroup hspells
  have hget := get?_addGroups (ofJson_eq_ok.mp hq).2 (q.recordGroup.map GroupKey.key)
  refine ⟨q.dataset, q.kind, targets_of_columns hspells hplain, hkinds, ?_⟩
  rw [← map_key_recordGroup hspells]
  refine ⟨⟨_, hq'⟩, ?_⟩
  have hwhere : (addGroups (q.recordGroup.map GroupKey.key) document).get? "WHERE" =
      document.get? "WHERE" := (hget "WHERE").trans (if_neg (by decide))
  have hpatterns := patternsOf_congr hwhere
  rcases hmalformed : Filter.firstMalformed? (patternsOf document) with - | pattern
  · have hwell := Filter.firstMalformed?_eq_none.mp hmalformed
    refine answer_eq_of_rows hq hq' rfl hwell (hpatterns ▸ hwell) fun store hkind => ?_
    rw [matching_congr fun r _ => matches_congr hwhere r]
    obtain ⟨-, hspells'⟩ := spells_of_ofJson hq'
    obtain ⟨v, hv, ht⟩ := exists_spellsTransformation hspells' rfl
    have hkeys : columnKeys (addGroups (q.recordGroup.map GroupKey.key) document) =
        columnKeys document := by
      rw [columnKeys, columnKeys, hget, if_neg (by decide)]
    have hrecords : ∀ r ∈ matching document store, r.kind = q.kind :=
      fun r hr => (kind_of_mem_matching hr).trans hkind
    have hprimary : ((matching document store).map Record.primaryKey).Nodup :=
      store.distinct.sublist (List.filter_sublist.map _)
    have hrows := map_project_rows hspells hplain hdistinct hv ht hrecords hprimary
    -- without groups the rows are those of the records, and are not narrowed
    rw [projected_ordered hspells' rfl, hkeys, projected, rawRows, rawRows,
      transformation_eq_none hspells hplain, withGroups]
    exact ⟨(congrArg List.length hrows).symm.trans (List.length_map _) |>.symm, congrArg _ hrows⟩
  · rw [answer_of_malformed hq hmalformed,
      answer_of_malformed hq' ((congrArg _ hpatterns).trans hmalformed)]

theorem answer_grouped_by_key_sample :
    (∃ q, ofJson sampleView.kinds sampleDocument = .ok q) ∧
      sampleDocument.get? "TRANSFORMATIONS" = none ∧ (columnKeys sampleDocument).Nodup ∧
      ∃ id kind, Targets sampleDocument id ∧ sampleView.kinds id = some kind ∧
        (∃ q, ofJson sampleView.kinds
          (addGroups (columnKeys sampleDocument ++ [primaryKeyOf id kind]) sampleDocument) =
            .ok q) ∧
        sampleView.answer
          (addGroups (columnKeys sampleDocument ++ [primaryKeyOf id kind]) sampleDocument) =
            sampleView.answer sampleDocument := by
  have haccepted : ∃ q, ofJson sampleView.kinds sampleDocument = .ok q :=
    exists_of_isOk (by decide +kernel)
  have hplain : sampleDocument.get? "TRANSFORMATIONS" = none := by decide +kernel
  have hdistinct : (columnKeys sampleDocument).Nodup := by decide +kernel
  exact ⟨haccepted, hplain, hdistinct, answer_grouped_by_key haccepted hplain hdistinct⟩

end Query

end CampusQuery
