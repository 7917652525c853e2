/-
CampusQuery/Proofs/Answer/ClauseOrder.lean

The order within clauses does not matter for the answer.

What GROUP, APPLY and the connectives of WHERE list is used as a set.  Another order of GROUP gives
other tuples, but two records have the same tuple as before or different ones as before, so the
groups are the same and appear in the same order (`Transformation.partition_congr`).  Another order
of APPLY builds the rows in another order; but the rules have names of their own, so after
narrowing nothing is left of that (`map_project_rows_reordered`).
-/
import Mathlib.Data.List.Find
import CampusQuery.Proofs.Answer.Agreement
import CampusQuery.Proofs.Answer.Keys
import CampusQuery.Proofs.Query.Reordered

namespace CampusQuery

/-! ### Groups -/

/-- Functions that tell the same elements of a list apart first do so at the same elements. -/
theorem exists_firsts {α β γ : Type} [BEq β] [LawfulBEq β] [BEq γ] [LawfulBEq γ] {f : α → β}
    {g : α → γ} {l : List α} (h : ∀ a ∈ l, ∀ b ∈ l, f a = f b ↔ g a = g b) :
    ∃ firsts : List α, (∀ a ∈ firsts, a ∈ l) ∧ (l.map f).eraseDups = firsts.map f ∧
      (l.map g).eraseDups = firsts.map g := by
  induction l using List.reverseRecOn with
  | nil => exact ⟨[], nofun, rfl, rfl⟩
  | append_singleton l a ih =>
    have hmem {b : α} (hb : b ∈ l) : b ∈ l ++ [a] := List.mem_append_left _ hb
    obtain ⟨firsts, hfirsts, hf, hg⟩ := ih fun b hb c hc => h b (hmem hb) c (hmem hc)
    have hseen : f a ∈ l.map f ↔ g a ∈ l.map g := by
      rw [List.mem_map, List.mem_map]
      exact exists_congr fun b => and_congr_right fun hb =>
        h b (hmem hb) a (List.mem_append_right _ List.mem_cons_self)
    rw [List.map_append, List.map_append, List.map_singleton, List.map_singleton,
      Partition.eraseDups_append_singleton, Partition.eraseDups_append_singleton]
    by_cases hnew : f a ∈ l.map f
    · rw [if_pos hnew, if_pos (hseen.mp hnew)]
      exact ⟨firsts, fun b hb => hmem (hfirsts b hb), hf, hg⟩
    · rw [if_neg hnew, if_neg (mt hseen.mpr hnew)]
      refine ⟨firsts ++ [a], fun b hb => ?_, by simp [hf], by simp [hg]⟩
      rcases List.mem_append.mp hb with hb | hb
      · exact hmem (hfirsts b hb)
      · exact List.mem_append_right _ hb

/-- **The groups depend on which records have one tuple**, not on what the tuples are. -/
theorem Transformation.partition_congr {t t' : Transformation} {records : List Record}
    (h : ∀ a ∈ records, ∀ b ∈ records, t'.tuple a = t'.tuple b ↔ t.tuple a = t.tuple b) :
    t'.partition records = t.partition records := by
  obtain ⟨firsts, hfirsts, h', hkeys⟩ := exists_firsts h
  rw [t'.partition_eq, t.partition_eq, h', hkeys, List.map_map, List.map_map]
  refine List.map_congr_left fun first hfirst => List.filter_congr fun r hr => ?_
  rw [Bool.eq_iff_iff, beq_iff_eq, beq_iff_eq]
  exact h r hr first (hfirsts first hfirst)

namespace Query

variable {view : CatalogView} {document document' v v' : Json} {q q' : Query}
  {t t' : Transformation} {id : String} {kind : Kind}

/-- Two records have one tuple just if none of the keys of GROUP tells them apart. -/
theorem tuple_eq_tuple_iff (hv : document.get? "TRANSFORMATIONS" = some v)
    (ht : SpellsTransformation id kind v t) {a b : Record} (ha : a.kind = kind)
    (hb : b.kind = kind) :
    t.tuple a = t.tuple b ↔ ∀ key ∈ groupKeys document,
      (a.named? key).map Scalar.identity = (b.named? key).map Scalar.identity := by
  have hsome {r : Record} (hr : r.kind = kind) :
      ∀ key ∈ groupKeys document, (r.named? key).map Scalar.identity ≠ none := by
    intro key hkey
    simpa using named?_ne_none_of_mem_groupKeys hv ht hr hkey
  rw [tuple_eq_tupleOf hv ht ha, tuple_eq_tupleOf hv ht hb]
  exact filterMap_eq_filterMap_iff (hsome ha) (hsome hb)

/-- GROUP in another order groups the records in the same way. -/
theorem partition_reordered (h : Reordered document document')
    (hv : document.get? "TRANSFORMATIONS" = some v) (ht : SpellsTransformation id kind v t)
    (hv' : document'.get? "TRANSFORMATIONS" = some v') (ht' : SpellsTransformation id kind v' t')
    {records : List Record} (hkind : ∀ r ∈ records, r.kind = kind) :
    t'.partition records = t.partition records := by
  refine Transformation.partition_congr fun a ha b hb => ?_
  rw [tuple_eq_tuple_iff hv' ht' (hkind a ha) (hkind b hb),
    tuple_eq_tuple_iff hv ht (hkind a ha) (hkind b hb)]
  exact forall_congr' fun key => imp_congr_left h.groupKeys_perm.mem_iff

/-! ### Rows -/

/-- What stands in a row under a key does not depend on the order of GROUP and APPLY. -/
theorem groupedValue_reordered (h : Reordered document document')
    (hv : document.get? "TRANSFORMATIONS" = some v) (ht : SpellsTransformation id kind v t)
    (members : List Record) (key : String) :
    groupedValue document' members key = groupedValue document members key := by
  have hnames : ((applyRules document).map NamedRule.name).Nodup := by
    rw [map_name_applyRules hv ht]
    exact ht.names
  have hrule : (applyRules document').find? (·.name == key) =
      (applyRules document).find? (·.name == key) := by
    refine (List.find?_eq_find?_of_perm h.applyRules_perm.symm ?_).symm
    rintro a ⟨ha, hak⟩ b ⟨hb, hbk⟩
    rw [beq_iff_eq] at hak hbk
    exact List.inj_on_of_nodup_map hnames ha hb (hak.trans hbk.symm)
  rw [groupedValue, groupedValue, hrule]
  simp only [h.groupKeys_perm.mem_iff]

/-- All rows are the same once they are narrowed to the columns. -/
theorem map_project_rows_reordered (h : Reordered document document')
    (hv : document.get? "TRANSFORMATIONS" = some v) (ht : SpellsTransformation id kind v t)
    (hv' : document'.get? "TRANSFORMATIONS" = some v') (ht' : SpellsTransformation id kind v' t')
    {columns : List String} (hcolumns : ∀ key ∈ columns, key ∈ columnNames t)
    (hcolumns' : ∀ key ∈ columns, key ∈ columnNames t')
    {records : List Record} (hkind : ∀ r ∈ records, r.kind = kind) :
    (t'.rows records).map (·.project columns) = (t.rows records).map (·.project columns) := by
  rw [Transformation.rows, Transformation.rows, partition_reordered h hv ht hv' ht' hkind,
    List.map_map, List.map_map]
  refine List.map_congr_left fun members hmembers => Row.project_congr fun key hkey => ?_
  obtain ⟨hne, hmem⟩ := Transformation.of_mem_partition hmembers
  have hkinds : ∀ r ∈ members, r.kind = kind := fun r hr => hkind r (hmem r hr)
  obtain ⟨x, hx, hrow⟩ := (gives_row hv ht hne hkinds hcolumns).given key hkey
  obtain ⟨x', hx', hrow'⟩ := (gives_row hv' ht' hne hkinds hcolumns').given key hkey
  rw [Row.get?_project, if_pos hkey] at hrow hrow'
  rw [groupedValue_reordered h hv ht, hx] at hx'
  rw [hrow, hrow', hx']

/-! ### Answers -/

theorem ordered_congr (h : q'.order = q.order) (rows : List Row) :
    q'.ordered rows = q.ordered rows := by
  rw [ordered, ordered, h]

/-- A query about records one by one does not look at what is reordered. -/
theorem rows_of_plain (ht : q.transformation = none) (ht' : q'.transformation = none)
    (hcolumns : q'.columns = q.columns) (horder : q'.order = q.order) (records : List Record) :
    (q'.rawRows records).length = (q.rawRows records).length ∧
      q'.projected (q'.ordered (q'.rawRows records)) =
        q.projected (q.ordered (q.rawRows records)) := by
  rw [projected, projected, rawRows, rawRows, ht, ht', hcolumns, ordered_congr horder]
  exact ⟨rfl, rfl⟩

theorem rows_of_groups (h : Reordered document document') (hq : Spells document q)
    (hq' : Spells document' q') (hdataset : q'.dataset = q.dataset) (hkind : q'.kind = q.kind)
    (horder : q'.order = q.order) (ht : q.transformation = some t)
    (ht' : q'.transformation = some t') {records : List Record}
    (hrecords : ∀ r ∈ records, r.kind = q.kind) :
    (q'.rawRows records).length = (q.rawRows records).length ∧
      q'.projected (q'.ordered (q'.rawRows records)) =
        q.projected (q.ordered (q.rawRows records)) := by
  obtain ⟨v, hv, hspells⟩ := exists_spellsTransformation hq ht
  obtain ⟨v', hv', hspells'⟩ := exists_spellsTransformation hq' ht'
  rw [hdataset, hkind] at hspells'
  have hcolumns' : ∀ key ∈ columnKeys document, key ∈ columnNames t' := fun key hkey =>
    mem_columnNames hq' ht' (h.columnKeys_eq ▸ hkey)
  have hrows := map_project_rows_reordered h hv hspells hv' hspells'
    (fun _ => mem_columnNames hq ht) hcolumns' hrecords
  have hraw : q.rawRows records = t.rows records := by
    rw [rawRows, ht]
  have hraw' : q'.rawRows records = t'.rows records := by
    rw [rawRows, ht']
  rw [projected_ordered hq ht, projected_ordered hq' ht', h.columnKeys_eq, hraw, hraw', hrows,
    ordered_congr horder]
  refine ⟨?_, rfl⟩
  simpa using congrArg List.length hrows

/-- **The order within clauses does not matter.**  A document that lists GROUP, APPLY or the parts
of the connectives in WHERE in another order is accepted as well, and if all patterns are well
formed it has the same answer: the same rows in the same order, or as many rows too many. -/
theorem answer_reordered (haccepted : ∃ q, ofJson view.kinds document = .ok q)
    (h : Reordered document document') :
    (∃ q, ofJson view.kinds document' = .ok q) ∧
      ((∀ p ∈ patternsOf document, Wildcard.WellFormed p) →
        view.answer document' = view.answer document ∧
          ((∃ answer, view.answer document = .ok answer) ∨
            ∃ rows, view.answer document = .error (.tooLarge rows))) := by
  obtain ⟨q, hq⟩ := haccepted
  obtain ⟨hkinds, hd⟩ := ofJson_eq_ok.mp hq
  obtain ⟨filter, transformation, hd'⟩ := h.exists_query hd
  have hq' : ofJson view.kinds document' =
      .ok { q with filter := filter, transformation := transformation } :=
    ofJson_eq_ok.mpr ⟨hkinds, hd'⟩
  refine ⟨⟨_, hq'⟩, fun hpatterns => ⟨?_, ?_⟩⟩
  · refine answer_eq_of_rows hq hq' rfl hpatterns
      (fun p hp => hpatterns p ((h.patternsOf_perm hd).mem_iff.mp hp)) fun store hkind => ?_
    rw [matching_congr fun r _ => h.matches_iff hd r]
    obtain ⟨-, hspells⟩ := spells_of_ofJson hq
    obtain ⟨-, hspells'⟩ := spells_of_ofJson hq'
    rcases ht : q.transformation with - | t
    · have hplain := h.get?_eq_none (get?_eq_none_of_transformation hspells ht)
      have ht' := transformation_eq_none hspells' hplain
      exact rows_of_plain ht ht' rfl rfl _
    · obtain ⟨v, hv, -⟩ := exists_spellsTransformation hspells ht
      obtain ⟨v', hv', -⟩ := h.exists_transformations hv
      rcases transformation with - | t'
      · rw [get?_eq_none_of_transformation hspells' rfl] at hv'
        cases hv'
      · exact rows_of_groups h hspells hspells' rfl rfl rfl ht rfl fun r hr =>
          (kind_of_mem_matching hr).trans hkind
  · obtain ⟨store, -, -, hanswer⟩ := answer_eq hq hpatterns
    rw [hanswer]
    split
    · exact .inr ⟨_, rfl⟩
    · exact .inl ⟨_, rfl⟩

/-- A document with lists of two in GROUP, in APPLY and in connectives one inside the other. -/
def sampleListed : Json :=
  .object [("WHERE", .object [("AND", .array [
      .object [("GT", .object [("ubc_avg", .ofInt 50)])],
      .object [("NOT", .object [("OR", .array [
        .object [("IS", .object [("ubc_title", .text "intro*")])],
        .object [("LT", .object [("ubc_pass", .ofInt 0)])]])])]])]),
    ("OPTIONS", .object [("COLUMNS", .array [.text "best", .text "ubc_dept"]),
      ("ORDER", .text "best")]),
    ("TRANSFORMATIONS", .object [("GROUP", .array [.text "ubc_dept", .text "ubc_year"]),
      ("APPLY", .array [.object [("best", .object [("MAX", .text "ubc_avg")])],
        .object [("size", .object [("COUNT", .text "ubc_uuid")])]])])]

/-- The same document with all of its lists but COLUMNS turned round. -/
def sampleRelisted : Json :=
  .object [("WHERE", .object [("AND", .array [
      .object [("NOT", .object [("OR", .array [
        .object [("LT", .object [("ubc_pass", .ofInt 0)])],
        .object [("IS", .object [("ubc_title", .text "intro*")])]])])],
      .object [("GT", .object [("ubc_avg", .ofInt 50)])]])]),
    ("OPTIONS", .object [("COLUMNS", .array [.text "best", .text "ubc_dept"]),
      ("ORDER", .text "best")]),
    ("TRANSFORMATIONS", .object [("GROUP", .array [.text "ubc_year", .text "ubc_dept"]),
      ("APPLY", .array [.object [("size", .object [("COUNT", .text "ubc_uuid")])],
        .object [("best", .object [("MAX", .text "ubc_avg")])]])])]

theorem reordered_sampleRelisted : Reordered sampleListed sampleRelisted := by
  have hor (v w : Json) : Json.Rearranged (.object [("OR", .array [v, w])])
      (.object [("OR", .array [w, v])]) :=
    .or (.cons (.refl v) (.cons (.refl w) .nil)) (.swap v w [])
  refine ⟨_, _, rfl, rfl, .cons ⟨rfl, (if_pos rfl).mpr ?_⟩ (.cons ⟨rfl, rfl⟩
    (.cons ⟨rfl, ?_⟩ .nil))⟩
  · exact .and (.cons (.refl _) (.cons (.not (hor _ _)) .nil)) (.swap _ _ _)
  · exact ⟨_, _, rfl, rfl, .cons ⟨rfl, _, _, rfl, rfl, .swap _ _ _⟩
      (.cons ⟨rfl, _, _, rfl, rfl, .swap _ _ _⟩ .nil)⟩

theorem answer_reordered_sample :
    (∃ q, ofJson sampleView.kinds sampleListed = .ok q) ∧
      Reordered sampleListed sampleRelisted ∧
      (∃ q, ofJson sampleView.kinds sampleRelisted = .ok q) ∧
      (∀ p ∈ patternsOf sampleListed, Wildcard.WellFormed p) ∧
      sampleView.answer sampleRelisted = sampleView.answer sampleListed ∧
      ((∃ answer, sampleView.answer sampleListed = .ok answer) ∨
        ∃ rows, sampleView.answer sampleListed = .error (.tooLarge rows)) := by
  have haccepted : ∃ q, ofJson sampleView.kinds sampleListed = .ok q :=
    exists_of_isOk (by decide +kernel)
  have hpatterns : ∀ p ∈ patternsOf sampleListed, Wildcard.WellFormed p := by
    have hlist : patternsOf sampleListed = ["intro*"] := by
      simp [patternsOf, sampleListed, Json.get?, Json.patterns]
    rw [hlist]
    decide
  obtain ⟨haccepted', hanswer⟩ := answer_reordered haccepted reordered_sampleRelisted
  exact ⟨haccepted, reordered_sampleRelisted, haccepted', hpatterns, hanswer hpatterns⟩

end Query

end CampusQuery
