/-
CampusQuery/Proofs/Query/Accepted.lean

What an accepted document has in common with the query it is read as.

An accepted document is one of the grammar.  From that, `spells_of_ofJson` reads off what the
answers to queries depend on: columns, order, groups and rules of the query are those that the
document lists, all keys name fields of the one dataset, and the filter of the query holds of a
record exactly when the record satisfies WHERE.
-/
import CampusQuery.Proofs.Filter.Holds
import CampusQuery.Proofs.Query.Documents
import CampusQuery.Proofs.Query.Meaning

namespace CampusQuery.Query

variable {kinds : String → Option Kind}

/-! ### Keys and records -/

/-- A key that names a field gives the value of that field. -/
theorem Names.named? {id key : String} {field : Field} {r : Record}
    (h : Names id r.kind key field) : r.named? key = r.value? field := by
  obtain ⟨name, hkey, hfield⟩ := h
  simp [Record.named?, hkey, hfield]

/-- Records have values in all fields of their kind. -/
theorem value?_ne_none {r : Record} {name : String} {field : Field}
    (h : Field.ofName? r.kind name = some field) : r.value? field ≠ none := by
  have hmem : field ∈ Field.ofKind r.kind := List.mem_of_find?_eq_some h
  rcases r with s | r <;>
    (simp only [Record.kind, Field.ofKind, List.mem_cons, List.not_mem_nil, or_false] at hmem
     rcases hmem with rfl | rfl | rfl | rfl | rfl | rfl | rfl | rfl | rfl | rfl | rfl) <;>
    simp [Record.value?, Section.value?, Room.value?]

/-! ### TRANSFORMATIONS -/

/-- A rule of a query is the rule that the document spells. -/
structure Applies (id : String) (kind : Kind) (n : NamedRule) (rule : ApplyRule) : Prop where
  name : n.name = rule.name
  aggregate : n.aggregate = rule.aggregate
  field : Names id kind n.key rule.field
  numeric : rule.aggregate.needsNumbers = true → rule.field.isNumeric = true

theorem exists_applies {id : String} {kind : Kind} {v : Json} {rule : ApplyRule}
    (h : Grammar.Rule id kind v rule) :
    ∃ n, NamedRule.ofJson? v = some n ∧ Applies id kind n rule := by
  obtain ⟨⟨key, rfl, hnames⟩, hnumeric, -⟩ := h
  refine ⟨⟨rule.name, rule.aggregate, key⟩, ?_, rfl, rfl, hnames, hnumeric⟩
  rw [NamedRule.ofJson?, ofToken?_eq_some_iff.mpr rfl, Option.map_some]

theorem forall₂_applies {id : String} {kind : Kind} {items : List Json} {rules : List ApplyRule}
    (h : List.Forall₂ (Grammar.Rule id kind) items rules) :
    List.Forall₂ (Applies id kind) (items.filterMap NamedRule.ofJson?) rules := by
  induction h with
  | nil => exact .nil
  | cons hrule _ ih =>
    obtain ⟨n, hn, happlies⟩ := exists_applies hrule
    rw [List.filterMap_cons_some hn]
    exact .cons happlies ih

/-- The transformation of a query is the one that the document spells. -/
structure SpellsTransformation (id : String) (kind : Kind) (v : Json) (t : Transformation) :
    Prop where
  keys : ((v.get? "GROUP").map Json.texts).getD [] = t.group.map GroupKey.key
  group : ∀ g ∈ t.group, Names id kind g.key g.field
  apply : List.Forall₂ (Applies id kind)
    ((((v.get? "APPLY").bind Json.items?).getD []).filterMap NamedRule.ofJson?) t.apply
  names : (t.apply.map ApplyRule.name).Nodup
  fresh : ∀ rule ∈ t.apply, rule.name ∉ t.group.map GroupKey.key

theorem spellsTransformation {id : String} {kind : Kind} {v : Json} {t : Transformation}
    (h : Grammar.Transformed id kind v t) : SpellsTransformation id kind v t := by
  have hfresh : ∀ rule ∈ t.apply, rule.name ∉ t.group.map GroupKey.key :=
    fun rule hrule => h.not_mem_group hrule
  obtain ⟨-, ⟨g, hg, hgroup⟩, a, ha, ⟨items, rfl, hall⟩, hnodup⟩ := h
  refine ⟨?_, hgroup.names, ?_, hnodup, hfresh⟩
  · rw [hg, hgroup.items]
    exact texts_map _ _
  · rw [ha]
    exact forall₂_applies hall

/-! ### ORDER -/

theorem spelledOrder_eq {columns : List String} {v : Json} {o : Order}
    (h : Grammar.Sorting columns v o) :
    spelledOrder v = o ∧ ∀ key ∈ o.keys, key ∈ columns := by
  cases h with
  | single hmem => exact ⟨rfl, by simpa using hmem⟩
  | @directed _ direction keys hmembers hdir hkeys _ hall =>
    refine ⟨?_, hall⟩
    obtain ⟨members, rfl, -⟩ := hmembers
    have hdirection : (if direction.name = "DOWN" then Direction.down else .up) = direction := by
      cases direction <;> rfl
    rw [spelledOrder, hdir, hkeys, Option.map_some, Option.getD_some]
    · simp only [Option.bind_some, Json.text?, Option.some.injEq, hdirection]
      rw [texts_map, List.map_id']
    · simp

/-! ### WHERE -/

/-- The filter is the one that the value spells: it holds of the same records of the
kind, and has the same patterns. -/
def Translates (kind : Kind) (v : Json) (f : Filter) : Prop :=
  (∀ r : Record, r.kind = kind → (f.Holds r ↔ r.Satisfies v)) ∧ f.patterns = v.patterns

theorem translates_compare {id : String} {kind : Kind} {key : String} {field : Field}
    (h : Names id kind key field) (relation : Comparison) (n : Json.Number) :
    Translates kind (.object [(relation.tag, .object [(key, .number n)])])
      (.compare relation field n.toBinary64) := by
  constructor
  · -- a comparison has none of the tags of the connectives
    rintro r rfl
    rw [Filter.Holds, Record.satisfies_leaf (by cases relation <;> simp [Comparison.tag])]
    unfold Record.Compares
    rw [h.named?]
    rcases r.value? field with - | x | x
    · simp
    · cases relation <;> simp [Comparison.tag, Comparison.holds]
    · cases relation <;> simp
  · cases relation <;> simp [Filter.patterns, Json.patterns, Comparison.tag]

theorem translates_like {id : String} {kind : Kind} {key : String} {field : Field}
    (h : Names id kind key field) (pattern : String) :
    Translates kind (.object [("IS", .object [(key, .text pattern)])]) (.like field pattern) := by
  constructor
  · rintro r rfl
    rw [Filter.Holds, Record.satisfies_leaf (by simp)]
    unfold Record.Compares
    rw [h.named?]
    rcases r.value? field with - | x | x <;> simp
  · simp [Filter.patterns, Json.patterns]

theorem translates_parts {kind : Kind} {items : List Json} {parts : List Filter}
    (h : List.Forall₂ (Translates kind) items parts) :
    (∀ r : Record, r.kind = kind →
      ((∀ f ∈ parts, f.Holds r) ↔ ∀ v ∈ items, r.Satisfies v) ∧
        ((∃ f, ∃ _ : f ∈ parts, f.Holds r) ↔ ∃ v, ∃ _ : v ∈ items, r.Satisfies v)) ∧
      parts.flatMap Filter.patterns = items.flatMap Json.patterns := by
  induction h with
  | nil => simp
  | cons hf _ ih =>
    refine ⟨fun r hr => ?_, ?_⟩
    · have hall := (ih.1 r hr).1
      have hany := (ih.1 r hr).2
      simp only [exists_prop] at hany ⊢
      simp [hf.1 r hr, hall, hany]
    · rw [List.flatMap_cons, List.flatMap_cons, hf.2, ih.2]

mutual

/-- The filter that a condition stands for holds of the records that satisfy it. -/
theorem translates_condition {id : String} {kind : Kind} {v : Json} (f : Filter)
    (h : Grammar.Condition id kind v f) : Translates kind v f := by
  match f, h with
  | .and parts, .and _ h =>
    obtain ⟨hparts, hpatterns⟩ := translates_parts (translates_conditions parts h)
    refine ⟨fun r hr => ?_, ?_⟩
    · rw [Filter.Holds, Record.Satisfies]
      exact (hparts r hr).1
    · rw [Filter.patterns, Json.patterns, hpatterns]
  | .or parts, .or _ h =>
    obtain ⟨hparts, hpatterns⟩ := translates_parts (translates_conditions parts h)
    refine ⟨fun r hr => ?_, ?_⟩
    · rw [Filter.Holds, Record.Satisfies]
      exact (hparts r hr).2
    · rw [Filter.patterns, Json.patterns, hpatterns]
  | .not f, .not h =>
    obtain ⟨hholds, hpatterns⟩ := translates_condition f h
    refine ⟨fun r hr => ?_, ?_⟩
    · rw [Filter.Holds, Record.Satisfies, hholds r hr]
    · rw [Filter.patterns, Json.patterns, hpatterns]
  | .compare _ _ _, .compare relation hnames _ => exact translates_compare hnames relation _
  | .like _ pattern, .like hnames _ => exact translates_like hnames pattern

/-- The same for the parts of a conjunction or disjunction. -/
theorem translates_conditions {id : String} {kind : Kind} {items : List Json}
    (parts : List Filter) (h : List.Forall₂ (Grammar.Condition id kind) items parts) :
    List.Forall₂ (Translates kind) items parts := by
  match parts, h with
  | [], .nil => exact .nil
  | f :: parts, .cons h hrest =>
    exact .cons (translates_condition f h) (translates_conditions parts hrest)

end

/-- The same for WHERE, where an empty one is no filter. -/
theorem translates_where {id : String} {kind : Kind} {document v : Json} {filter : Option Filter}
    (h : document.get? "WHERE" = some v) (hw : Grammar.Where id kind v filter) :
    (∀ r : Record, r.kind = kind → ((∀ f ∈ filter, f.Holds r) ↔ Matches document r)) ∧
      ∀ f ∈ filter, f.patterns = patternsOf document := by
  cases hw with
  | empty =>
    refine ⟨fun r _ => ?_, by simp⟩
    simp [Matches, h]
  | @condition _ f hf =>
    obtain ⟨hholds, hpatterns⟩ := translates_condition f hf
    have hobject : v ≠ .object [] := by
      rintro rfl
      cases hf
    refine ⟨fun r hr => ?_, ?_⟩
    · simp only [Option.mem_def, Option.some.injEq, forall_eq', hholds r hr, Matches, h, hobject,
        false_or, exists_eq_left']
    · intro g hg
      cases hg
      rw [hpatterns, patternsOf, h, Option.map_some, Option.getD_some]

/-! ### Documents -/

/-- The query is the one that the document spells. -/
structure Spells (document : Json) (q : Query) : Prop where
  keys : columnKeys document = q.columns.map Column.key
  columns_ne_nil : q.columns ≠ []
  columns : ∀ c ∈ q.columns, ColumnFits q.dataset q.kind q.transformation c
  order : orderOf document = q.order
  orderKeys : ∀ o ∈ q.order, ∀ key ∈ o.keys, key ∈ columnKeys document
  holds_iff : ∀ r : Record, r.kind = q.kind → ((∀ f ∈ q.filter, f.Holds r) ↔ Matches document r)
  patterns : ∀ f ∈ q.filter, f.patterns = patternsOf document
  transformation : Option.Rel (SpellsTransformation q.dataset q.kind)
    (document.get? "TRANSFORMATIONS") q.transformation

/-- **An accepted document and its query say the same**, and the query's dataset is
registered. -/
theorem spells_of_ofJson {document : Json} {q : Query} (h : ofJson kinds document = .ok q) :
    kinds q.dataset = some q.kind ∧ Spells document q := by
  obtain ⟨hkind, hdocument⟩ := ofJson_eq_ok.mp h
  refine ⟨hkind, ?_⟩
  obtain ⟨-, ht, ⟨o, ho, hoptions⟩, v, hv, hw⟩ := hdocument
  obtain ⟨-, ⟨c, hc, hcolumns⟩, hordered⟩ := hoptions
  obtain ⟨hholds, hpatterns⟩ := translates_where hv hw
  have hkeys : columnKeys document = q.columns.map Column.key := by
    rw [columnKeys, ho, Option.bind_some, hc, hcolumns.items]
    exact texts_map _ _
  have horder : orderOf document = q.order ∧
      ∀ o ∈ q.order, ∀ key ∈ o.keys, key ∈ columnKeys document := by
    rw [orderOf, ho, Option.bind_some, hkeys]
    generalize o.get? "ORDER" = v, q.order = order at hordered
    cases hordered with
    | none => simp
    | some h =>
      obtain ⟨rfl, hmem⟩ := spelledOrder_eq h
      exact ⟨rfl, by simpa using hmem⟩
  have htransformation : Option.Rel (SpellsTransformation q.dataset q.kind)
      (document.get? "TRANSFORMATIONS") q.transformation := by
    generalize document.get? "TRANSFORMATIONS" = v, q.transformation = t at ht
    cases ht with
    | none => exact .none
    | some h => exact .some (spellsTransformation h)
  exact ⟨hkeys, hcolumns.ne_nil, hcolumns.fits, horder.1, horder.2, hholds, hpatterns,
    htransformation⟩

end CampusQuery.Query
