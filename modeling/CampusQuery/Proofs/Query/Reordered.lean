/-
CampusQuery/Proofs/Query/Reordered.lean

Documents that differ in the order within clauses only.

GROUP and APPLY may list their items in another order, and so may each AND and OR at any depth of
WHERE (`Query.Reordered`).  None of that matters for whether a document is accepted
(`Reordered.document`): duplicate names, the one dataset and the columns that may be used depend on
what is listed, not on where.  Nor does it matter for which records satisfy WHERE
(`Reordered.matches_iff`).
-/
import Mathlib.Data.List.Perm.Basic
import CampusQuery.Proofs.Query.Accepted

namespace CampusQuery

namespace Json

/-! ### Values in another order -/

/-- Objects with the same keys in the same places, whose values are related key by key. -/
def Memberwise (R : String → Json → Json → Prop) (v v' : Json) : Prop :=
  ∃ members members', v = .object members ∧ v' = .object members' ∧
    List.Forall₂ (fun m m' => m'.1 = m.1 ∧ R m.1 m.2 m'.2) members members'

/-- Arrays of the same items in perhaps another order. -/
def Shuffled (v v' : Json) : Prop :=
  ∃ items items', v = .array items ∧ v' = .array items' ∧ items'.Perm items

/-- Conditions with the parts of the connectives in perhaps another order, at any depth. -/
inductive Rearranged : Json → Json → Prop
  | refl (v) : Rearranged v v
  | and {items arranged items'} : List.Forall₂ Rearranged items arranged → items'.Perm arranged →
      Rearranged (.object [("AND", .array items)]) (.object [("AND", .array items')])
  | or {items arranged items'} : List.Forall₂ Rearranged items arranged → items'.Perm arranged →
      Rearranged (.object [("OR", .array items)]) (.object [("OR", .array items')])
  | not {v v'} : Rearranged v v' → Rearranged (.object [("NOT", v)]) (.object [("NOT", v')])

/-- TRANSFORMATIONS with GROUP and APPLY in perhaps another order. -/
def ShuffledGroups : Json → Json → Prop := Memberwise fun _ => Shuffled

variable {R : String → Json → Json → Prop} {v v' : Json}

theorem Memberwise.get? (h : Memberwise R v v') (key : String) :
    Option.Rel (R key) (v.get? key) (v'.get? key) := by
  obtain ⟨members, members', rfl, rfl, hall⟩ := h
  induction hall with
  | nil => exact .none
  | @cons m m' members members' hm _ ih =>
    obtain ⟨k, x⟩ := m
    obtain ⟨k', x'⟩ := m'
    obtain ⟨rfl, hx⟩ := hm
    rw [Query.get?_object_cons, Query.get?_object_cons]
    split
    · rename_i hk
      exact hk ▸ .some hx
    · exact ih

theorem Memberwise.exists_get? (h : Memberwise R v v') {key : String} {x : Json}
    (hx : v.get? key = some x) : ∃ x', v'.get? key = some x' ∧ R key x x' := by
  have hrel := h.get? key
  rw [hx] at hrel
  rcases hx' : v'.get? key with - | x'
  · rw [hx'] at hrel
    cases hrel
  · rw [hx', Option.rel_some_some] at hrel
    exact ⟨x', rfl, hrel⟩

theorem Memberwise.get?_eq_none (h : Memberwise R v v') {key : String} (hx : v.get? key = none) :
    v'.get? key = none := by
  have hrel := h.get? key
  rw [hx] at hrel
  rcases hx' : v'.get? key with - | x'
  · rfl
  · rw [hx'] at hrel
    cases hrel

theorem Memberwise.exists_members {members : List (String × Json)}
    (h : Memberwise R (.object members) v') :
    ∃ members', v' = .object members' ∧ members'.map Prod.fst = members.map Prod.fst := by
  obtain ⟨_, members', e, rfl, hall⟩ := h
  cases e
  refine ⟨members', rfl, ?_⟩
  rw [← List.forall₂_eq_eq_eq, List.forall₂_map_left_iff, List.forall₂_map_right_iff]
  exact hall.flip.imp fun _ _ => And.left

theorem Memberwise.hasExactly (h : Memberwise R v v') {keys : List String}
    (hkeys : Query.Grammar.HasExactly keys v) : Query.Grammar.HasExactly keys v' := by
  obtain ⟨members, rfl, hperm⟩ := hkeys
  obtain ⟨members', rfl, hsame⟩ := h.exists_members
  exact ⟨members', rfl, hsame ▸ hperm⟩

/-- The forms of a condition in another order, by its tag. -/
theorem Rearranged.of_tag {tag : String} {body : Json} (h : Rearranged (.object [(tag, body)]) v') :
    v' = .object [(tag, body)] ∨
      (tag = "AND" ∨ tag = "OR") ∧ (∃ items arranged items', body = .array items ∧
        v' = .object [(tag, .array items')] ∧ List.Forall₂ Rearranged items arranged ∧
        items'.Perm arranged) ∨
      tag = "NOT" ∧ ∃ inner, v' = .object [(tag, inner)] ∧ Rearranged body inner := by
  cases h with
  | refl => exact .inl rfl
  | and hall hperm => exact .inr (.inl ⟨.inl rfl, _, _, _, rfl, rfl, hall, hperm⟩)
  | or hall hperm => exact .inr (.inl ⟨.inr rfl, _, _, _, rfl, rfl, hall, hperm⟩)
  | not h => exact .inr (.inr ⟨rfl, _, rfl, h⟩)

end Json

namespace Query

/-- Documents with GROUP, APPLY and the connectives of WHERE in perhaps another order. -/
def Reordered : Json → Json → Prop :=
  Json.Memberwise fun key v v' =>
    if key = "WHERE" then Json.Rearranged v v'
    else if key = "TRANSFORMATIONS" then Json.ShuffledGroups v v'
    else v' = v

variable {id : String} {kind : Kind} {v v' : Json}

/-! ### Conditions -/

/-- The second condition is one of the grammar if the first is, and says the same. -/
structure SaysSame (id : String) (kind : Kind) (v v' : Json) : Prop where
  condition : ∃ f, Grammar.Condition id kind v' f
  satisfies : ∀ r : Record, r.Satisfies v' ↔ r.Satisfies v
  patterns : v'.patterns.Perm v.patterns

theorem saysSame_refl {f : Filter} (h : Grammar.Condition id kind v f) : SaysSame id kind v v :=
  ⟨⟨f, h⟩, fun _ => Iff.rfl, .refl _⟩

/-- The parts of a connective say the same in whatever order they stand. -/
structure SayAllSame (id : String) (kind : Kind) (items items' : List Json) : Prop where
  conditions : ∃ parts, List.Forall₂ (Grammar.Condition id kind) items' parts
  length : items'.length = items.length
  all : ∀ r : Record, (∀ v ∈ items', r.Satisfies v) ↔ ∀ v ∈ items, r.Satisfies v
  any : ∀ r : Record, (∃ v ∈ items', r.Satisfies v) ↔ ∃ v ∈ items, r.Satisfies v
  patterns : (items'.flatMap Json.patterns).Perm (items.flatMap Json.patterns)

theorem sayAllSame_of_forall₂ {items arranged : List Json}
    (h : List.Forall₂ (SaysSame id kind) items arranged) : SayAllSame id kind items arranged := by
  induction h with
  | nil => exact ⟨⟨[], .nil⟩, rfl, fun _ => Iff.rfl, fun _ => Iff.rfl, .refl _⟩
  | cons hfirst _ ih =>
    obtain ⟨f, hf⟩ := hfirst.condition
    obtain ⟨parts, hparts⟩ := ih.conditions
    refine ⟨⟨f :: parts, .cons hf hparts⟩, by simp [ih.length], fun r => ?_, fun r => ?_, ?_⟩
    · rw [List.forall_mem_cons, List.forall_mem_cons, hfirst.satisfies, ih.all]
    · rw [List.exists_mem_cons_iff, List.exists_mem_cons_iff, hfirst.satisfies, ih.any]
    · rw [List.flatMap_cons, List.flatMap_cons]
      exact hfirst.patterns.append ih.patterns

theorem SayAllSame.perm {items arranged items' : List Json} (h : SayAllSame id kind items arranged)
    (hperm : items'.Perm arranged) : SayAllSame id kind items items' := by
  obtain ⟨parts, hparts⟩ := h.conditions
  obtain ⟨parts', hparts', -⟩ := List.perm_comp_forall₂ hperm hparts
  refine ⟨⟨parts', hparts'⟩, hperm.length_eq.trans h.length, fun r => ?_, fun r => ?_,
    (hperm.flatMap_right _).trans h.patterns⟩
  · rw [← h.all]
    exact forall_congr' fun v => imp_congr_left hperm.mem_iff
  · rw [← h.any]
    exact exists_congr fun v => and_congr_left' hperm.mem_iff

theorem saysSame_and {items items' : List Json} (hne : items ≠ [])
    (h : SayAllSame id kind items items') :
    SaysSame id kind (.object [("AND", .array items)]) (.object [("AND", .array items')]) := by
  obtain ⟨parts, hparts⟩ := h.conditions
  refine ⟨⟨_, .and ?_ hparts⟩, fun r => ?_, ?_⟩
  · rwa [ne_eq, ← List.length_eq_zero_iff, h.length, List.length_eq_zero_iff]
  · rw [Record.Satisfies, Record.Satisfies]
    exact h.all r
  · rw [Json.patterns, Json.patterns]
    exact h.patterns

theorem saysSame_or {items items' : List Json} (hne : items ≠ [])
    (h : SayAllSame id kind items items') :
    SaysSame id kind (.object [("OR", .array items)]) (.object [("OR", .array items')]) := by
  obtain ⟨parts, hparts⟩ := h.conditions
  refine ⟨⟨_, .or ?_ hparts⟩, fun r => ?_, ?_⟩
  · rwa [ne_eq, ← List.length_eq_zero_iff, h.length, List.length_eq_zero_iff]
  · rw [Record.Satisfies, Record.Satisfies]
    simpa only [exists_prop] using h.any r
  · rw [Json.patterns, Json.patterns]
    exact h.patterns

theorem saysSame_not (h : SaysSame id kind v v') :
    SaysSame id kind (.object [("NOT", v)]) (.object [("NOT", v')]) := by
  obtain ⟨f, hf⟩ := h.condition
  refine ⟨⟨_, .not hf⟩, fun r => ?_, ?_⟩
  · rw [Record.Satisfies, Record.Satisfies, h.satisfies]
  · rw [Json.patterns, Json.patterns]
    exact h.patterns

/-- A comparison has no parts that could change places. -/
theorem eq_of_rearranged_leaf {tag : String} {members : List (String × Json)} (htag : tag ≠ "NOT")
    (h : Json.Rearranged (.object [(tag, .object members)]) v') :
    v' = .object [(tag, .object members)] := by
  rcases h.of_tag with h | ⟨-, items, _, _, e, -⟩ | ⟨hnot, -⟩
  · exact h
  · cases e
  · exact absurd hnot htag

mutual

/-- A condition in another order says the same. -/
theorem saysSame_of_rearranged {v v' : Json} (condition : Filter)
    (h : Grammar.Condition id kind v condition) (hr : Json.Rearranged v v') :
    SaysSame id kind v v' := by
  match condition, h with
  | .and parts, .and hne h =>
    rcases hr.of_tag with rfl | ⟨-, items, arranged, items', e, rfl, hall, hperm⟩ | ⟨htag, -⟩
    · exact saysSame_refl (.and hne h)
    · cases e
      exact saysSame_and hne ((sayAllSame_of_forall₂ (saysSame_of_forall₂ parts h hall)).perm hperm)
    · exact absurd htag (by decide)
  | .or parts, .or hne h =>
    rcases hr.of_tag with rfl | ⟨-, items, arranged, items', e, rfl, hall, hperm⟩ | ⟨htag, -⟩
    · exact saysSame_refl (.or hne h)
    · cases e
      exact saysSame_or hne ((sayAllSame_of_forall₂ (saysSame_of_forall₂ parts h hall)).perm hperm)
    · exact absurd htag (by decide)
  | .not inner, .not h =>
    rcases hr.of_tag with rfl | ⟨htag, -⟩ | ⟨-, inner', rfl, hinner⟩
    · exact saysSame_refl (.not h)
    · exact absurd htag (by decide)
    · exact saysSame_not (saysSame_of_rearranged inner h hinner)
  | .compare _ _ _, .compare relation hnames hnumeric =>
    obtain rfl := eq_of_rearranged_leaf (tag_ne relation).2.2.1.symm hr
    exact saysSame_refl (.compare relation hnames hnumeric)
  | .like _ _, .like hnames htext =>
    obtain rfl := eq_of_rearranged_leaf (by decide) hr
    exact saysSame_refl (.like hnames htext)

/-- The same for the parts of a connective, before they change places. -/
theorem saysSame_of_forall₂ {items arranged : List Json} (parts : List Filter)
    (h : List.Forall₂ (Grammar.Condition id kind) items parts)
    (hr : List.Forall₂ Json.Rearranged items arranged) :
    List.Forall₂ (SaysSame id kind) items arranged := by
  match parts, h, hr with
  | [], .nil, .nil => exact .nil
  | part :: parts, .cons h hrest, .cons hr hrs =>
    exact .cons (saysSame_of_rearranged part h hr) (saysSame_of_forall₂ parts hrest hrs)

end

/-- WHERE in another order says the same. -/
theorem saysSame_where {filter : Option Filter} (h : Grammar.Where id kind v filter)
    (hr : Json.Rearranged v v') :
    (∃ filter', Grammar.Where id kind v' filter') ∧
      (∀ r : Record, (v' = .object [] ∨ r.Satisfies v') ↔ (v = .object [] ∨ r.Satisfies v)) ∧
      v'.patterns.Perm v.patterns := by
  cases h with
  | empty =>
    cases hr
    exact ⟨⟨none, .empty⟩, fun _ => Iff.rfl, .refl _⟩
  | @condition _ f h =>
    obtain ⟨⟨f', hf'⟩, hsatisfies, hpatterns⟩ := saysSame_of_rearranged f h hr
    have hne {w : Json} {g : Filter} (hw : Grammar.Condition id kind w g) : w ≠ .object [] := by
      rintro rfl
      cases hw
    refine ⟨⟨_, .condition hf'⟩, fun r => ?_, hpatterns⟩
    rw [or_iff_right (hne h), or_iff_right (hne hf'), hsatisfies]

/-! ### TRANSFORMATIONS -/

theorem Grammar.Group.shuffled {group : List GroupKey} (h : Grammar.Group id kind v group)
    (hs : Json.Shuffled v v') :
    ∃ group', Grammar.Group id kind v' group' ∧ group'.Perm group := by
  obtain ⟨rfl, hne, hnames⟩ := h
  obtain ⟨_, items', e, rfl, hperm⟩ := hs
  cases e
  have hspelled : List.Forall₂ (fun v (g : GroupKey) => v = Json.text g.key)
      (group.map fun g => Json.text g.key) group :=
    List.forall₂_map_left_iff.mpr (List.forall₂_same.mpr fun _ _ => rfl)
  obtain ⟨group', hspelled', hgroup⟩ := List.perm_comp_forall₂ hperm hspelled
  refine ⟨group', ⟨?_, ?_, fun g hg => hnames g (hgroup.mem_iff.mp hg)⟩, hgroup⟩
  · rw [← List.forall₂_map_right_iff, List.forall₂_eq_eq_eq] at hspelled'
    rw [hspelled']
  · rintro rfl
    exact hne hgroup.nil_eq.symm

theorem Grammar.Apply.shuffled {rules : List ApplyRule} (h : Grammar.Apply id kind v rules)
    (hs : Json.Shuffled v v') :
    ∃ rules', Grammar.Apply id kind v' rules' ∧ rules'.Perm rules := by
  obtain ⟨⟨items, rfl, hall⟩, hdistinct⟩ := h
  obtain ⟨_, items', e, rfl, hperm⟩ := hs
  cases e
  obtain ⟨rules', hall', hrules⟩ := List.perm_comp_forall₂ hperm hall
  exact ⟨rules', ⟨⟨items', rfl, hall'⟩, (hrules.map _).nodup_iff.mpr hdistinct⟩, hrules⟩

/-- TRANSFORMATIONS in another order spells the keys and rules in another order. -/
theorem Grammar.Transformed.shuffled {t : Transformation} (h : Grammar.Transformed id kind v t)
    (hs : Json.ShuffledGroups v v') :
    ∃ t', Grammar.Transformed id kind v' t' ∧ t'.group.Perm t.group ∧ t'.apply.Perm t.apply := by
  obtain ⟨hmembers, ⟨g, hg, hgroup⟩, a, ha, happly⟩ := h
  obtain ⟨g', hg', hshuffledGroup⟩ := hs.exists_get? hg
  obtain ⟨a', ha', hshuffledApply⟩ := hs.exists_get? ha
  obtain ⟨group, hgroup', hpermGroup⟩ := hgroup.shuffled hshuffledGroup
  obtain ⟨rules, happly', hpermApply⟩ := happly.shuffled hshuffledApply
  exact ⟨⟨group, rules⟩, ⟨hs.hasExactly hmembers, ⟨g', hg', hgroup'⟩, a', ha', happly'⟩,
    hpermGroup, hpermApply⟩

/-! ### Documents -/

variable {document document' : Json} {q : Query}

theorem columnNames_perm {t t' : Transformation} (hgroup : t'.group.Perm t.group)
    (happly : t'.apply.Perm t.apply) : (columnNames t').Perm (columnNames t) :=
  (hgroup.map _).append (happly.map _)

/-- The columns may use the same names. -/
theorem Grammar.Options.congr {t t' : Option Transformation} {columns : List Column}
    {order : Option Order} (h : Grammar.Options id kind t v columns order)
    (hfits : ∀ c ∈ columns, ColumnFits id kind t c → ColumnFits id kind t' c) :
    Grammar.Options id kind t' v columns order := by
  obtain ⟨hmembers, ⟨c, hc, hitems, hne, hcolumns⟩, hordered⟩ := h
  exact ⟨hmembers, ⟨c, hc, hitems, hne, fun c hc => hfits c hc (hcolumns c hc)⟩, hordered⟩

namespace Reordered

theorem exists_where (h : Reordered document document') (hv : document.get? "WHERE" = some v) :
    ∃ v', document'.get? "WHERE" = some v' ∧ Json.Rearranged v v' := by
  obtain ⟨v', hv', hr⟩ := h.exists_get? hv
  rw [if_pos rfl] at hr
  exact ⟨v', hv', hr⟩

theorem exists_transformations (h : Reordered document document')
    (hv : document.get? "TRANSFORMATIONS" = some v) :
    ∃ v', document'.get? "TRANSFORMATIONS" = some v' ∧ Json.ShuffledGroups v v' := by
  obtain ⟨v', hv', hr⟩ := h.exists_get? hv
  rw [if_neg (by decide), if_pos rfl] at hr
  exact ⟨v', hv', hr⟩

theorem get?_options (h : Reordered document document') :
    document'.get? "OPTIONS" = document.get? "OPTIONS" := by
  rcases hv : document.get? "OPTIONS" with - | v
  · exact h.get?_eq_none hv
  · obtain ⟨v', hv', hr⟩ := h.exists_get? hv
    rw [if_neg (by decide), if_neg (by decide)] at hr
    rw [hv', hr]

/-- **A document in another order is one of the grammar as well**, with the same columns and the
same order of rows. -/
theorem exists_query (h : Reordered document document') (hd : Grammar.Document document q) :
    ∃ filter transformation, Grammar.Document document'
      { q with filter := filter, transformation := transformation } := by
  obtain ⟨o, ho, hoptions⟩ := hd.options
  obtain ⟨w, hw, hwhere⟩ := hd.filter
  obtain ⟨members, rfl, hclauses⟩ := hd.members
  obtain ⟨members', rfl, hkeys⟩ := Json.Memberwise.exists_members h
  have hclauses' : ∀ m ∈ members', m.1 ∈ clauses := by
    intro m hm
    have hmem : m.1 ∈ members.map Prod.fst := hkeys ▸ List.mem_map_of_mem hm
    obtain ⟨m', hm', e⟩ := List.mem_map.mp hmem
    exact e ▸ hclauses m' hm'
  obtain ⟨w', hw', hrearranged⟩ := h.exists_where hw
  obtain ⟨⟨filter, hfilter⟩, -⟩ := saysSame_where hwhere hrearranged
  rw [← h.get?_options] at ho
  rcases hd.plain_or_grouped with ⟨hv, ht⟩ | ⟨v, t, hv, ht, htransformed⟩
  · rw [ht] at hoptions
    refine ⟨filter, none, ⟨members', rfl, hclauses'⟩, ?_, ⟨o, ho, hoptions⟩, w', hw', hfilter⟩
    rw [h.get?_eq_none hv]
    exact .none
  · rw [ht] at hoptions
    obtain ⟨v', hv', hshuffled⟩ := h.exists_transformations hv
    obtain ⟨t', ht', hgroup, happly⟩ := htransformed.shuffled hshuffled
    refine ⟨filter, some t', ⟨members', rfl, hclauses'⟩, ?_, ⟨o, ho, ?_⟩, w', hw', hfilter⟩
    · rw [hv']
      exact .some ht'
    · exact hoptions.congr fun c _ hc =>
        ⟨hc.1, (columnNames_perm hgroup happly).mem_iff.mpr hc.2⟩

/-! ### Readings of a document -/

/-- The same records satisfy WHERE. -/
theorem matches_iff (h : Reordered document document') (hd : Grammar.Document document q)
    (r : Record) : Matches document' r ↔ Matches document r := by
  obtain ⟨w, hw, hwhere⟩ := hd.filter
  obtain ⟨w', hw', hrearranged⟩ := h.exists_where hw
  obtain ⟨-, hsatisfies, -⟩ := saysSame_where hwhere hrearranged
  rw [Matches, Matches, hw, hw']
  simpa using hsatisfies r

theorem patternsOf_perm (h : Reordered document document') (hd : Grammar.Document document q) :
    (patternsOf document').Perm (patternsOf document) := by
  obtain ⟨w, hw, hwhere⟩ := hd.filter
  obtain ⟨w', hw', hrearranged⟩ := h.exists_where hw
  obtain ⟨-, -, hpatterns⟩ := saysSame_where hwhere hrearranged
  rw [patternsOf, patternsOf, hw, hw']
  exact hpatterns

theorem columnKeys_eq (h : Reordered document document') :
    columnKeys document' = columnKeys document := by
  rw [columnKeys, columnKeys, h.get?_options]

theorem groupKeys_perm (h : Reordered document document') :
    (groupKeys document').Perm (groupKeys document) := by
  rw [groupKeys, groupKeys]
  rcases hv : document.get? "TRANSFORMATIONS" with - | v
  · rw [h.get?_eq_none hv]
  · obtain ⟨v', hv', hshuffled⟩ := h.exists_transformations hv
    rw [hv', Option.bind_some, Option.bind_some]
    rcases hg : v.get? "GROUP" with - | g
    · rw [hshuffled.get?_eq_none hg]
    · obtain ⟨_, hg', items, items', rfl, rfl, hperm⟩ := hshuffled.exists_get? hg
      rw [hg']
      exact hperm.filterMap _

theorem applyRules_perm (h : Reordered document document') :
    (applyRules document').Perm (applyRules document) := by
  rw [applyRules, applyRules]
  refine List.Perm.filterMap _ ?_
  rcases hv : document.get? "TRANSFORMATIONS" with - | v
  · rw [h.get?_eq_none hv]
  · obtain ⟨v', hv', hshuffled⟩ := h.exists_transformations hv
    rw [hv', Option.bind_some, Option.bind_some]
    rcases ha : v.get? "APPLY" with - | a
    · rw [hshuffled.get?_eq_none ha]
    · obtain ⟨_, ha', items, items', rfl, rfl, hperm⟩ := hshuffled.exists_get? ha
      rw [ha']
      exact hperm

end Reordered

end Query

end CampusQuery
