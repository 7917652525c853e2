/-
CampusQuery/Proofs/Query/ForeignKeys.lean

A key of another dataset is refused wherever it stands.

An accepted document is about one dataset, which all its references name.  Here one of them that is
not the first is moved to another dataset (`modifyReference`, `QualifiedKey.redirect`).  What stands
before it is read as before and fixes the target, so the reading stops at the moved key: before its
field, the type of that field or the other dataset is looked at (`stops_resolve`).  From there
the fault is handed up through the clauses (`Stops.bind`), with one lemma for each reader.
-/
import CampusQuery.Proofs.Query.Accepted
import CampusQuery.Proofs.Query.Redirect

namespace CampusQuery.Query

variable {α β : Type} {kinds : String → Option Kind} {id new : String} {kind : Kind}
  {s s' : Target} {e : QueryError}

/-! ### Checks that stop -/

/-- The check stops with the fault. -/
def Stops (m : Check α) (s : Target) (e : QueryError) : Prop := m s = .error e

/-- What stops at first stops altogether. -/
theorem Stops.bind {m : Check α} (h : Stops m s e) (f : α → Check β) : Stops (m >>= f) s e := by
  show (m s >>= fun x => f x.1 x.2) = _
  rw [h]
  rfl

theorem stops_bind {m : Check α} {a : α} {f : α → Check β} (h : m s = .ok (a, s'))
    (hf : Stops (f a) s' e) : Stops (m >>= f) s e := by
  show (m s >>= fun x => f x.1 x.2) = _
  rw [h]
  exact hf

/-! ### Objects -/

/-- Changing a member leaves the keys of an object as they are. -/
theorem hasExactly_mapMember {keys : List String} {v : Json} (h : Grammar.HasExactly keys v)
    (key : String) (f : Json → Json) : Grammar.HasExactly keys (v.mapMember key f) := by
  obtain ⟨members, rfl, hperm⟩ := h
  refine ⟨_, rfl, ?_⟩
  rw [Json.mapMembers, List.map_map]
  exact hperm

/-- A TRANSFORMATIONS with the right members is read key by key and rule by rule. -/
theorem readTransformation_eq {v : Json} {group rules : List Json}
    (hmembers : Grammar.HasExactly ["GROUP", "APPLY"] v)
    (hgroup : v.get? "GROUP" = some (.array group)) (hnil : group ≠ [])
    (happly : v.get? "APPLY" = some (.array rules)) :
    readTransformation kinds v = readGroup kinds group >>= fun keys =>
      readRules kinds (keys.map GroupKey.key) rules >>= fun rules => pure ⟨keys, rules⟩ := by
  obtain ⟨members, rfl, hperm⟩ := hmembers
  have hlength : members.length = 2 := by simpa using hperm.length_eq
  obtain ⟨first, rest, rfl⟩ := List.exists_cons_of_ne_nil hnil
  simp [readTransformation, getNonNull?_of_get? hgroup (by simp),
    getNonNull?_of_get? happly (by simp), hlength]

/-- An OPTIONS with the right members is read column by column, and ORDER after that. -/
theorem exists_readOptions_eq {t : Option Transformation} {members : List (String × Json)}
    {columns : List Json} {order : Option Order}
    (hmembers : Grammar.HasExactly (if order.isSome then ["COLUMNS", "ORDER"] else ["COLUMNS"])
      (.object members))
    (horder : ((Json.object members).get? "ORDER").isSome = order.isSome)
    (hcolumns : (Json.object members).get? "COLUMNS" = some (.array columns))
    (hnil : columns ≠ []) :
    ∃ f, readOptions kinds t members = readColumns kinds t columns >>= f := by
  have hlength : members.length = if ((Json.object members).get? "ORDER").isSome then 2 else 1 := by
    obtain ⟨_, e, hperm⟩ := hmembers
    cases e
    rw [horder, ← List.length_map, hperm.length_eq]
    split <;> rfl
  obtain ⟨first, rest, rfl⟩ := List.exists_cons_of_ne_nil hnil
  simp only [readOptions, getNonNull?_of_get? hcolumns (by simp), hlength, ne_eq,
    not_true_eq_false, if_false]
  exact ⟨_, rfl⟩

/-- The keys of GROUP fix the target. -/
theorem readGroup_eq_ok {group : List GroupKey} (hnil : group ≠ [])
    (hnames : ∀ g ∈ group, Names id kind g.key g.field) (hs : Target.Le kinds s (some (id, kind))) :
    readGroup kinds (group.map fun g => .text g.key) s = .ok (group, some (id, kind)) := by
  obtain ⟨g, group, rfl⟩ := List.exists_cons_of_ne_nil hnil
  rw [List.forall_mem_cons] at hnames
  have hrest : readGroup kinds (group.map fun g => .text g.key) (some (id, kind)) =
      .ok (group, some (id, kind)) := (accepts_readGroup _).eq_ok ⟨rfl, hnames.2⟩
  exact bind_apply_eq_ok.mpr ⟨g.field, _, resolve_eq_ok "GROUP" hnames.1 hs,
    bind_apply_eq_ok.mpr ⟨group, _, hrest, rfl⟩⟩

/-! ### Conditions -/

theorem readFilter_and {items : List Json} (hnil : items ≠ []) :
    readFilter kinds [("AND", .array items)] =
      readParts kinds "AND" items >>= fun parts => pure (.and parts) := by
  obtain ⟨first, rest, rfl⟩ := List.exists_cons_of_ne_nil hnil
  rw [readFilter, if_pos rfl]

theorem readFilter_or {items : List Json} (hnil : items ≠ []) :
    readFilter kinds [("OR", .array items)] =
      readParts kinds "OR" items >>= fun parts => pure (.or parts) := by
  obtain ⟨first, rest, rfl⟩ := List.exists_cons_of_ne_nil hnil
  rw [readFilter, if_neg (by decide), if_pos rfl]

theorem readFilter_not (members : List (String × Json)) :
    readFilter kinds [("NOT", .object members)] =
      readFilter kinds members >>= fun inner => pure (.not inner) := by
  rw [readFilter, if_neg (by decide), if_neg (by decide), if_pos rfl]

theorem readFilter_compare (relation : Comparison) (body : Json) :
    readFilter kinds [(relation.tag, body)] = readComparison kinds relation body := by
  obtain ⟨hand, hor, hnot, his⟩ := tag_ne relation
  unfold readFilter
  rw [if_neg hand.symm, if_neg hor.symm, if_neg hnot.symm, if_neg his.symm,
    ofTag?_eq_some_iff.mpr rfl]

theorem readFilter_like (body : Json) :
    readFilter kinds [("IS", body)] = readPattern kinds body := by
  unfold readFilter
  rw [if_neg (by decide), if_neg (by decide), if_neg (by decide), if_pos rfl]

theorem mapConditionsKey_ne_nil {items : List Json} (hnil : items ≠ []) (i : Nat)
    (f : String → String) : Json.mapConditionsKey i f items ≠ [] := by
  obtain ⟨first, rest, rfl⟩ := List.exists_cons_of_ne_nil hnil
  rw [Json.mapConditionsKey]
  split <;> exact List.cons_ne_nil _ _

section Foreign

variable (hplain : '_' ∉ new.toList) (hne : id ≠ new)

include hplain hne

/-- The target is compared before anything else is done with a key. -/
theorem stops_resolve (clause : String) {key : String} {field : Field}
    (h : Names id kind key field) :
    Stops (resolve kinds clause (QualifiedKey.redirect new key)) (some (id, kind))
      (.multipleDatasets id new) := by
  obtain ⟨name, hkey, -⟩ := h
  unfold resolve
  simp only [QualifiedKey.ofText?_redirect hplain hkey]
  refine Stops.bind ?_ _
  rw [Stops, bindTo, if_neg hne]

/-! ### TRANSFORMATIONS and OPTIONS -/

theorem stops_readGroup {group : List GroupKey} {i : Nat}
    (hnames : ∀ g ∈ group, Names id kind g.key g.field) (hi : i < group.length)
    (hs : Target.Le kinds s (some (id, kind))) (hfixed : i = 0 → s = some (id, kind)) :
    Stops (readGroup kinds ((group.map fun g => .text g.key).modify i
      (·.mapText (QualifiedKey.redirect new)))) s (.multipleDatasets id new) := by
  induction group generalizing s i with
  | nil => cases hi
  | cons g group ih =>
    rw [List.forall_mem_cons] at hnames
    rw [List.map_cons]
    rcases i with - | i
    · rw [hfixed rfl, List.modify_zero_cons]
      exact (stops_resolve hplain hne "GROUP" hnames.1).bind _
    · rw [List.modify_succ_cons]
      have hrest := ih hnames.2 (Nat.lt_of_succ_lt_succ hi) (.refl _) fun _ => rfl
      exact stops_bind (resolve_eq_ok "GROUP" hnames.1 hs) (hrest.bind _)

theorem stops_readColumns {columns : List Column} {i : Nat}
    (hfits : ∀ c ∈ columns, ColumnFits id kind none c) (hi : i < columns.length)
    (hs : Target.Le kinds s (some (id, kind))) (hfixed : i = 0 → s = some (id, kind)) :
    Stops (readColumns kinds none ((columns.map fun c => .text c.key).modify i
      (·.mapText (QualifiedKey.redirect new)))) s (.multipleDatasets id new) := by
  induction columns generalizing s i with
  | nil => cases hi
  | cons c columns ih =>
    rw [List.forall_mem_cons] at hfits
    obtain ⟨⟨field, -, hnames⟩, hfits⟩ := hfits
    rw [List.map_cons]
    rcases i with - | i
    · rw [hfixed rfl, List.modify_zero_cons]
      exact (stops_resolve hplain hne "COLUMNS" hnames).bind _
    · rw [List.modify_succ_cons]
      have hrest := ih hfits (Nat.lt_of_succ_lt_succ hi) (.refl _) fun _ => rfl
      exact stops_bind (resolve_eq_ok "COLUMNS" hnames hs) (stops_bind rfl (hrest.bind _))

theorem stops_readRule {taken : List String} {v : Json} {rule : ApplyRule}
    (h : Grammar.Rule id kind v rule) (hfresh : rule.name ∉ taken) :
    Stops (readRule kinds taken (v.mapRuleKey (QualifiedKey.redirect new))) (some (id, kind))
      (.multipleDatasets id new) := by
  obtain ⟨⟨key, rfl, hnames⟩, -, hplainName, hvisible⟩ := h
  have hname := checkRuleName_eq_ok_iff.mpr ⟨hfresh, hplainName, hvisible⟩
  have hchecked : (liftM (checkRuleName taken rule.name) : Check Unit) (some (id, kind)) =
      .ok ((), some (id, kind)) := by
    rw [hname]
    rfl
  refine stops_bind hchecked ?_
  simp only [ofToken?_eq_some_iff.mpr rfl, Json.mapText]
  exact (stops_resolve hplain hne "APPLY" hnames).bind _

theorem stops_readRules {taken : List String} {items : List Json} {rules : List ApplyRule}
    {i : Nat} (h : List.Forall₂ (Grammar.Rule id kind) items rules)
    (hnodup : (rules.map ApplyRule.name).Nodup) (hfresh : ∀ rule ∈ rules, rule.name ∉ taken)
    (hi : i < rules.length) :
    Stops (readRules kinds taken (items.modify i (·.mapRuleKey (QualifiedKey.redirect new))))
      (some (id, kind)) (.multipleDatasets id new) := by
  induction h generalizing taken i with
  | nil => cases hi
  | @cons v rule items rules hrule _ ih =>
    rw [List.map_cons, List.nodup_cons] at hnodup
    rw [List.forall_mem_cons] at hfresh
    rcases i with - | i
    · rw [List.modify_zero_cons]
      exact (stops_readRule hplain hne hrule hfresh.1).bind _
    · rw [List.modify_succ_cons]
      have htaken : ∀ other ∈ rules, other.name ∉ rule.name :: taken := by
        intro other hother
        rw [List.mem_cons, not_or]
        exact ⟨fun e => hnodup.1 (e ▸ List.mem_map_of_mem hother), hfresh.2 other hother⟩
      have hrest := ih hnodup.2 htaken (Nat.lt_of_succ_lt_succ hi)
      exact stops_bind ((accepts_readRule taken v).eq_ok ⟨hrule, hfresh.1⟩) (hrest.bind _)

theorem stops_readTransformation {v : Json} {t : Transformation} {i : Nat}
    (hkind : kinds id = some kind) (h : Grammar.Transformed id kind v t) (hi : 0 < i)
    (hlt : i < (transformationKeys v).length) :
    Stops (readTransformation kinds (mapTransformationKey i (QualifiedKey.redirect new) v)) none
      (.multipleDatasets id new) := by
  have hopen : Target.Le kinds none (some (id, kind)) := .inr ⟨rfl, id, kind, rfl, hkind⟩
  have hmembers := hasExactly_mapMember h.members
  have hfresh : ∀ rule ∈ t.apply, rule.name ∉ t.group.map GroupKey.key :=
    fun rule hrule => h.not_mem_group hrule
  obtain ⟨-, ⟨g, hg, rfl, hnil, hnames⟩, a, ha, ⟨items, rfl, hrules⟩, hnodup⟩ := h
  have hkeys : ((v.get? "GROUP").map Json.texts).getD [] = t.group.map GroupKey.key := by
    rw [hg]
    exact texts_map _ _
  have hlength : i < t.group.length + t.apply.length := by
    rw [transformationKeys, hkeys, ha, List.length_append, List.length_map, List.length_map] at hlt
    have hle := List.length_filterMap_le NamedRule.ofJson? items
    have heq := hrules.length_eq
    exact hlt.trans_le (Nat.add_le_add_left (heq ▸ hle) _)
  rw [mapTransformationKey]
  simp only [hkeys, List.length_map]
  split
  · rename_i hgroup
    rw [readTransformation_eq (hmembers _ _)
      ((Json.get?_mapMember_self _ _ _).trans (by rw [hg]; rfl)) (by simpa using hnil)
      ((Json.get?_mapMember_of_ne _ _ (by decide)).trans ha)]
    exact (stops_readGroup hplain hne hnames hgroup hopen (by omega)).bind _
  · rw [readTransformation_eq (hmembers _ _)
      ((Json.get?_mapMember_of_ne _ _ (by decide)).trans hg) (by simpa using hnil)
      ((Json.get?_mapMember_self _ _ _).trans (by rw [ha]; rfl))]
    refine stops_bind (readGroup_eq_ok hnil hnames hopen) (Stops.bind ?_ _)
    exact stops_readRules hplain hne hrules hnodup hfresh (by omega)

theorem stops_readOptions {members : List (String × Json)} {columns : List Column}
    {order : Option Order} {i : Nat} (hkind : kinds id = some kind)
    (h : Grammar.Options id kind none (.object members) columns order) (hi : 0 < i)
    (hlt : i < (optionKeys none (.object members)).length) :
    Stops (readOptions kinds none (Json.mapMembers "COLUMNS"
      (·.mapItem i (·.mapText (QualifiedKey.redirect new))) members)) none
      (.multipleDatasets id new) := by
  have hopen : Target.Le kinds none (some (id, kind)) := .inr ⟨rfl, id, kind, rfl, hkind⟩
  obtain ⟨hmembers, ⟨c, hc, rfl, hnil, hfits⟩, hordered⟩ := h
  rw [optionKeys, hc, Option.map_some, Option.getD_some, listedKeys, texts_map,
    List.length_map] at hlt
  have hsame := Json.get?_mapMember_of_ne (.object members)
    (·.mapItem i (·.mapText (QualifiedKey.redirect new))) (show "ORDER" ≠ "COLUMNS" by decide)
  obtain ⟨f, hread⟩ := exists_readOptions_eq (hasExactly_mapMember hmembers "COLUMNS" _)
    ((congrArg Option.isSome hsame).trans (isSome_eq_of_rel hordered))
    ((Json.get?_mapMember_self (.object members) _ _).trans (by rw [hc]; rfl))
    (by simpa using hnil)
  rw [hread]
  exact (stops_readColumns hplain hne hfits hlt hopen (by omega)).bind f

end Foreign

/-! ### WHERE -/

mutual

theorem stops_readFilter (kinds : String → Option Kind) {v : Json} {i : Nat}
    (hplain : '_' ∉ new.toList) (hne : id ≠ new) (condition : Filter)
    (h : Grammar.Condition id kind v condition) (hi : i < v.conditionKeys.length) :
    ∃ members, v.mapConditionKey i (QualifiedKey.redirect new) = .object members ∧
      Stops (readFilter kinds members) (some (id, kind)) (.multipleDatasets id new) := by
  match condition, h with
  | .and parts, .and hnil h =>
    rw [Json.conditionKeys] at hi
    rw [Json.mapConditionKey]
    refine ⟨_, rfl, ?_⟩
    rw [readFilter_and (mapConditionsKey_ne_nil hnil _ _)]
    exact (stops_readParts kinds hplain hne "AND" parts h hi).bind _
  | .or parts, .or hnil h =>
    rw [Json.conditionKeys] at hi
    rw [Json.mapConditionKey]
    refine ⟨_, rfl, ?_⟩
    rw [readFilter_or (mapConditionsKey_ne_nil hnil _ _)]
    exact (stops_readParts kinds hplain hne "OR" parts h hi).bind _
  | .not inner, .not h =>
    rw [Json.conditionKeys] at hi
    obtain ⟨members, e, hstops⟩ := stops_readFilter kinds hplain hne inner h hi
    rw [Json.mapConditionKey, e]
    refine ⟨_, rfl, ?_⟩
    rw [readFilter_not]
    exact hstops.bind _
  | .compare _ _ _, .compare relation hnames _ =>
    rw [Json.mapConditionKey]
    · refine ⟨_, rfl, ?_⟩
      rw [readFilter_compare]
      exact stops_bind rfl ((stops_resolve hplain hne relation.tag hnames).bind _)
    · exact (tag_ne relation).2.2.1.symm
  | .like _ _, .like hnames _ =>
    rw [Json.mapConditionKey]
    · refine ⟨_, rfl, ?_⟩
      rw [readFilter_like]
      exact stops_bind rfl ((stops_resolve hplain hne "IS" hnames).bind _)
    · decide

/-- The same for the parts of a connective. -/
theorem stops_readParts (kinds : String → Option Kind) {items : List Json} {i : Nat}
    (hplain : '_' ∉ new.toList) (hne : id ≠ new) (tag : String) (parts : List Filter)
    (h : List.Forall₂ (Grammar.Condition id kind) items parts)
    (hi : i < (items.flatMap Json.conditionKeys).length) :
    Stops (readParts kinds tag (Json.mapConditionsKey i (QualifiedKey.redirect new) items))
      (some (id, kind)) (.multipleDatasets id new) := by
  match parts, h with
  | [], .nil => cases hi
  | part :: parts, .cons h hrest =>
    rw [List.flatMap_cons, List.length_append] at hi
    rw [Json.mapConditionsKey]
    split
    · rename_i hfirst
      obtain ⟨members, e, hstops⟩ := stops_readFilter kinds hplain hne part h hfirst
      rw [e, readParts]
      exact hstops.bind _
    · obtain ⟨members, rfl⟩ := h.exists_members
      rw [readParts]
      refine stops_bind ((accepts_readFilter members).eq_ok h) (Stops.bind ?_ _)
      exact stops_readParts kinds hplain hne tag parts hrest (by omega)

end

theorem stops_readWhere (kinds : String → Option Kind) {v : Json} {filter : Option Filter}
    {i : Nat} (hplain : '_' ∉ new.toList) (hne : id ≠ new) (h : Grammar.Where id kind v filter)
    (hi : i < v.conditionKeys.length) :
    ∃ members, v.mapConditionKey i (QualifiedKey.redirect new) = .object members ∧
      Stops (readWhere kinds members) (some (id, kind)) (.multipleDatasets id new) := by
  cases h with
  | empty => simp [Json.conditionKeys] at hi
  | condition h =>
    obtain ⟨members, e, hstops⟩ := stops_readFilter kinds hplain hne _ h hi
    refine ⟨members, e, ?_⟩
    rcases members with - | ⟨m, members⟩
    · rw [readFilter] at hstops
      · cases hstops
      · intro tag body e
        cases e
    · exact hstops.bind _

/-! ### Documents -/

/-- A document with a member changed is read clause by clause as well. -/
theorem read_mapMember {document : Json} {options filter : List (String × Json)} (key : String)
    (f : Json → Json)
    (hmembers : ∃ members, document = .object members ∧ ∀ m ∈ members, m.1 ∈ clauses)
    (hoptions : (document.mapMember key f).get? "OPTIONS" = some (.object options))
    (hfilter : (document.mapMember key f).get? "WHERE" = some (.object filter)) :
    read kinds (document.mapMember key f) =
      readClauses kinds ((document.mapMember key f).get? "TRANSFORMATIONS") options filter := by
  refine read_eq_readClauses ?_ hoptions hfilter
  obtain ⟨members, rfl, hclauses⟩ := hmembers
  refine ⟨_, rfl, fun m hm => ?_⟩
  obtain ⟨m', hm', rfl⟩ := List.mem_map.mp hm
  exact hclauses m' hm'

/-- The reading of a document stops at the moved key, in whatever clause it stands. -/
theorem stops_read {document : Json} {q : Query} {i : Nat} (hplain : '_' ∉ new.toList)
    (hne : q.dataset ≠ new) (hkind : kinds q.dataset = some q.kind)
    (h : Grammar.Document document q) (hi : 0 < i) (hlt : i < (references document).length) :
    Stops (read kinds (modifyReference i (QualifiedKey.redirect new) document)) none
      (.multipleDatasets q.dataset new) := by
  obtain ⟨o, ho, hoptions⟩ := h.options
  obtain ⟨w, hw, hwhere⟩ := h.filter
  obtain ⟨options, rfl, -⟩ := hoptions.members
  obtain ⟨filter, hfilter⟩ := hwhere.exists_members
  rw [references, List.length_append, hw, Option.map_some, Option.getD_some] at hlt
  rw [modifyReference]
  split
  · rename_i hfield
    rcases h.plain_or_grouped with ⟨hv, ht⟩ | ⟨t, _, hv, -, htransformed⟩
    · rw [ht] at hoptions
      rw [fieldKeys_of_none hv ho] at hfield
      rw [hv]
      dsimp only
      rw [read_mapMember _ _ h.members (by rw [Json.get?_mapMember_self, ho]; rfl)
        (by rw [Json.get?_mapMember_of_ne _ _ (by decide), hw, hfilter]),
        Json.get?_mapMember_of_ne _ _ (by decide), hv]
      exact stops_bind rfl ((stops_readOptions hplain hne hkind hoptions hi hfield).bind _)
    · rw [fieldKeys_of_some hv] at hfield
      rw [hv]
      dsimp only
      rw [read_mapMember _ _ h.members (by rw [Json.get?_mapMember_of_ne _ _ (by decide), ho])
        (by rw [Json.get?_mapMember_of_ne _ _ (by decide), hw, hfilter]),
        Json.get?_mapMember_self, hv, Option.map_some]
      exact ((stops_readTransformation hplain hne hkind htransformed hi hfield).bind _).bind _
  · obtain ⟨members, e, hstops⟩ := stops_readWhere kinds hplain hne hwhere
      (Nat.sub_lt_left_of_lt_add (not_lt.mp ‹_›) hlt)
    obtain ⟨s, htransformation, hread⟩ := exists_readOptions hkind h.transformation hoptions
    rw [read_mapMember _ _ h.members (by rw [Json.get?_mapMember_of_ne _ _ (by decide), ho])
      (by rw [Json.get?_mapMember_self, hw, Option.map_some, e]),
      Json.get?_mapMember_of_ne _ _ (by decide)]
    exact stops_bind htransformation (stops_bind hread (hstops.bind _))

/-! ### References of an accepted document -/

theorem names_of_mem_transformationKeys {v : Json} {t : Transformation}
    (h : Grammar.Transformed id kind v t) {key : String} (hkey : key ∈ transformationKeys v) :
    ∃ field, Names id kind key field := by
  have hspells := spellsTransformation h
  rw [transformationKeys, hspells.keys, List.mem_append] at hkey
  rcases hkey with hkey | hkey
  · obtain ⟨g, hg, rfl⟩ := List.mem_map.mp hkey
    exact ⟨g.field, hspells.group g hg⟩
  · obtain ⟨n, hn, rfl⟩ := List.mem_map.mp hkey
    have hall := (List.forall₂_and_left _ _).mp (hspells.apply.imp fun n rule happlies =>
      (⟨⟨rule.field, happlies.field⟩, happlies⟩ :
        (∃ field, Names id kind n.key field) ∧ Applies id kind n rule))
    exact hall.1 n hn

theorem names_of_mem_optionKeys {v : Json} {columns : List Column} {order : Option Order}
    (h : Grammar.Options id kind none v columns order) {key : String}
    (hkey : key ∈ optionKeys none v) : ∃ field, Names id kind key field := by
  obtain ⟨-, ⟨c, hc, rfl, -, hfits⟩, -⟩ := h
  rw [optionKeys, hc, Option.map_some, Option.getD_some, listedKeys, texts_map] at hkey
  obtain ⟨c, hc, rfl⟩ := List.mem_map.mp hkey
  obtain ⟨field, -, hnames⟩ := hfits c hc
  exact ⟨field, hnames⟩

mutual

theorem names_of_mem_conditionKeys {v : Json} (condition : Filter)
    (h : Grammar.Condition id kind v condition) {key : String} (hkey : key ∈ v.conditionKeys) :
    ∃ field, Names id kind key field := by
  match condition, h with
  | .and parts, .and _ h =>
    rw [Json.conditionKeys] at hkey
    exact names_of_mem_conditionsKeys parts h hkey
  | .or parts, .or _ h =>
    rw [Json.conditionKeys] at hkey
    exact names_of_mem_conditionsKeys parts h hkey
  | .not inner, .not h =>
    rw [Json.conditionKeys] at hkey
    exact names_of_mem_conditionKeys inner h hkey
  | .compare _ field _, .compare relation hnames _ =>
    rw [conditionKeys_leaf (tag_ne relation).2.2.1.symm, List.mem_singleton] at hkey
    exact ⟨field, hkey ▸ hnames⟩
  | .like field _, .like hnames _ =>
    rw [conditionKeys_leaf (by decide), List.mem_singleton] at hkey
    exact ⟨field, hkey ▸ hnames⟩

/-- The same for the parts of a connective. -/
theorem names_of_mem_conditionsKeys {items : List Json} (parts : List Filter)
    (h : List.Forall₂ (Grammar.Condition id kind) items parts) {key : String}
    (hkey : key ∈ items.flatMap Json.conditionKeys) : ∃ field, Names id kind key field := by
  match parts, h with
  | [], .nil => cases hkey
  | part :: parts, .cons h hrest =>
    rw [List.flatMap_cons, List.mem_append] at hkey
    rcases hkey with hkey | hkey
    · exact names_of_mem_conditionKeys part h hkey
    · exact names_of_mem_conditionsKeys parts hrest hkey

end

/-- The references of a document name fields of its dataset. -/
theorem Grammar.Document.names {document : Json} {q : Query} (h : Grammar.Document document q)
    {key : String} (hkey : key ∈ references document) :
    ∃ field, Names q.dataset q.kind key field := by
  obtain ⟨o, ho, hoptions⟩ := h.options
  obtain ⟨w, hw, hwhere⟩ := h.filter
  rw [references, List.mem_append, hw, Option.map_some, Option.getD_some] at hkey
  rcases hkey with hkey | hkey
  · rcases h.plain_or_grouped with ⟨hv, ht⟩ | ⟨_, _, hv, -, htransformed⟩
    · rw [ht] at hoptions
      rw [fieldKeys_of_none hv ho] at hkey
      exact names_of_mem_optionKeys hoptions hkey
    · rw [fieldKeys_of_some hv] at hkey
      exact names_of_mem_transformationKeys htransformed hkey
  · generalize q.filter = filter at hwhere
    cases hwhere with
    | empty => simp [Json.conditionKeys] at hkey
    | condition h => exact names_of_mem_conditionKeys _ h hkey

/-- **A key of another dataset is refused wherever it stands.**  The references of an accepted
document name fields of one dataset.  If any of them but the first is moved to another dataset,
registered or not, the document is refused for that reason, and the fault names the dataset of the
first reference and the new one. -/
theorem foreign_key_refused (kinds : String → Option Kind) (document : Json)
    (haccepted : ∃ q, ofJson kinds document = .ok q) (i : Nat) {key : String}
    (hkey : (references document)[i + 1]? = some key) :
    ∃ first parts firstParts, (references document)[0]? = some first ∧
      QualifiedKey.ofText? first = some firstParts ∧ QualifiedKey.ofText? key = some parts ∧
      ∀ new : String, '_' ∉ new.toList → new ≠ parts.dataset →
        references (modifyReference (i + 1) (QualifiedKey.redirect new) document) =
          (references document).set (i + 1)
            (QualifiedKey.toText { parts with dataset := new }) ∧
        ofJson kinds (modifyReference (i + 1) (QualifiedKey.redirect new) document) =
          .error (.multipleDatasets firstParts.dataset new) := by
  obtain ⟨q, hq⟩ := haccepted
  obtain ⟨hkind, h⟩ := ofJson_eq_ok.mp hq
  obtain ⟨hlt, hget⟩ := List.getElem?_eq_some_iff.mp hkey
  have hfirst := List.getElem_mem (Nat.zero_lt_of_lt hlt)
  obtain ⟨-, name, hparts, -⟩ := h.names (List.mem_of_getElem? hkey)
  obtain ⟨-, firstName, hfirstParts, -⟩ := h.names hfirst
  refine ⟨_, _, _, List.getElem?_eq_getElem (Nat.zero_lt_of_lt hlt), hfirstParts, hparts,
    fun new hplain hne => ⟨?_, ?_⟩⟩
  · rw [references_modifyReference h hlt, List.modify_eq_set, hkey, Option.getD_some,
      QualifiedKey.redirect, hparts]
    rfl
  · have hstops := stops_read hplain hne.symm hkind h (Nat.succ_pos i) hlt
    unfold ofJson StateT.run'
    rw [hstops]
    rfl

/-- Courses under `ubc`, and no other dataset. -/
def courseKinds (id : String) : Option Kind := if id = "ubc" then some .courses else none

/-- A document with references in GROUP, in APPLY and at two depths of WHERE. -/
def sampleNested : Json :=
  .object [("WHERE", .object [("OR", .array [
      .object [("GT", .object [("ubc_avg", .ofInt 90)])],
      .object [("NOT", .object [("IS", .object [("ubc_title", .text "intro*")])])]])]),
    ("OPTIONS", .object [("COLUMNS", .array [.text "ubc_dept", .text "best"])]),
    ("TRANSFORMATIONS", .object [("GROUP", .array [.text "ubc_dept"]),
      ("APPLY", .array [.object [("best", .object [("MAX", .text "ubc_avg")])]])])]

theorem foreign_key_refused_sample :
    (∃ q, ofJson courseKinds sampleNested = .ok q) ∧
      (references sampleNested)[3]? = some "ubc_title" ∧
      ofJson courseKinds (modifyReference 3 (QualifiedKey.redirect "rooms") sampleNested) =
        .error (.multipleDatasets "ubc" "rooms") := by
  have haccepted : ∃ q, ofJson courseKinds sampleNested = .ok q :=
    exists_of_isOk (by decide +kernel)
  have hfields : fieldKeys sampleNested = ["ubc_dept", "ubc_avg"] := by
    decide +kernel
  have hreferences : references sampleNested = ["ubc_dept", "ubc_avg", "ubc_avg", "ubc_title"] := by
    rw [references, hfields]
    simp [sampleNested, Json.get?, Json.conditionKeys]
  have hkey : (references sampleNested)[3]? = some "ubc_title" := by
    rw [hreferences]
    rfl
  obtain ⟨first, parts, firstParts, hfirst, hfirstParts, hparts, hrefused⟩ :=
    foreign_key_refused courseKinds sampleNested haccepted 2 hkey
  rw [hreferences] at hfirst
  cases hfirst
  obtain rfl : (⟨"ubc", "dept"⟩ : QualifiedKey) = firstParts :=
    Option.some.inj ((by decide +kernel : _ = some _).trans hfirstParts)
  obtain rfl : (⟨"ubc", "title"⟩ : QualifiedKey) = parts :=
    Option.some.inj ((by decide +kernel : _ = some _).trans hparts)
  exact ⟨haccepted, hkey, (hrefused "rooms" (by decide) (by decide)).2⟩

end CampusQuery.Query
