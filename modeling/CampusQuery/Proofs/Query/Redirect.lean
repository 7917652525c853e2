/-
CampusQuery/Proofs/Query/Redirect.lean

A document with one of its references changed.

The place of a reference is counted as in `references`, through TRANSFORMATIONS or COLUMNS and then
depth first through WHERE, so each level counts off the keys that stand before it and hands the
rest of the count down.  `references_modifyReference` says that this finds the right place: of the
references of an accepted document just that one is changed.
-/
import CampusQuery.Proofs.Query.Documents

namespace CampusQuery

/-! ### Keys of another dataset -/

namespace QualifiedKey

/-- The key moved to another dataset; a text that is no key stays as it is. -/
def redirect (id key : String) : String :=
  ((ofText? key).map fun parts => toText { parts with dataset := id }).getD key

theorem ofText?_redirect {id key : String} {parts : QualifiedKey} (hplain : '_' ∉ id.toList)
    (h : ofText? key = some parts) :
    ofText? (redirect id key) = some { parts with dataset := id } := by
  rw [redirect, h, Option.map_some, Option.getD_some]
  exact Query.ofText?_toText hplain (Query.plain_of_ofText? h).2

end QualifiedKey

/-! ### Changing one reference of a document -/

namespace Json

/-- The members with the value of a key changed. -/
def mapMembers (key : String) (f : Json → Json) (members : List (String × Json)) :
    List (String × Json) :=
  members.map fun m => (m.1, if m.1 = key then f m.2 else m.2)

/-- The object with the value of a key changed. -/
def mapMember (key : String) (f : Json → Json) : Json → Json
  | .object members => .object (mapMembers key f members)
  | v => v

/-- The array with the item at a place changed. -/
def mapItem (i : Nat) (f : Json → Json) : Json → Json
  | .array items => .array (items.modify i f)
  | v => v

/-- The text changed. -/
def mapText (f : String → String) : Json → Json
  | .text s => .text (f s)
  | v => v

/-- The rule of APPLY with its key changed. -/
def mapRuleKey (f : String → String) : Json → Json
  | .object [(name, .object [(token, target)])] =>
    .object [(name, .object [(token, target.mapText f)])]
  | v => v

mutual

/-- The condition with the key at a place changed, counted depth first and from left to right. -/
def mapConditionKey (i : Nat) (f : String → String) : Json → Json
  | .object [("AND", .array parts)] => .object [("AND", .array (mapConditionsKey i f parts))]
  | .object [("OR", .array parts)] => .object [("OR", .array (mapConditionsKey i f parts))]
  | .object [("NOT", inner)] => .object [("NOT", mapConditionKey i f inner)]
  | .object [(tag, .object [(key, value)])] => .object [(tag, .object [(f key, value)])]
  | v => v

/-- The same for the parts of a connective: the place is in the first part that has so many
keys, together with those before it. -/
def mapConditionsKey (i : Nat) (f : String → String) : List Json → List Json
  | [] => []
  | v :: rest =>
    if i < v.conditionKeys.length then mapConditionKey i f v :: rest
    else v :: mapConditionsKey (i - v.conditionKeys.length) f rest

end

theorem get?_mapMember (v : Json) (key : String) (f : Json → Json) (k : String) :
    (v.mapMember key f).get? k = if k = key then (v.get? k).map f else v.get? k := by
  cases v with
  | object members =>
    rw [mapMember, mapMembers]
    induction members with
    | nil => simp [get?]
    | cons m members ih =>
      rw [List.map_cons, Query.get?_object_cons, ih, Query.get?_object_cons]
      by_cases hm : m.1 = k
      · rw [if_pos hm, if_pos hm, hm]
        split <;> rfl
      · rw [if_neg hm, if_neg hm]
  | _ => simp [mapMember, get?]

theorem get?_mapMember_self (v : Json) (key : String) (f : Json → Json) :
    (v.mapMember key f).get? key = (v.get? key).map f := by
  rw [get?_mapMember, if_pos rfl]

theorem get?_mapMember_of_ne (v : Json) {key k : String} (f : Json → Json) (h : k ≠ key) :
    (v.mapMember key f).get? k = v.get? k := by
  rw [get?_mapMember, if_neg h]

end Json

namespace Query

/-- The TRANSFORMATIONS with the key at a place changed: of GROUP or, after all of these, of
APPLY. -/
def mapTransformationKey (i : Nat) (f : String → String) (v : Json) : Json :=
  let keys := ((v.get? "GROUP").map Json.texts).getD []
  if i < keys.length then v.mapMember "GROUP" (·.mapItem i (·.mapText f))
  else v.mapMember "APPLY" (·.mapItem (i - keys.length) (·.mapRuleKey f))

/-- The document with the reference at a place changed, counted as in `references`. -/
def modifyReference (i : Nat) (f : String → String) (document : Json) : Json :=
  let keys := fieldKeys document
  if i < keys.length then
    match document.get? "TRANSFORMATIONS" with
    | none => document.mapMember "OPTIONS" (·.mapMember "COLUMNS" (·.mapItem i (·.mapText f)))
    | some _ => document.mapMember "TRANSFORMATIONS" (mapTransformationKey i f)
  else document.mapMember "WHERE" (·.mapConditionKey (i - keys.length) f)

/-! ### Just that reference is changed -/

variable {f : String → String} {i : Nat}

/-- A place in a list put together of two is in the first or, counted from its end, in the
second. -/
theorem modify_append {α : Type} (l l' : List α) (i : Nat) (g : α → α) :
    (l ++ l').modify i g =
      if i < l.length then l.modify i g ++ l' else l ++ l'.modify (i - l.length) g := by
  apply List.ext_getElem?
  intro j
  grind

/-- The texts of an array of texts, one of which is changed. -/
theorem texts_mapItem {α : Type} (key : α → String) (l : List α) :
    ((Json.array (l.map fun a => .text (key a))).mapItem i (·.mapText f)).texts =
      (l.map key).modify i f := by
  have hmodify : (l.map fun a => Json.text (key a)).modify i (·.mapText f) =
      ((l.map key).modify i f).map .text := by
    apply List.ext_getElem?
    intro j
    rw [List.getElem?_modify, List.getElem?_map, List.getElem?_map, List.getElem?_modify,
      List.getElem?_map]
    split <;> cases l[j]? <;> rfl
  rw [Json.mapItem, hmodify]
  exact (texts_map id _).trans (List.map_id _)

theorem ruleKeys_modify {id : String} {kind : Kind} {items : List Json} {rules : List ApplyRule}
    (h : List.Forall₂ (Grammar.Rule id kind) items rules) :
    ((items.modify i (·.mapRuleKey f)).filterMap NamedRule.ofJson?).map NamedRule.key =
      ((items.filterMap NamedRule.ofJson?).map NamedRule.key).modify i f := by
  induction h generalizing i with
  | nil => simp
  | @cons v rule items rules hrule _ ih =>
    obtain ⟨⟨key, rfl, -⟩, -⟩ := hrule
    have hread (key : String) : NamedRule.ofJson?
        (.object [(rule.name, .object [(rule.aggregate.token, .text key)])]) =
          some ⟨rule.name, rule.aggregate, key⟩ := by
      rw [NamedRule.ofJson?, ofToken?_eq_some_iff.mpr rfl, Option.map_some]
    rcases i with - | i
    · rw [List.modify_zero_cons, List.filterMap_cons_some (hread key), Json.mapRuleKey,
        Json.mapText, List.filterMap_cons_some (hread (f key))]
      rfl
    · rw [List.modify_succ_cons, List.filterMap_cons_some (hread key),
        List.filterMap_cons_some (hread key), List.map_cons, List.map_cons, List.modify_succ_cons,
        ih]

mutual

theorem conditionKeys_mapConditionKey {id : String} {kind : Kind} {v : Json} {i : Nat}
    (condition : Filter) (h : Grammar.Condition id kind v condition)
    (hi : i < v.conditionKeys.length) :
    (v.mapConditionKey i f).conditionKeys = v.conditionKeys.modify i f := by
  match condition, h with
  | .and parts, .and _ h =>
    rw [Json.conditionKeys] at hi
    rw [Json.mapConditionKey, Json.conditionKeys, Json.conditionKeys]
    exact conditionKeys_mapConditionsKey parts h
  | .or parts, .or _ h =>
    rw [Json.conditionKeys] at hi
    rw [Json.mapConditionKey, Json.conditionKeys, Json.conditionKeys]
    exact conditionKeys_mapConditionsKey parts h
  | .not inner, .not h =>
    rw [Json.conditionKeys] at hi
    rw [Json.mapConditionKey, Json.conditionKeys, Json.conditionKeys]
    exact conditionKeys_mapConditionKey inner h hi
  | .compare _ _ _, .compare relation _ _ =>
    have htag : relation.tag ≠ "NOT" := (tag_ne relation).2.2.1.symm
    rw [conditionKeys_leaf htag] at hi ⊢
    obtain rfl : i = 0 := Nat.lt_one_iff.mp hi
    rw [Json.mapConditionKey, conditionKeys_leaf htag, List.modify_zero_cons]
    exact htag
  | .like _ _, .like _ _ =>
    rw [conditionKeys_leaf (by decide)] at hi ⊢
    obtain rfl : i = 0 := Nat.lt_one_iff.mp hi
    rw [Json.mapConditionKey, conditionKeys_leaf (by decide), List.modify_zero_cons]
    decide

/-- The same for the parts of a connective. -/
theorem conditionKeys_mapConditionsKey {id : String} {kind : Kind} {items : List Json} {i : Nat}
    (parts : List Filter) (h : List.Forall₂ (Grammar.Condition id kind) items parts) :
    (Json.mapConditionsKey i f items).flatMap Json.conditionKeys =
      (items.flatMap Json.conditionKeys).modify i f := by
  match parts, h with
  | [], .nil => simp [Json.mapConditionsKey]
  | part :: parts, .cons h hrest =>
    rw [Json.mapConditionsKey, List.flatMap_cons, modify_append]
    split
    · rename_i hi
      rw [List.flatMap_cons, conditionKeys_mapConditionKey part h hi]
    · rw [List.flatMap_cons, conditionKeys_mapConditionsKey parts hrest]

end

section Documents

variable {id : String} {kind : Kind} {v : Json}

theorem transformationKeys_mapTransformationKey {t : Transformation}
    (h : Grammar.Transformed id kind v t) :
    transformationKeys (mapTransformationKey i f v) = (transformationKeys v).modify i f := by
  obtain ⟨-, ⟨g, hg, rfl, -, -⟩, a, ha, ⟨items, rfl, hrules⟩, -⟩ := h
  have htexts : Json.texts (.array (t.group.map fun g => .text g.key)) = t.group.map GroupKey.key :=
    texts_map _ _
  rw [transformationKeys, transformationKeys, mapTransformationKey, modify_append, hg, ha,
    Option.map_some, Option.getD_some, htexts]
  split
  · rw [Json.get?_mapMember_self, Json.get?_mapMember_of_ne _ _ (by decide), hg, ha,
      Option.map_some, Option.map_some, Option.getD_some, texts_mapItem]
  · rw [Json.get?_mapMember_of_ne _ _ (by decide), Json.get?_mapMember_self, hg, ha,
      Option.map_some, Option.map_some, Option.getD_some, htexts]
    exact congrArg _ (ruleKeys_modify hrules)

theorem optionKeys_mapMember {columns : List Column} {order : Option Order}
    (h : Grammar.Options id kind none v columns order) :
    optionKeys none (v.mapMember "COLUMNS" (·.mapItem i (·.mapText f))) =
      (optionKeys none v).modify i f := by
  obtain ⟨-, ⟨c, hc, rfl, -, -⟩, -⟩ := h
  rw [optionKeys, optionKeys, Json.get?_mapMember_self, hc, Option.map_some, Option.map_some,
    Option.map_some, Option.getD_some, Option.getD_some, listedKeys, listedKeys, texts_mapItem,
    texts_map]

/-- **The reference at the place is changed, and no other.** -/
theorem references_modifyReference {q : Query} (h : Grammar.Document v q)
    (hi : i < (references v).length) :
    references (modifyReference i f v) = (references v).modify i f := by
  obtain ⟨o, ho, hoptions⟩ := h.options
  obtain ⟨w, hw, hwhere⟩ := h.filter
  rw [references, List.length_append] at hi
  rw [references, references, modify_append, modifyReference]
  split
  · rename_i hfield
    rcases h.plain_or_grouped with ⟨hv, ht⟩ | ⟨t, _, hv, -, htransformed⟩
    · rw [ht] at hoptions
      rw [hv, fieldKeys_of_none hv ho, Json.get?_mapMember_of_ne _ _ (by decide),
        ← optionKeys_mapMember hoptions]
      congr 1
      refine fieldKeys_of_none ?_ ?_
      · rw [Json.get?_mapMember_of_ne _ _ (by decide), hv]
      · rw [Json.get?_mapMember_self, ho, Option.map_some]
    · rw [hv, fieldKeys_of_some hv, Json.get?_mapMember_of_ne _ _ (by decide),
        ← transformationKeys_mapTransformationKey htransformed]
      congr 1
      refine fieldKeys_of_some ?_
      rw [Json.get?_mapMember_self, hv, Option.map_some]
  · have hfields (g : Json → Json) : fieldKeys (v.mapMember "WHERE" g) = fieldKeys v := by
      simp [fieldKeys, columnKeys, groupKeys, applyRules, Json.get?_mapMember]
    rw [hw] at hi ⊢
    rw [hfields, Json.get?_mapMember_self, hw]
    rw [Option.map_some, Option.getD_some] at hi
    congr 1
    generalize q.filter = filter at hwhere
    cases hwhere with
    | empty => simp [Json.conditionKeys, Json.mapConditionKey]
    | condition h => exact conditionKeys_mapConditionKey _ h (by omega)

end Documents

end Query

end CampusQuery
