/-
CampusQuery/Proofs/Query/Clauses.lean

TRANSFORMATIONS and OPTIONS are read as the grammar says.

Each reader gets one lemma in the logic of `Accepts`: its results are exactly the parts of a query
that the value stands for.  The readers look members up and count them where the grammar lists the
keys of an object; `hasExactly_iff` says that this comes to the same.
-/
import Mathlib.Data.List.Perm.Subperm
import CampusQuery.Proofs.Query.Grammar

namespace CampusQuery.Query

variable {kinds : String → Option Kind}

/-! ### Members of objects -/

theorem get?_object_cons (key : String) (value : Json) (members : List (String × Json))
    (k : String) : (Json.object ((key, value) :: members)).get? k =
      if key = k then some value else (Json.object members).get? k := by
  rw [Json.get?, Json.get?]
  by_cases h : key = k
  · rw [if_pos h, List.find?_cons_of_pos (by simpa using h), Option.map_some]
  · rw [if_neg h, List.find?_cons_of_neg (by simpa using h)]

theorem get?_of_getNonNull? {v value : Json} {key : String} (h : v.getNonNull? key = some value) :
    v.get? key = some value := by
  unfold Json.getNonNull? at h
  split at h
  · cases h
  · exact h

theorem getNonNull?_of_get? {v value : Json} {key : String} (h : v.get? key = some value)
    (hne : value ≠ .null) : v.getNonNull? key = some value := by
  unfold Json.getNonNull?
  split
  · rename_i hnull
    exact absurd (Option.some.inj (h.symm.trans hnull)) hne
  · exact h

theorem mem_keys_of_get? {members : List (String × Json)} {key : String}
    (h : (Json.object members).get? key ≠ none) : key ∈ members.map Prod.fst := by
  rw [Json.get?, ne_eq, Option.map_eq_none_iff] at h
  obtain ⟨m, hm⟩ := Option.ne_none_iff_exists'.mp h
  have hkey : m.1 = key := by simpa using List.find?_some hm
  exact hkey ▸ List.mem_map_of_mem (List.mem_of_find?_eq_some hm)

/-- Where the keys of an object are known to be there, it is enough to count its members. -/
theorem hasExactly_iff (keys : List String) (members : List (String × Json)) (hnodup : keys.Nodup)
    (h : ∀ key ∈ keys, (Json.object members).get? key ≠ none) :
    Grammar.HasExactly keys (.object members) ↔ members.length = keys.length := by
  constructor
  · rintro ⟨_, e, hperm⟩
    cases e
    rw [← hperm.length_eq, List.length_map]
  · intro hlength
    have hsub : keys.Subperm (members.map Prod.fst) :=
      List.subperm_of_subset hnodup fun key hkey => mem_keys_of_get? (h key hkey)
    exact ⟨members, rfl, (hsub.perm_of_length_le (by simp [hlength])).symm⟩

/-! ### TRANSFORMATIONS -/

theorem accepts_readGroup (items : List Json) :
    Accepts kinds (readGroup kinds items) fun id kind group =>
      items = group.map (fun g => .text g.key) ∧ ∀ g ∈ group, Names id kind g.key g.field := by
  induction items with
  | nil =>
    refine (accepts_pure []).congr fun id kind group => ?_
    cases group <;> simp
  | cons item rest ih =>
    cases item with
    | text key =>
      refine ((accepts_resolve "GROUP" key).bind fun field => ih.bind fun group =>
        accepts_pure (⟨key, field⟩ :: group)).congr fun id kind group => ?_
      constructor
      · rintro ⟨field, hfield, group, ⟨rfl, hgroup⟩, rfl⟩
        exact ⟨rfl, List.forall_mem_cons.mpr ⟨hfield, hgroup⟩⟩
      · rintro ⟨hitems, hnames⟩
        rcases group with - | ⟨⟨key', field⟩, group⟩
        · cases hitems
        · obtain ⟨hkey, hrest⟩ := List.cons.inj hitems
          cases hkey
          rw [List.forall_mem_cons] at hnames
          exact ⟨field, hnames.1, group, ⟨hrest, hnames.2⟩, rfl⟩
    | _ =>
      refine accepts_malformed fun id kind group h => ?_
      rcases group with - | ⟨g, group⟩
      · cases h.1
      · cases h.1

theorem checkRuleName_eq_ok_iff {taken : List String} {name : String} :
    checkRuleName taken name = .ok () ↔
      name ∉ taken ∧ '_' ∉ name.toList ∧ Text.allBlank name = false := by
  unfold checkRuleName
  split
  · rename_i h
    simp at h
    simp [h]
  · rename_i htaken
    simp at htaken
    split
    · rename_i h
      simp at h
      simp [h]
    · rename_i hunder
      simp at hunder
      split
      · rename_i h
        simp [h]
      · rename_i hblank
        simp [htaken, hunder, hblank]

theorem ofToken?_eq_some_iff {token : String} {a : Aggregate} :
    Aggregate.ofToken? token = some a ↔ a.token = token := by
  constructor
  · intro h
    simpa using List.find?_some h
  · rintro rfl
    cases a <;> decide

theorem token_inj {a b : Aggregate} (h : a.token = b.token) : a = b :=
  Option.some.inj ((ofToken?_eq_some_iff.mpr h).symm.trans (ofToken?_eq_some_iff.mpr rfl))

/-- What a rule says apart from its name. -/
theorem rule_iff {id : String} {kind : Kind} {name : String} {body : Json} {rule : ApplyRule} :
    Grammar.Rule id kind (.object [(name, body)]) rule ↔
      ('_' ∉ name.toList ∧ Text.allBlank name = false) ∧ rule.name = name ∧
      (rule.aggregate.needsNumbers = true → rule.field.isNumeric = true) ∧
      ∃ key, body = .object [(rule.aggregate.token, .text key)] ∧ Names id kind key rule.field := by
  constructor
  · rintro ⟨⟨key, hv, hnames⟩, hnumeric, hplain, hvisible⟩
    cases hv
    exact ⟨⟨hplain, hvisible⟩, rfl, hnumeric, key, rfl, hnames⟩
  · rintro ⟨⟨hplain, hvisible⟩, rfl, hnumeric, key, rfl, hnames⟩
    exact ⟨⟨key, rfl, hnames⟩, hnumeric, hplain, hvisible⟩

/-- The aggregate of a field, as a rule spells it after its name. -/
theorem accepts_applied (name : String) {aggregate : Aggregate} (key : String) :
    Accepts kinds
      (do
        let field ← resolve kinds "APPLY" key
        if aggregate.needsNumbers && !field.isNumeric then
          throw (.typeMismatch (.needsNumbers aggregate.token key))
        return (⟨name, aggregate, field⟩ : ApplyRule))
      fun id kind rule => ∃ field, Names id kind key field ∧
        (aggregate.needsNumbers = true → field.isNumeric = true) ∧
        rule = ⟨name, aggregate, field⟩ := by
  refine (accepts_resolve "APPLY" key).bind (Q := fun field _ _ (rule : ApplyRule) =>
    (aggregate.needsNumbers = true → field.isNumeric = true) ∧ rule = ⟨name, aggregate, field⟩)
    fun field => ?_
  by_cases hfit : aggregate.needsNumbers = true → field.isNumeric = true
  · have hcond : ¬ (aggregate.needsNumbers && !field.isNumeric) = true := by simpa using hfit
    rw [if_neg hcond]
    exact (accepts_pure _).congr fun _ _ _ => (and_iff_right hfit).symm
  · have hcond : (aggregate.needsNumbers && !field.isNumeric) = true := by simpa using hfit
    rw [if_pos hcond]
    exact accepts_throw_bind fun _ _ _ h => hfit h.1

theorem accepts_readRule (taken : List String) (v : Json) :
    Accepts kinds (readRule kinds taken v) fun id kind rule =>
      Grammar.Rule id kind v rule ∧ rule.name ∉ taken := by
  unfold readRule
  split
  · rename_i name body
    refine ((accepts_lift (checkRuleName taken name)).bind (Q := fun _ id kind rule =>
      rule.name = name ∧ (rule.aggregate.needsNumbers = true → rule.field.isNumeric = true) ∧
      ∃ key, body = .object [(rule.aggregate.token, .text key)] ∧ Names id kind key rule.field)
      fun _ => ?_).congr fun id kind rule => ?_
    · -- every branch but that of a known token and a text refuses what is not a rule
      split
      · rename_i token target
        split
        · rename_i htoken
          refine accepts_malformed ?_
          rintro id kind rule ⟨-, -, key, e, -⟩
          simp only [Json.object.injEq, List.cons.injEq, Prod.mk.injEq] at e
          rw [ofToken?_eq_some_iff.mpr e.1.1.symm] at htoken
          cases htoken
        · rename_i aggregate htoken
          obtain rfl := ofToken?_eq_some_iff.mp htoken
          split
          · rename_i key
            refine (accepts_applied name key).congr fun id kind rule => ?_
            constructor
            · rintro ⟨field, hnames, hnumeric, rfl⟩
              exact ⟨rfl, hnumeric, key, rfl, hnames⟩
            · rintro ⟨rfl, hnumeric, key', e, hnames⟩
              simp only [Json.object.injEq, List.cons.injEq, Prod.mk.injEq, Json.text.injEq] at e
              obtain ⟨⟨htoken, rfl⟩, -⟩ := e
              obtain rfl : aggregate = rule.aggregate := token_inj htoken
              exact ⟨rule.field, hnames, hnumeric, rfl⟩
          · rename_i hne
            refine accepts_malformed ?_
            rintro id kind rule ⟨-, -, key, e, -⟩
            simp only [Json.object.injEq, List.cons.injEq, Prod.mk.injEq] at e
            exact hne key e.1.2
      · rename_i hne
        refine accepts_malformed ?_
        rintro id kind rule ⟨-, -, key, e, -⟩
        exact hne _ _ (Json.object.inj e)
      · rename_i hne _
        refine accepts_malformed ?_
        rintro id kind rule ⟨-, -, key, e, -⟩
        exact hne _ _ e
    · rw [rule_iff]
      constructor
      · rintro ⟨⟨⟩, hname, rfl, hbody⟩
        obtain ⟨htaken, hname⟩ := checkRuleName_eq_ok_iff.mp hname
        exact ⟨⟨hname, rfl, hbody⟩, htaken⟩
      · rintro ⟨⟨hname, rfl, hbody⟩, htaken⟩
        exact ⟨(), checkRuleName_eq_ok_iff.mpr ⟨htaken, hname⟩, rfl, hbody⟩
  · rename_i hne
    refine accepts_malformed ?_
    rintro id kind rule ⟨⟨⟨key, e, -⟩, -⟩, -⟩
    exact hne _ _ (Json.object.inj e)
  · rename_i hne _
    refine accepts_malformed ?_
    rintro id kind rule ⟨⟨⟨key, e, -⟩, -⟩, -⟩
    exact hne _ _ e

theorem accepts_readRules (taken : List String) (items : List Json) :
    Accepts kinds (readRules kinds taken items) fun id kind rules =>
      List.Forall₂ (Grammar.Rule id kind) items rules ∧ (rules.map ApplyRule.name).Nodup ∧
        ∀ rule ∈ rules, rule.name ∉ taken := by
  induction items generalizing taken with
  | nil =>
    refine (accepts_pure []).congr fun id kind rules => ?_
    cases rules <;> simp
  | cons item rest ih =>
    refine ((accepts_readRule taken item).bind fun rule => (ih (rule.name :: taken)).bind
      fun rules => accepts_pure (rule :: rules)).congr fun id kind rules => ?_
    constructor
    · rintro ⟨rule, ⟨hrule, htaken⟩, rules, ⟨hrules, hnodup, hfresh⟩, rfl⟩
      simp only [List.mem_cons, not_or] at hfresh
      refine ⟨.cons hrule hrules, ?_,
        List.forall_mem_cons.mpr ⟨htaken, fun r hr => (hfresh r hr).2⟩⟩
      -- later rules were checked against the name of this one
      rw [List.map_cons, List.nodup_cons, List.mem_map]
      refine ⟨?_, hnodup⟩
      rintro ⟨other, hother, e⟩
      exact (hfresh other hother).1 e
    · rintro ⟨hrules, hnodup, hfresh⟩
      cases hrules with
      | @cons _ rule _ rules hrule hrules =>
        rw [List.map_cons, List.nodup_cons] at hnodup
        rw [List.forall_mem_cons] at hfresh
        refine ⟨rule, ⟨hrule, hfresh.1⟩, rules, ⟨hrules, hnodup.2, fun other hother => ?_⟩, rfl⟩
        rw [List.mem_cons, not_or]
        refine ⟨fun e => hnodup.1 (e ▸ List.mem_map_of_mem hother), hfresh.2 other hother⟩

/-- The members of TRANSFORMATIONS as they are looked up. -/
theorem Grammar.Transformed.getNonNull? {id : String} {kind : Kind} {v : Json} {t : Transformation}
    (h : Grammar.Transformed id kind v t) :
    (∃ g, v.getNonNull? "GROUP" = some g ∧ Grammar.Group id kind g t.group) ∧
      ∃ a, v.getNonNull? "APPLY" = some a ∧ Grammar.Apply id kind a t.apply := by
  obtain ⟨-, ⟨g, hg, hgroup⟩, a, ha, happly⟩ := h
  have hgroupNull : g ≠ .null := hgroup.items ▸ nofun
  have happlyNull : a ≠ .null := by
    obtain ⟨items, rfl, -⟩ := happly.items
    exact nofun
  exact ⟨⟨g, getNonNull?_of_get? hg hgroupNull, hgroup⟩,
    a, getNonNull?_of_get? ha happlyNull, happly⟩

/-- The rules of APPLY, put together with the keys of GROUP. -/
theorem accepts_apply (keys : List GroupKey) (apply : Json) :
    Accepts kinds
      (match apply with
        | .array rules => do return ⟨keys, ← readRules kinds (keys.map GroupKey.key) rules⟩
        | _ => malformed .applyNotList)
      fun id kind (t : Transformation) => Grammar.Apply id kind apply t.apply ∧ t.group = keys ∧
        ∀ rule ∈ t.apply, rule.name ∉ keys.map GroupKey.key := by
  split
  · rename_i items
    refine ((accepts_readRules _ items).bind fun rules =>
      accepts_pure (⟨keys, rules⟩ : Transformation)).congr fun id kind t => ?_
    constructor
    · rintro ⟨rules, ⟨hall, hnodup, hfresh⟩, rfl⟩
      exact ⟨⟨⟨items, rfl, hall⟩, hnodup⟩, rfl, hfresh⟩
    · rintro ⟨⟨⟨_, e, hall⟩, hnodup⟩, rfl, hfresh⟩
      cases e
      exact ⟨t.apply, ⟨hall, hnodup, hfresh⟩, rfl⟩
  · rename_i hne
    refine accepts_malformed fun id kind t h => ?_
    obtain ⟨items, e, -⟩ := h.1.items
    exact hne items e

theorem accepts_readTransformation (v : Json) :
    Accepts kinds (readTransformation kinds v) fun id kind t =>
      Grammar.Transformed id kind v t := by
  unfold readTransformation
  split
  · rename_i members
    split
    · rename_i group apply hgroup happly
      have hkeys := hasExactly_iff ["GROUP", "APPLY"] members (by decide)
        (by simp [get?_of_getNonNull? hgroup, get?_of_getNonNull? happly])
      split
      · rename_i hlength
        exact accepts_malformed fun id kind t h => hlength (hkeys.mp h.members)
      · rename_i hlength
        split
        · rename_i first rest
          refine ((accepts_readGroup (first :: rest)).bind fun keys =>
            accepts_apply keys apply).congr fun id kind t => ?_
          constructor
          · rintro ⟨keys, ⟨hitems, hnames⟩, happlies, rfl, -⟩
            refine ⟨hkeys.mpr (not_not.mp hlength), ⟨_, get?_of_getNonNull? hgroup, ?_⟩,
              _, get?_of_getNonNull? happly, happlies⟩
            refine ⟨congrArg _ hitems, ?_, hnames⟩
            intro hnil
            rw [hnil] at hitems
            cases hitems
          · intro h
            obtain ⟨⟨g, hg, hitems, -, hnames⟩, a, ha, happlies⟩ := h.getNonNull?
            obtain rfl := Option.some.inj (happly.symm.trans ha)
            obtain rfl := Option.some.inj (hgroup.symm.trans hg)
            exact ⟨t.group, ⟨Json.array.inj hitems, hnames⟩, happlies, rfl,
              fun rule hrule => h.not_mem_group hrule⟩
        · rename_i hne
          refine accepts_malformed fun id kind t h => ?_
          obtain ⟨⟨g, hg, hitems, hnil, -⟩, -⟩ := h.getNonNull?
          obtain rfl := Option.some.inj (hgroup.symm.trans hg)
          obtain ⟨key, keys, e⟩ := List.exists_cons_of_ne_nil hnil
          rw [e] at hitems
          exact hne _ _ hitems
    · rename_i hne
      refine accepts_malformed fun id kind t h => ?_
      obtain ⟨⟨g, hg, -⟩, a, ha, -⟩ := h.getNonNull?
      exact hne g a hg ha
  · rename_i hne
    refine accepts_malformed fun id kind t h => ?_
    obtain ⟨members, e, -⟩ := h.members
    exact hne members e

/-! ### OPTIONS -/

theorem accepts_readColumns (t : Option Transformation) (items : List Json) :
    Accepts kinds (readColumns kinds t items) fun id kind columns =>
      items = columns.map (fun c => .text c.key) ∧ ∀ c ∈ columns, ColumnFits id kind t c := by
  induction items with
  | nil =>
    refine (accepts_pure []).congr fun id kind columns => ?_
    cases columns <;> simp
  | cons item rest ih =>
    cases item with
    | text key =>
      have hcons (c : Column) := ih.bind fun columns => accepts_pure (c :: columns)
      -- the first column fits by itself, and the others are read after it
      have hiff (id : String) (kind : Kind) (columns : List Column) :
          (∃ c, (c.key = key ∧ ColumnFits id kind t c) ∧ ∃ others,
            (rest = others.map (fun c => .text c.key) ∧ ∀ c ∈ others, ColumnFits id kind t c) ∧
              columns = c :: others) ↔
          .text key :: rest = columns.map (fun c => .text c.key) ∧
            ∀ c ∈ columns, ColumnFits id kind t c := by
        constructor
        · rintro ⟨c, ⟨rfl, hc⟩, others, ⟨rfl, hothers⟩, rfl⟩
          exact ⟨rfl, List.forall_mem_cons.mpr ⟨hc, hothers⟩⟩
        · rintro ⟨hitems, hfits⟩
          rcases columns with - | ⟨c, others⟩
          · cases hitems
          · obtain ⟨hkey, hrest⟩ := List.cons.inj hitems
            rw [List.forall_mem_cons] at hfits
            exact ⟨c, ⟨(Json.text.inj hkey).symm, hfits.1⟩, others, ⟨hrest, hfits.2⟩, rfl⟩
      refine Accepts.congr ?_ hiff
      unfold readColumns
      rcases t with - | t
      · refine ((accepts_resolve "COLUMNS" key).bind fun field =>
          (accepts_pure (⟨key, some field⟩ : Column)).bind hcons).congr fun id kind columns => ?_
        constructor
        · rintro ⟨field, hfield, _, rfl, hothers⟩
          exact ⟨_, ⟨rfl, field, rfl, hfield⟩, hothers⟩
        · rintro ⟨⟨_, _⟩, ⟨rfl, field, rfl, hfield⟩, hothers⟩
          exact ⟨field, hfield, _, rfl, hothers⟩
      · by_cases hmem : (columnNames t).contains key = true
        · simp only [if_pos hmem]
          refine ((accepts_pure (⟨key, none⟩ : Column)).bind hcons).congr fun id kind columns => ?_
          have hname : key ∈ columnNames t := by simpa using hmem
          constructor
          · rintro ⟨_, rfl, hothers⟩
            exact ⟨_, ⟨rfl, rfl, hname⟩, hothers⟩
          · rintro ⟨⟨_, _⟩, ⟨rfl, rfl, -⟩, hothers⟩
            exact ⟨_, rfl, hothers⟩
        · simp only [if_neg hmem]
          refine accepts_throw_bind fun id kind columns => ?_
          rintro ⟨c, ⟨rfl, -, hname⟩, -⟩
          exact hmem (by simpa using hname)
    | _ =>
      refine accepts_malformed fun id kind columns h => ?_
      rcases columns with - | ⟨c, columns⟩
      · cases h.1
      · cases h.1

theorem checkOrderKey_eq_ok_iff {columns : List Column} {key k : String} :
    checkOrderKey columns key = .ok k ↔ k = key ∧ key ∈ columns.map Column.key := by
  unfold checkOrderKey
  split
  · rename_i h
    have hmem : key ∈ columns.map Column.key := by simpa using h
    simp [hmem, eq_comm]
  · rename_i h
    have hmem : key ∉ columns.map Column.key := by simpa using h
    simp [hmem]

theorem readOrderKeys_eq_ok_iff {columns : List Column} {items : List Json} {keys : List String} :
    readOrderKeys columns items = .ok keys ↔
      items = keys.map .text ∧ ∀ key ∈ keys, key ∈ columns.map Column.key := by
  induction items generalizing keys with
  | nil => cases keys <;> simp [readOrderKeys, pure, Except.pure]
  | cons item rest ih =>
    cases item with
    | text key =>
      rw [readOrderKeys, bind_eq_ok_iff]
      constructor
      · rintro ⟨k, hk, h⟩
        obtain ⟨rfl, hmem⟩ := checkOrderKey_eq_ok_iff.mp hk
        obtain ⟨ks, hks, h⟩ := bind_eq_ok h
        cases h
        obtain ⟨rfl, hall⟩ := ih.mp hks
        exact ⟨rfl, List.forall_mem_cons.mpr ⟨hmem, hall⟩⟩
      · rintro ⟨hitems, hall⟩
        rcases keys with - | ⟨k, ks⟩
        · cases hitems
        · obtain ⟨hkey, hrest⟩ := List.cons.inj hitems
          cases hkey
          rw [List.forall_mem_cons] at hall
          exact ⟨key, checkOrderKey_eq_ok_iff.mpr ⟨rfl, hall.1⟩,
            bind_eq_ok_iff.mpr ⟨ks, ih.mpr ⟨hrest, hall.2⟩, rfl⟩⟩
    | _ => cases keys <;> simp [readOrderKeys, throw, throwThe, MonadExceptOf.throw]

theorem ofName?_eq_some_iff {name : String} {direction : Direction} :
    Direction.ofName? name = some direction ↔ direction.name = name := by
  constructor
  · intro h
    simpa using List.find?_some h
  · rintro rfl
    cases direction <;> decide

theorem sorting_of_readOrder {columns : List Column} {v : Json} {o : Order}
    (h : readOrder columns v = .ok o) : Grammar.Sorting (columns.map Column.key) v o := by
  cases v with
  | text key =>
    obtain ⟨k, hk, ho⟩ := bind_eq_ok h
    obtain ⟨rfl, hmem⟩ := checkOrderKey_eq_ok_iff.mp hk
    cases ho
    exact .single hmem
  | object members =>
    simp only [readOrder] at h
    split at h
    · rename_i dir keys hdir hkeys
      have hiff := hasExactly_iff ["dir", "keys"] members (by decide)
        (by simp [get?_of_getNonNull? hdir, get?_of_getNonNull? hkeys])
      split at h
      · cases h
      · rename_i hlength
        split at h
        · cases h
        · rename_i direction hdirection
          obtain ⟨name, hname, hdirection⟩ := Option.bind_eq_some_iff.mp hdirection
          obtain rfl := ofName?_eq_some_iff.mp hdirection
          split at h
          · rename_i first rest
            obtain ⟨ks, hks, ho⟩ := bind_eq_ok h
            obtain ⟨hitems, hall⟩ := readOrderKeys_eq_ok_iff.mp hks
            cases ho
            have hdirText : dir = .text direction.name := by
              cases dir <;> cases hname
              rfl
            refine .directed (hiff.mpr (not_not.mp hlength)) ?_ ?_ ?_ hall
            · rw [get?_of_getNonNull? hdir, hdirText]
            · rw [get?_of_getNonNull? hkeys, hitems]
            · rintro rfl
              cases hitems
          · cases h
    · cases h
  | _ => cases h

theorem readOrder_of_sorting {columns : List Column} {v : Json} {o : Order}
    (h : Grammar.Sorting (columns.map Column.key) v o) : readOrder columns v = .ok o := by
  cases h with
  | @single key hmem =>
    exact bind_eq_ok_iff.mpr ⟨key, checkOrderKey_eq_ok_iff.mpr ⟨rfl, hmem⟩, rfl⟩
  | @directed _ direction keys hmembers hdir hkeys hne hall =>
    obtain ⟨members, rfl, hperm⟩ := hmembers
    have hlength : members.length = 2 := by simpa using hperm.length_eq
    obtain ⟨key, rest, rfl⟩ := List.exists_cons_of_ne_nil hne
    have hname : Direction.ofName? direction.name = some direction := ofName?_eq_some_iff.mpr rfl
    simp only [readOrder, getNonNull?_of_get? hdir nofun, getNonNull?_of_get? hkeys nofun,
      hlength, ne_eq, not_true_eq_false, if_false, Json.text?, Option.bind_some, hname]
    exact bind_eq_ok_iff.mpr ⟨key :: rest, readOrderKeys_eq_ok_iff.mpr ⟨rfl, hall⟩, rfl⟩

theorem readOrder_eq_ok_iff {columns : List Column} {v : Json} {o : Order} :
    readOrder columns v = .ok o ↔ Grammar.Sorting (columns.map Column.key) v o :=
  ⟨sorting_of_readOrder, readOrder_of_sorting⟩

theorem isSome_eq_of_rel {α β : Type} {r : α → β → Prop} {a : Option α} {b : Option β}
    (h : Option.Rel r a b) : a.isSome = b.isSome := by
  cases h <;> rfl

/-- COLUMNS as it is read: an array that is not empty. -/
theorem listed_iff {id : String} {kind : Kind} {t : Option Transformation} {v first : Json}
    {rest : List Json} {columns : List Column}
    (h : v.get? "COLUMNS" = some (.array (first :: rest))) :
    (∃ c, v.get? "COLUMNS" = some c ∧ Grammar.Columns id kind t c columns) ↔
      first :: rest = columns.map (fun c => .text c.key) ∧
        ∀ c ∈ columns, ColumnFits id kind t c := by
  constructor
  · rintro ⟨c, hc, hitems, -, hfits⟩
    rw [h, Option.some.injEq] at hc
    exact ⟨Json.array.inj (hc.trans hitems), hfits⟩
  · rintro ⟨hitems, hfits⟩
    refine ⟨_, h, congrArg _ hitems, ?_, hfits⟩
    rintro rfl
    cases hitems

/-- ORDER, if there is one, put together with the columns. -/
theorem accepts_ordered (columns : List Column) (order : Option Json) :
    Accepts kinds
      (match order with
        | none => return (columns, none)
        | some order => do
          let order ← readOrder columns order
          return (columns, some order))
      fun _ _ read => read.1 = columns ∧
        Option.Rel (Grammar.Sorting (columns.map Column.key)) order read.2 := by
  split
  · refine (accepts_pure (columns, none)).congr fun _ _ ⟨columns', order⟩ => ?_
    cases order <;> simp
  · rename_i order
    refine ((accepts_lift (readOrder columns order)).bind fun o =>
      accepts_pure (columns, some o)).congr fun _ _ ⟨columns', order'⟩ => ?_
    cases order' <;> simp [readOrder_eq_ok_iff, and_comm]

theorem accepts_readOptions (t : Option Transformation) (members : List (String × Json)) :
    Accepts kinds (readOptions kinds t members) fun id kind read =>
      Grammar.Options id kind t (.object members) read.1 read.2 := by
  simp only [readOptions]
  split
  · rename_i hnone
    refine accepts_malformed fun id kind read h => ?_
    obtain ⟨c, hc, hitems, -⟩ := h.listed
    rw [getNonNull?_of_get? hc (by simp [hitems])] at hnone
    cases hnone
  · rename_i value hvalue
    replace hvalue := get?_of_getNonNull? hvalue
    -- the number of members tells whether there are others than COLUMNS and ORDER
    have hkeys {order : Option Order}
        (h : order.isSome = ((Json.object members).get? "ORDER").isSome) :
        Grammar.HasExactly (if order.isSome then ["COLUMNS", "ORDER"] else ["COLUMNS"])
          (.object members) ↔
        members.length = if ((Json.object members).get? "ORDER").isSome then 2 else 1 := by
      rw [h]
      split
      · rename_i horder
        exact hasExactly_iff _ _ (by decide)
          (by simp [hvalue, Option.ne_none_iff_isSome.mpr horder])
      · exact hasExactly_iff _ _ (by decide) (by simp [hvalue])
    by_cases hlength : members.length ≠ if ((Json.object members).get? "ORDER").isSome then 2 else 1
    · rw [if_pos hlength]
      refine accepts_malformed fun id kind read h => hlength ?_
      exact (hkeys (isSome_eq_of_rel h.ordered).symm).mp h.members
    · rw [if_neg hlength]
      replace hlength := not_not.mp hlength
      split
      · rename_i first rest
        refine ((accepts_readColumns t (first :: rest)).bind fun columns =>
          accepts_ordered columns _).congr fun id kind read => ?_
        constructor
        · rintro ⟨_, hlisted, rfl, hordered⟩
          exact ⟨(hkeys (isSome_eq_of_rel hordered).symm).mpr hlength,
            (listed_iff hvalue).mpr hlisted, hordered⟩
        · rintro ⟨-, hlisted, hordered⟩
          exact ⟨_, (listed_iff hvalue).mp hlisted, rfl, hordered⟩
      · rename_i hne
        refine accepts_malformed fun id kind read h => ?_
        obtain ⟨c, hc, hitems, hnil, -⟩ := h.listed
        obtain rfl := Option.some.inj (hvalue.symm.trans hc)
        obtain ⟨key, keys, e⟩ := List.exists_cons_of_ne_nil hnil
        rw [e] at hitems
        exact hne _ _ hitems

end CampusQuery.Query
