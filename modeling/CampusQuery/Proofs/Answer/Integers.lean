/-
CampusQuery/Proofs/Answer/Integers.lean

What a query keeps of stored integers.

The integer that a record stores is a binary number in everything a query does: in comparisons, in
the tuples that decide about groups, in aggregates and in rows.  For exact integers this goes
unnoticed (`Query.KeepsIntegers`): columns hold the integer that is stored, extremes the greatest or
smallest one, counts the number of different ones, and the members of a group have the same one.
What is needed of each of these is that one integer is exact, and this is enough as no other one is
mistaken for it.
-/
import CampusQuery.Proofs.Answer.Cells
import CampusQuery.Proofs.Dataset.Integers
import Mathlib.Data.Finset.Card
import Mathlib.Data.Finset.Image
import Mathlib.Order.Bounds.Defs

namespace CampusQuery

/-! ### Meaning -/

/-- The integer in a field of a section; other fields hold none. -/
def Section.integer? (s : Section) : Field → Option Int
  | .pass => some s.pass
  | .fail => some s.fail
  | .audit => some s.audit
  | .year => some s.year
  | _ => none

/-- The integer in a field of a room. -/
def Room.integer? (r : Room) : Field → Option Int
  | .seats => some r.seats
  | _ => none

namespace Record

/-- The integer in a field of a record. -/
def integer? : Record → Field → Option Int
  | .course s, field => s.integer? field
  | .room r, field => r.integer? field

/-- The integer that the record stores in the field that a key names. -/
def stored? (r : Record) (key : String) : Option Int := do
  let parts ← QualifiedKey.ofText? key
  let field ← Field.ofName? r.kind parts.field
  r.integer? field

end Record

namespace Query

/-- The filter of an integer literal. -/
def equals (key : String) (n : Int) : Json := .object [("EQ", .object [(key, .ofInt n)])]

/-- The row of a class keeps the integers that its members store. -/
structure KeepsIntegers (document : Json) (members : List Record) (row : Row) : Prop where
  /-- The column of a field is written as the integer of every member, if it is exact. -/
  column : ∀ key ∈ columnKeys document,
    (document.get? "TRANSFORMATIONS" = none ∨ key ∈ groupKeys document) →
      ∀ r ∈ members, ∀ i, r.stored? key = some i →
        ∃ v, row.get? key = some v ∧ (v.toJson = .ofInt i ↔ IsExact i)
  /-- Members of one group store the same integer under a key of it, if one is exact. -/
  together : ∀ key ∈ groupKeys document, ∀ a ∈ members, ∀ b ∈ members, ∀ i j,
    a.stored? key = some i → b.stored? key = some j → IsExact i → i = j
  /-- A maximum is written as the greatest integer. -/
  greatest : ∀ rule ∈ applyRules document, rule.aggregate = .max →
    rule.name ∈ columnKeys document → ∀ i, IsExact i →
      IsGreatest {j | ∃ r ∈ members, r.stored? rule.key = some j} i →
        ∃ v, row.get? rule.name = some v ∧ v.toJson = .ofInt i
  /-- A minimum is written as the smallest integer. -/
  least : ∀ rule ∈ applyRules document, rule.aggregate = .min →
    rule.name ∈ columnKeys document → ∀ i, IsExact i →
      IsLeast {j | ∃ r ∈ members, r.stored? rule.key = some j} i →
        ∃ v, row.get? rule.name = some v ∧ v.toJson = .ofInt i
  /-- A count is the number of different integers, if all are exact. -/
  count : ∀ rule ∈ applyRules document, rule.aggregate = .count →
    rule.name ∈ columnKeys document →
      (∀ r ∈ members, ∃ i, r.stored? rule.key = some i ∧ IsExact i) →
        row.get? rule.name = some (.number (.ofInt
          (members.filterMap (·.stored? rule.key)).toFinset.card))

end Query

/-! ### Stored integers as values -/

namespace Scalar

variable {i j : Int}

theorem ofInt_ne_notANumber (i : Int) : number (.ofInt i) ≠ number .notANumber := by
  rw [ne_eq, number.injEq]
  exact Binary64.nearest_ne_notANumber _ _ _

/-- Exact integers have an identity of their own. -/
theorem identity_ofInt_inj (hi : IsExact i) :
    (number (.ofInt i)).identity = (number (.ofInt j)).identity ↔ i = j := by
  rw [eq_comm, identity_eq_iff (ofInt_ne_notANumber j) (ofInt_ne_notANumber i), Same,
    Binary64.eq_ofInt hi, eq_comm]

end Scalar

namespace Record

variable {r s : Record} {key : String} {i : Int}

theorem value?_of_integer? {field : Field} (h : r.integer? field = some i) :
    r.value? field = some (.number (.ofInt i)) := by
  rcases r with s | r <;> cases field <;> cases h <;> rfl

theorem named?_of_stored? (h : r.stored? key = some i) :
    r.named? key = some (.number (.ofInt i)) := by
  obtain ⟨parts, hparts, h⟩ := Option.bind_eq_some_iff.mp h
  obtain ⟨field, hfield, h⟩ := Option.bind_eq_some_iff.mp h
  rw [named?, hparts, Option.bind_eq_bind, Option.bind_some, hfield, Option.bind_eq_bind,
    Option.bind_some, value?_of_integer? h]

theorem integer?_isSome_of_kind_eq (hkind : r.kind = s.kind) (field : Field) :
    (r.integer? field).isSome = (s.integer? field).isSome := by
  rcases r with r | r <;> rcases s with s | s
  · cases field <;> rfl
  · cases hkind
  · cases hkind
  · cases field <;> rfl

/-- A key that names an integer of one record names one of all records of the kind. -/
theorem exists_stored?_of_kind_eq (hkind : r.kind = s.kind) (h : r.stored? key = some i) :
    ∃ j, s.stored? key = some j := by
  obtain ⟨parts, hparts, h⟩ := Option.bind_eq_some_iff.mp h
  obtain ⟨field, hfield, h⟩ := Option.bind_eq_some_iff.mp h
  have hsome := integer?_isSome_of_kind_eq hkind field
  rw [h, Option.isSome_some] at hsome
  obtain ⟨j, hj⟩ := Option.isSome_iff_exists.mp hsome.symm
  refine ⟨j, ?_⟩
  rw [stored?, hparts, Option.bind_eq_bind, Option.bind_some, ← hkind, hfield, Option.bind_eq_bind,
    Option.bind_some, hj]

end Record

/-- The values under a key that names an integer are the stored integers. -/
theorem filterMap_named?_eq {members : List Record} {key : String}
    (h : ∀ r ∈ members, ∃ i, r.stored? key = some i) :
    members.filterMap (·.named? key) =
      (members.filterMap (·.stored? key)).map fun i => .number (.ofInt i) := by
  rw [List.map_filterMap]
  refine List.filterMap_congr fun r hr => ?_
  obtain ⟨i, hi⟩ := h r hr
  rw [Record.named?_of_stored? hi, hi, Option.map_some]

/-! ### Counting -/

namespace Aggregate

theorem countDistinct_eq (values : List Scalar) :
    countDistinct values = (values.map Scalar.identity).toFinset.card := by
  rw [countDistinct, ← Std.HashSet.length_toList]
  have hnodup : (Std.HashSet.ofList (values.map Scalar.identity)).toList.Nodup :=
    (Std.HashSet.distinct_toList).imp fun h e => by simp [e] at h
  rw [← List.toFinset_card_of_nodup hnodup]
  congr 1
  ext v
  simp

/-- **Exact integers are counted as integers.** -/
theorem countDistinct_ofInt {stored : List Int} (h : ∀ i ∈ stored, IsExact i) :
    countDistinct (stored.map fun i => .number (.ofInt i)) = stored.toFinset.card := by
  have himage : ((stored.map fun i => Scalar.number (.ofInt i)).map Scalar.identity).toFinset =
      stored.toFinset.image fun i => (Scalar.number (.ofInt i)).identity := by
    ext v
    simp
  rw [countDistinct_eq, himage]
  refine Finset.card_image_of_injOn fun i hi j _ e => ?_
  exact (Scalar.identity_ofInt_inj (h i (by simpa using hi))).mp e

end Aggregate

namespace Query

variable {view : CatalogView} {document : Json} {answer : Answer} {row : Row} {q : Query}
  {store : RecordStore} {members : List Record} {key : String}

/-! ### Rules and groups -/

/-- A rule of an accepted document is found by its name, which is no key of GROUP. -/
theorem find?_name_of_mem (hq : Spells document q) {rule : NamedRule}
    (hrule : rule ∈ applyRules document) :
    (applyRules document).find? (·.name == rule.name) = some rule ∧
      rule.name ∉ groupKeys document ∧ document.get? "TRANSFORMATIONS" ≠ none := by
  rcases ht : q.transformation with - | t
  · rw [applyRules, get?_eq_none_of_transformation hq ht] at hrule
    cases hrule
  · obtain ⟨w, hw, hspells⟩ := exists_spellsTransformation hq ht
    have hnames := map_name_applyRules hw hspells
    have hnodup : ((applyRules document).map NamedRule.name).Nodup := hnames ▸ hspells.names
    refine ⟨?_, ?_, by rw [hw]; exact Option.some_ne_none w⟩
    · -- names are distinct, so the first rule of the name is the rule
      rcases hfind : (applyRules document).find? (·.name == rule.name) with - | found
      · exact absurd (List.find?_eq_none.mp hfind rule hrule) (by simp)
      · have hname : found.name = rule.name := by simpa using List.find?_some hfind
        rw [hfind, List.inj_on_of_nodup_map hnodup (List.mem_of_find?_eq_some hfind) hrule hname]
    · have hmem : rule.name ∈ t.apply.map ApplyRule.name := hnames ▸ List.mem_map_of_mem hrule
      obtain ⟨r, hr, hname⟩ := List.mem_map.mp hmem
      rw [groupKeys_eq hw hspells, ← hname]
      exact hspells.fresh r hr

/-- The value under the name of a rule is its aggregate over the members. -/
theorem classValue_of_mem_applyRules (hq : Spells document q) {rule : NamedRule}
    (hrule : rule ∈ applyRules document) (members : List Record) :
    classValue document members rule.name =
      some (rule.aggregate.apply (members.filterMap (·.named? rule.key))) := by
  obtain ⟨hfind, hgroup, hgrouped⟩ := find?_name_of_mem hq hrule
  obtain ⟨w, hw⟩ := Option.ne_none_iff_exists'.mp hgrouped
  rw [classValue, hw]
  show groupedValue document members rule.name = _
  rw [groupedValue, if_neg hgroup, hfind, Option.map_some]

/-- Members of one class have values of one identity under the keys of GROUP. -/
theorem identity_eq_of_mem_classes (hq : Spells document q) {records : List Record}
    (hkind : ∀ r ∈ records, r.kind = q.kind) (h : members ∈ classes document records)
    (hkey : key ∈ groupKeys document) {a b : Record} (ha : a ∈ members) (hb : b ∈ members) :
    (a.named? key).map Scalar.identity = (b.named? key).map Scalar.identity := by
  rcases ht : q.transformation with - | t
  · rw [groupKeys, get?_eq_none_of_transformation hq ht] at hkey
    cases hkey
  · obtain ⟨w, hw, hspells⟩ := exists_spellsTransformation hq ht
    have hsub := (of_mem_classes h).2
    have hsome {r : Record} (hr : r ∈ members) :
        ∀ key ∈ groupKeys document, (r.named? key).map Scalar.identity ≠ none := fun key hkey => by
      simpa using named?_ne_none_of_mem_groupKeys hw hspells (hkind r (hsub.mem hr)) hkey
    have htuple := tupleOf_eq_of_mem_classes (by rw [hw]; exact Option.some_ne_none w) h ha hb
    exact (filterMap_eq_filterMap_iff (hsome ha) (hsome hb)).mp htuple key hkey

/-! ### Rows -/

/-- If one member stores an integer under the key, the values of all are stored integers. -/
theorem filterMap_named?_of_mem (hkind : ∀ r ∈ members, r.kind = q.kind) {r : Record}
    (hr : r ∈ members) {i : Int} (hi : r.stored? key = some i) :
    members.filterMap (·.named? key) =
      (members.filterMap (·.stored? key)).map fun i => .number (.ofInt i) :=
  filterMap_named?_eq fun s hs =>
    Record.exists_stored?_of_kind_eq ((hkind r hr).trans (hkind s hs).symm) hi

/-- The numbers among the values of integers are all of them. -/
theorem filterMap_number?_map (stored : List Int) :
    (stored.map fun i => Scalar.number (.ofInt i)).filterMap Scalar.number? =
      stored.map Binary64.ofInt := by
  have hnumber : (Scalar.number? ∘ fun i => Scalar.number (.ofInt i)) = some ∘ Binary64.ofInt :=
    funext fun i => by rw [Function.comp_apply, Scalar.number?, Function.comp_apply]
  rw [List.filterMap_map, hnumber, List.filterMap_eq_map]

/-- Members of a group store the same integer under a key of it, if one is exact. -/
theorem eq_of_mem_groupKeys (hq : Spells document q) {records : List Record}
    (hkind : ∀ r ∈ records, r.kind = q.kind) (hclass : members ∈ classes document records)
    (hkey : key ∈ groupKeys document) {a b : Record} (ha : a ∈ members) (hb : b ∈ members)
    {i j : Int} (hi : a.stored? key = some i) (hj : b.stored? key = some j) (hexact : IsExact i) :
    i = j := by
  have hidentity := identity_eq_of_mem_classes hq hkind hclass hkey ha hb
  rw [Record.named?_of_stored? hi, Record.named?_of_stored? hj, Option.map_some,
    Option.map_some, Option.some.injEq] at hidentity
  exact (Scalar.identity_ofInt_inj hexact).mp hidentity

/-- The value of a field in the row of a class is the integer of every member, if it is exact. -/
theorem classValue_of_stored? (hq : Spells document q) {records : List Record}
    (hkind : ∀ r ∈ records, r.kind = q.kind) (hclass : members ∈ classes document records)
    (hfield : document.get? "TRANSFORMATIONS" = none ∨ key ∈ groupKeys document) {r : Record}
    (hr : r ∈ members) {i : Int} (hi : r.stored? key = some i) (hexact : IsExact i) :
    classValue document members key = some (.number (.ofInt i)) := by
  obtain ⟨hne, hsub⟩ := of_mem_classes hclass
  -- the first member stands for the class
  obtain ⟨first, rest, rfl⟩ := List.exists_cons_of_ne_nil hne
  have hfirst : first.kind = r.kind :=
    (hkind first (hsub.mem List.mem_cons_self)).trans (hkind r (hsub.mem hr)).symm
  obtain ⟨j, hj⟩ := Record.exists_stored?_of_kind_eq hfirst.symm hi
  rw [classValue]
  split
  · rename_i hplain
    rw [classes, hplain] at hclass
    obtain ⟨s, -, hs⟩ := List.mem_map.mp hclass
    obtain ⟨rfl, rfl⟩ := List.cons.inj hs
    obtain rfl := List.mem_singleton.mp hr
    exact Record.named?_of_stored? hi
  · rename_i w hw
    have hkey : key ∈ groupKeys document :=
      hfield.resolve_left (by rw [hw]; exact Option.some_ne_none w)
    obtain rfl := eq_of_mem_groupKeys hq hkind hclass hkey hr List.mem_cons_self hi hj hexact
    rw [groupedValue, if_pos hkey]
    exact Record.named?_of_stored? hj

/-! ### Aggregates of stored integers -/

theorem stored_eq (members : List Record) (key : String) :
    {j | ∃ r ∈ members, r.stored? key = some j} = {j | j ∈ members.filterMap (·.stored? key)} :=
  Set.ext fun _ => List.mem_filterMap.symm

theorem apply_max_ofInt (hkind : ∀ r ∈ members, r.kind = q.kind) {i : Int} (hexact : IsExact i)
    (h : IsGreatest {j | ∃ r ∈ members, r.stored? key = some j} i) :
    Aggregate.max.apply (members.filterMap (·.named? key)) = .number (.ofInt i) := by
  obtain ⟨r, hr, hi⟩ := h.1
  rw [stored_eq] at h
  rw [filterMap_named?_of_mem hkind hr hi, Aggregate.apply, filterMap_number?_map,
    Binary64.foldl_larger_ofInt hexact h.1 fun j hj => h.2 hj]

theorem apply_min_ofInt (hkind : ∀ r ∈ members, r.kind = q.kind) {i : Int} (hexact : IsExact i)
    (h : IsLeast {j | ∃ r ∈ members, r.stored? key = some j} i) :
    Aggregate.min.apply (members.filterMap (·.named? key)) = .number (.ofInt i) := by
  obtain ⟨r, hr, hi⟩ := h.1
  rw [stored_eq] at h
  rw [filterMap_named?_of_mem hkind hr hi, Aggregate.apply, filterMap_number?_map,
    Binary64.foldl_smaller_ofInt hexact h.1 fun j hj => h.2 hj]

theorem apply_count_ofInt (hexact : ∀ r ∈ members, ∃ i, r.stored? key = some i ∧ IsExact i) :
    Aggregate.count.apply (members.filterMap (·.named? key)) =
      .number (.ofInt (members.filterMap (·.stored? key)).toFinset.card) := by
  rw [filterMap_named?_eq fun r hr => (hexact r hr).imp fun _ => And.left, Aggregate.apply,
    Aggregate.countDistinct_ofInt]
  intro i hi
  obtain ⟨r, hr, hi⟩ := List.mem_filterMap.mp hi
  obtain ⟨j, hj, hexact⟩ := hexact r hr
  obtain rfl := Option.some.inj (hi.symm.trans hj)
  exact hexact

/-- **The row of a class keeps integers.** -/
theorem keepsIntegers_of_gives (hq : Spells document q) {records : List Record}
    (hkind : ∀ r ∈ records, r.kind = q.kind) (hclass : members ∈ classes document records)
    (hgives : row.Gives (columnKeys document) (classValue document members)) :
    KeepsIntegers document members row := by
  have hkinds : ∀ r ∈ members, r.kind = q.kind := fun r hr =>
    hkind r ((of_mem_classes hclass).2.mem hr)
  have hrule : ∀ rule ∈ applyRules document, rule.name ∈ columnKeys document →
      row.get? rule.name =
        some (rule.aggregate.apply (members.filterMap (·.named? rule.key))) := by
    intro rule hrule hcolumn
    obtain ⟨v, hvalue, hget⟩ := hgives.given rule.name hcolumn
    rw [hget, ← hvalue]
    exact classValue_of_mem_applyRules hq hrule members
  refine ⟨?column, ?together, ?greatest, ?least, ?count⟩
  case column =>
    intro key hcolumn hfield r hr i hi
    obtain ⟨v, hvalue, hget⟩ := hgives.given key hcolumn
    refine ⟨v, hget, Scalar.isExact_of_toJson, fun hexact => ?_⟩
    rw [classValue_of_stored? hq hkind hclass hfield hr hi hexact] at hvalue
    rw [← Option.some.inj hvalue]
    exact Scalar.toJson_ofInt hexact
  case together =>
    exact fun key hkey a ha b hb i j => eq_of_mem_groupKeys hq hkind hclass hkey ha hb
  case greatest =>
    intro rule hmem hmax hcolumn i hexact hgreatest
    have happly := apply_max_ofInt hkinds hexact hgreatest
    exact ⟨_, hrule rule hmem hcolumn, hmax ▸ happly ▸ Scalar.toJson_ofInt hexact⟩
  case least =>
    intro rule hmem hmin hcolumn i hexact hleast
    have happly := apply_min_ofInt hkinds hexact hleast
    exact ⟨_, hrule rule hmem hcolumn, hmin ▸ happly ▸ Scalar.toJson_ofInt hexact⟩
  case count =>
    intro rule hmem hcount hcolumn hexact
    rw [hrule rule hmem hcolumn, hcount, apply_count_ofInt hexact]

/-! ### Literals -/

/-- An integer literal matches the records that store the integer, if one of both is exact. -/
theorem satisfies_equals_iff {r : Record} {n i : Int} (hi : r.stored? key = some i)
    (hexact : IsExact i ∨ IsExact n) : r.Satisfies (equals key n) ↔ i = n := by
  have heq : (Binary64.ofInt i).eq (.ofInt n) = true ↔ i = n :=
    hexact.elim (fun hi => Binary64.eq_ofInt_left hi) fun hn => Binary64.eq_ofInt hn
  rw [equals, Record.satisfies_leaf (by decide)]
  unfold Record.Compares
  rw [Record.named?_of_stored? hi]
  -- of the three tags only that of equality is left
  simpa [Json.ofInt, Json.Number.toBinary64] using heq

/-- A WHERE that is an exact literal selects the records that store it. -/
theorem matching_equals {n : Int} (hwhere : document.get? "WHERE" = some (equals key n))
    (hn : IsExact n) (hstored : ∀ r ∈ store.records.toList, r.stored? key ≠ none) :
    matching document store = store.records.toList.filter fun r => r.stored? key = some n := by
  rw [matching]
  refine List.filter_congr fun r hr => ?_
  obtain ⟨i, hi⟩ := Option.ne_none_iff_exists'.mp (hstored r hr)
  have hsatisfies := satisfies_equals_iff (n := n) hi (.inr hn)
  have hmatches : Matches document r ↔ r.stored? key = some n := by
    rw [hi, Option.some.injEq, ← hsatisfies, Matches, hwhere]
    constructor
    · rintro ⟨filter, hfilter, hempty | h⟩
      · rw [← Option.some.inj hfilter] at hempty
        cases hempty
      · rwa [Option.some.inj hfilter]
    · exact fun h => ⟨_, rfl, .inr h⟩
  rw [decide_eq_decide]
  exact hmatches

/-- **Exact integers survive a query.**  Every row of an answer is that of a class of records, and
keeps the integers that these store; a literal matches the records that store its integer.  A filter
that is such a literal selects just these. -/
theorem answer_integers (h : view.answer document = .ok answer) :
    ∃ store rows, view answer.dataset = some store ∧ answer.rows.Perm rows ∧
      List.Forall₂ (KeepsIntegers document) (classes document (matching document store)) rows ∧
      (∀ r ∈ store.records.toList, ∀ key i n, r.stored? key = some i → IsExact i ∨ IsExact n →
        (r.Satisfies (equals key n) ↔ i = n)) ∧
      ∀ key n, document.get? "WHERE" = some (equals key n) → IsExact n →
        (∀ r ∈ store.records.toList, r.stored? key ≠ none) →
          matching document store =
            store.records.toList.filter fun r => r.stored? key = some n := by
  obtain ⟨q, store, rows, hq, -, hstore, hkind, hrows, hperm⟩ := rows_of_answer h
  have hspells := (spells_of_ofJson hq).2
  have hkinds : ∀ r ∈ matching document store, r.kind = q.kind := fun r hr =>
    (kind_of_mem_matching hr).trans hkind
  refine ⟨store, rows, hstore, hperm, ?_, ?_, ?_⟩
  · rw [List.forall₂_iff_get] at hrows ⊢
    obtain ⟨hlength, hgives⟩ := hrows
    exact ⟨hlength, fun n hn hn' =>
      keepsIntegers_of_gives hspells hkinds (List.get_mem _ _) (hgives n hn hn')⟩
  · exact fun r _ key i n hi hexact => satisfies_equals_iff hi hexact
  · exact fun key n hwhere hn hstored => matching_equals hwhere hn hstored

/-- A section that the given number of students passed. -/
def samplePassed (uuid : String) (passed : Int) : Record :=
  .course ⟨"cpsc", "310", "", "", 0, passed, 0, 0, uuid, 2015⟩

/-- Sections with one small and one large number. -/
def samplePassedStore : RecordStore where
  kind := .courses
  records := #[samplePassed "1" 50, samplePassed "2" 9007199254740993]
  ofKind := by decide
  distinct := by decide

/-- The numbers of students that passed. -/
def samplePassedDocument : Json :=
  .object [("WHERE", .object []), ("OPTIONS", .object [("COLUMNS", .array [.text "ubc_pass"])])]

theorem exists_answer_samplePassed :
    ∃ answer, (CatalogView.ofStore samplePassedStore).answer samplePassedDocument = .ok answer :=
  exists_answer_ofStore (by decide +kernel)
    (by simp [patternsOf, samplePassedDocument, Json.get?, Json.patterns]) (by decide)

theorem answer_integers_sample :
    ∃ answer, (CatalogView.ofStore samplePassedStore).answer samplePassedDocument = .ok answer ∧
      ∃ store rows, CatalogView.ofStore samplePassedStore answer.dataset = some store ∧
        answer.rows.Perm rows ∧
        List.Forall₂ (KeepsIntegers samplePassedDocument)
          (classes samplePassedDocument (matching samplePassedDocument store)) rows ∧
        (∀ r ∈ store.records.toList, ∀ key i n, r.stored? key = some i → IsExact i ∨ IsExact n →
          (r.Satisfies (equals key n) ↔ i = n)) ∧
        ∀ key n, samplePassedDocument.get? "WHERE" = some (equals key n) → IsExact n →
          (∀ r ∈ store.records.toList, r.stored? key ≠ none) →
            matching samplePassedDocument store =
              store.records.toList.filter fun r => r.stored? key = some n := by
  obtain ⟨answer, h⟩ := exists_answer_samplePassed
  exact ⟨answer, h, answer_integers h⟩

/-- A large integer that a record stores is not what the row of the record holds. -/
theorem large_integer_rounded :
    ∃ answer, (CatalogView.ofStore samplePassedStore).answer samplePassedDocument = .ok answer ∧
      ∃ row ∈ answer.rows, row.Gives (columnKeys samplePassedDocument)
          (samplePassed "2" 9007199254740993).named? ∧
        (samplePassed "2" 9007199254740993).stored? "ubc_pass" = some 9007199254740993 ∧
        ∃ v, row.get? "ubc_pass" = some v ∧ v.toJson ≠ .ofInt 9007199254740993 ∧
          v.toJson.chars = "9007199254740992.0".toList := by
  obtain ⟨answer, h⟩ := exists_answer_samplePassed
  refine ⟨answer, h, ?_⟩
  obtain ⟨q, store, rows, -, -, hstore, -, hrows, hperm⟩ := rows_of_answer h
  have hclass : [samplePassed "2" 9007199254740993] ∈
      classes samplePassedDocument (matching samplePassedDocument store) := by
    rw [CatalogView.eq_of_ofStore hstore, matching_eq_records rfl]
    exact List.mem_cons_of_mem _ List.mem_cons_self
  obtain ⟨row, hrow, hgives⟩ : ∃ row ∈ rows, row.Gives (columnKeys samplePassedDocument)
      (classValue samplePassedDocument [samplePassed "2" 9007199254740993]) :=
    exists_of_mem_forall₂ hrows.flip hclass
  have hstored : (samplePassed "2" 9007199254740993).stored? "ubc_pass" =
      some 9007199254740993 := by decide +kernel
  have hvalue : classValue samplePassedDocument [samplePassed "2" 9007199254740993] =
      (samplePassed "2" 9007199254740993).named? := rfl
  rw [hvalue] at hgives
  obtain ⟨v, hv, hget⟩ := hgives.given "ubc_pass" (by decide +kernel)
  rw [Record.named?_of_stored? hstored, Option.some.injEq] at hv
  refine ⟨row, hperm.mem_iff.mpr hrow, hgives, hstored, v, hget, fun hjson => ?_, ?_⟩
  · exact absurd (Scalar.isExact_of_toJson hjson) (by decide)
  · rw [← hv]
    decide +kernel

end Query

end CampusQuery
