/-
CampusQuery/Proofs/Answer/Finer.lean

Groups by one field more.

A group stands where its first record stands, so groups are given by the records that are the first
with their tuple (`Transformation.rows_eq_firsts`).  Grouping by one field more gives tuples that
differ wherever they did before.  Therefore the first records of the groups are the first among the
first records of the finer groups (`Partition.firsts_firsts`), and as the row of a group has the
values of the first record under its keys, the finer rows tell all about the coarser ones but their
aggregates.  Counting different values is the aggregate that they tell as well: within a group,
different values of the field are different finer groups (`length_firsts_finer`).

The sign of zero is why rows are compared by the sameness of values and not as they are: one group
may have finer groups whose first records hold different zeros.
-/
import CampusQuery.Proofs.Answer.Extremes

namespace CampusQuery

/-! ### Repetitions -/

namespace Partition

variable {α β : Type} {same : α → α → Bool} {key key' : Record → List Scalar}
  {records : List Record} {r : Record}

theorem eraseDupsBy_cons (same : α → α → Bool) (a : α) (l : List α) :
    (a :: l).eraseDupsBy same = a :: (l.filter fun b => !same b a).eraseDupsBy same := by
  rw [List.eraseDupsBy_cons]
  simp only [Bool.decide_eq_false]

/-- Induction along a list in which every element drops the later ones that repeat it. -/
theorem repeats_induction (same : α → α → Bool) {motive : List α → Prop} (nil : motive [])
    (cons : ∀ a l, motive (l.filter fun b => !same b a) → motive (a :: l)) (l : List α) :
    motive l :=
  match l with
  | [] => nil
  | a :: l => cons a l (repeats_induction same nil cons _)
termination_by l.length
decreasing_by exact Nat.lt_succ_of_le (List.length_filter_le _ _)

theorem mem_of_mem_eraseDupsBy {l : List α} {a : α} (h : a ∈ l.eraseDupsBy same) : a ∈ l := by
  induction l using repeats_induction same with
  | nil => cases h
  | cons b l ih =>
    rw [eraseDupsBy_cons, List.mem_cons] at h
    rcases h with rfl | h
    · exact List.mem_cons_self
    · exact List.mem_cons_of_mem _ (List.mem_of_mem_filter (ih h))

/-- Repetitions are dropped from the images where elements repeat each other just if their
images do. -/
theorem eraseDupsBy_map {f : α → β} {sameImage : β → β → Bool} {l : List α}
    (h : ∀ a ∈ l, ∀ b ∈ l, sameImage (f a) (f b) = same a b) :
    (l.map f).eraseDupsBy sameImage = (l.eraseDupsBy same).map f := by
  induction l using repeats_induction same with
  | nil => rfl
  | cons a l ih =>
    have hfilter : (l.map f).filter (fun b => !sameImage b (f a)) =
        (l.filter fun b => !same b a).map f := by
      rw [List.filter_map]
      refine congrArg _ (List.filter_congr fun b hb => ?_)
      rw [Function.comp_apply, h b (List.mem_cons_of_mem _ hb) a List.mem_cons_self]
    have hmem {b : α} (hb : b ∈ l.filter fun b => !same b a) : b ∈ a :: l :=
      List.mem_cons_of_mem _ (List.mem_of_mem_filter hb)
    rw [List.map_cons, eraseDupsBy_cons, eraseDupsBy_cons, List.map_cons, hfilter,
      ih fun b hb c hc => h b (hmem hb) c (hmem hc)]

/-- A test that does not tell repetitions apart may come before they are dropped. -/
theorem filter_eraseDupsBy {p : α → Bool} {l : List α}
    (hp : ∀ a ∈ l, ∀ b ∈ l, same b a = true → p b = p a) :
    (l.eraseDupsBy same).filter p = (l.filter p).eraseDupsBy same := by
  induction l using repeats_induction same with
  | nil => rfl
  | cons a l ih =>
    have hmem {b : α} (hb : b ∈ l.filter fun b => !same b a) : b ∈ a :: l :=
      List.mem_cons_of_mem _ (List.mem_of_mem_filter hb)
    rw [eraseDupsBy_cons, List.filter_cons, List.filter_cons,
      ih fun b hb c hc => hp b (hmem hb) c (hmem hc), List.filter_filter]
    split
    · rw [eraseDupsBy_cons, List.filter_filter]
      simp only [Bool.and_comm]
    · -- what repeats an element that fails the test fails it as well
      rename_i ha
      refine congrArg _ (List.filter_congr fun b hb => ?_)
      rcases hsame : same b a with - | -
      · rw [Bool.not_false, Bool.and_true]
      · rw [hp a List.mem_cons_self b (List.mem_cons_of_mem _ hb) hsame,
          Bool.eq_false_of_not_eq_true ha, Bool.false_and]

/-- The records whose key no earlier record has. -/
def firsts (key : Record → List Scalar) (records : List Record) : List Record :=
  records.eraseDupsBy fun a b => key a == key b

theorem firsts_cons (key : Record → List Scalar) (r : Record) (records : List Record) :
    firsts key (r :: records) = r :: firsts key (records.filter fun s => !(key s == key r)) :=
  eraseDupsBy_cons _ r records

theorem mem_of_mem_firsts (h : r ∈ firsts key records) : r ∈ records := mem_of_mem_eraseDupsBy h

theorem map_firsts (key : Record → List Scalar) (records : List Record) :
    (firsts key records).map key = (records.map key).eraseDups :=
  (eraseDupsBy_map fun _ _ _ _ => rfl).symm

theorem filter_firsts {p : Record → Bool}
    (hp : ∀ a ∈ records, ∀ b ∈ records, key b = key a → p b = p a) :
    (firsts key records).filter p = firsts key (records.filter p) :=
  filter_eraseDupsBy fun a ha b hb hab => hp a ha b hb (beq_iff_eq.mp hab)

/-- Among the records with its key, a first record is the first. -/
theorem exists_filter_eq_cons (h : r ∈ firsts key records) :
    ∃ rest, records.filter (key · == key r) = r :: rest := by
  induction records using repeats_induction (fun a b => key a == key b) with
  | nil => cases h
  | cons s records ih =>
    rw [firsts_cons, List.mem_cons] at h
    rcases h with rfl | h
    · exact ⟨_, List.filter_cons_of_pos (beq_self_eq_true _)⟩
    · obtain ⟨rest, hrest⟩ := ih h
      have hne := (List.mem_filter.mp (mem_of_mem_firsts h)).2
      rw [Bool.not_eq_true', beq_eq_false_iff_ne] at hne
      refine ⟨rest, ?_⟩
      rw [List.filter_cons_of_neg (by simpa using hne.symm), ← hrest, List.filter_filter]
      refine List.filter_congr fun t _ => ?_
      rcases ht : key t == key r with - | -
      · rw [Bool.false_and]
      · rw [beq_iff_eq.mp ht, beq_eq_false_iff_ne.mpr hne, Bool.not_false, Bool.and_true]

/-- **The first records by a coarser key** are the first among the first by a finer one. -/
theorem firsts_firsts (h : ∀ a ∈ records, ∀ b ∈ records, key' a = key' b → key a = key b) :
    firsts key (firsts key' records) = firsts key records := by
  induction records using repeats_induction (fun a b => key a == key b) with
  | nil => rfl
  | cons r records ih =>
    have hmem {s : Record} (hs : s ∈ records) : s ∈ r :: records := List.mem_cons_of_mem _ hs
    -- what has another key has another finer key, so the second filter drops nothing more
    have hkeep : ∀ s ∈ records,
        (!(key s == key r) && !(key' s == key' r)) = !(key s == key r) := by
      intro s hs
      rcases hkey : key' s == key' r with - | -
      · rw [Bool.not_false, Bool.and_true]
      · rw [h s (hmem hs) r List.mem_cons_self (beq_iff_eq.mp hkey), beq_self_eq_true,
          Bool.not_true, Bool.false_and]
    rw [firsts_cons, firsts_cons, firsts_cons, filter_firsts, List.filter_filter,
      List.filter_congr hkeep, ih]
    · exact fun a ha b hb => h a (hmem (List.mem_of_mem_filter ha)) b
        (hmem (List.mem_of_mem_filter hb))
    · intro a ha b hb hab
      rw [h b (hmem (List.mem_of_mem_filter hb)) a (hmem (List.mem_of_mem_filter ha)) hab]

end Partition

theorem Aggregate.countDistinct_eq_length (values : List Scalar) :
    countDistinct values = (values.map Scalar.identity).eraseDups.length := by
  rw [countDistinct_eq, ← List.toFinset_card_of_nodup (Partition.nodup_eraseDups _)]
  congr 1
  ext v
  rw [List.mem_toFinset, List.mem_toFinset, List.mem_eraseDups]

/-! ### Rows -/

namespace Scalar

instance (a b : Scalar) : Decidable (a.Same b) :=
  match a, b with
  | .number x, .number y => inferInstanceAs (Decidable (x.eq y = true))
  | .text s, .text t => inferInstanceAs (Decidable (s = t))
  | .number _, .text _ => .isFalse nofun
  | .text _, .number _ => .isFalse nofun

end Scalar

namespace Row

/-- The rows have the same value under each of the keys. -/
def SameOn (keys : List String) (a b : Row) : Prop :=
  ∀ key ∈ keys, Option.Rel Scalar.Same (a.get? key) (b.get? key)

instance (a b : Option Scalar) : Decidable (Option.Rel Scalar.Same a b) :=
  match a, b with
  | none, none => .isTrue .none
  | some _, some _ => decidable_of_iff _ Option.rel_some_some.symm
  | none, some _ => .isFalse nofun
  | some _, none => .isFalse nofun

instance (keys : List String) (a b : Row) : Decidable (SameOn keys a b) :=
  inferInstanceAs (Decidable (∀ key ∈ keys, _))

theorem sameOn_project {keys : List String} {a b : Row} :
    SameOn keys (a.project keys) (b.project keys) ↔ SameOn keys a b :=
  forall₂_congr fun key hkey => by rw [get?_project, get?_project, if_pos hkey, if_pos hkey]

variable {α : Type} {keyOf : α → String} {valueOf : α → Scalar} {items : List α}

theorem get?_foldl_insert_of_notMem {k : String} (h : k ∉ items.map keyOf) (row : Row) :
    (items.foldl (fun row i => row.insert (keyOf i) (valueOf i)) row).get? k = row.get? k := by
  induction items generalizing row with
  | nil => rfl
  | cons i items ih =>
    obtain ⟨hne, hrest⟩ := List.ne_and_not_mem_of_not_mem_cons h
    rw [List.foldl_cons, ih hrest, get?_insert, if_neg hne.symm]

/-- Where all keys differ, each keeps the value that it is set to. -/
theorem get?_foldl_insert_of_mem (h : (items.map keyOf).Nodup) {i : α} (hi : i ∈ items)
    (row : Row) : (items.foldl (fun row i => row.insert (keyOf i) (valueOf i)) row).get? (keyOf i) =
      some (valueOf i) := by
  induction items generalizing row with
  | nil => cases hi
  | cons j items ih =>
    obtain ⟨hnot, hrest⟩ := List.nodup_cons.mp h
    rw [List.foldl_cons]
    rcases List.mem_cons.mp hi with rfl | hi
    · rw [get?_foldl_insert_of_notMem hnot, get?_insert, if_pos rfl]
    · exact ih hrest hi _

end Row

/-- Records have values in all fields that keys name. -/
theorem Query.Names.exists_value? {id key : String} {kind : Kind} {field : Field} {r : Record}
    (h : Names id kind key field) (hr : r.kind = kind) : ∃ v, r.value? field = some v := by
  obtain ⟨name, -, hname⟩ := hr ▸ h
  exact Option.ne_none_iff_exists'.mp (value?_ne_none hname)

namespace Transformation

open Query (Names)

variable {id : String} {kind : Kind} {t t' : Transformation} {g : GroupKey} {rule : ApplyRule}
  {records rest : List Record} {r s : Record} {store : RecordStore}

/-- The keys of the groups and the names of the rules are as in accepted queries: a key names its
field of the dataset, and the names of rules are different ones without underscores. -/
structure Named (id : String) (kind : Kind) (t : Transformation) : Prop where
  group : ∀ g ∈ t.group, Names id kind g.key g.field
  names : (t.apply.map ApplyRule.name).Nodup
  plain : ∀ rule ∈ t.apply, '_' ∉ rule.name.toList

/-- The keys of the groups. -/
def keys (t : Transformation) : List String := t.group.map GroupKey.key

/-- Groups by one field more, and no rules. -/
def finer (t : Transformation) (g : GroupKey) : Transformation := ⟨t.group ++ [g], []⟩

theorem mem_finer (t : Transformation) (g : GroupKey) : ∀ h ∈ t.group, h ∈ (t.finer g).group :=
  fun _ => List.mem_append_left [g]

theorem Named.finer (ht : t.Named id kind) (hg : Names id kind g.key g.field) :
    (t.finer g).Named id kind where
  group := by
    intro g' hg'
    rcases List.mem_append.mp hg' with hg' | hg'
    · exact ht.group g' hg'
    · exact List.mem_singleton.mp hg' ▸ hg
  names := List.nodup_nil
  plain := nofun

/-- The row of a group has the values of the first record under the keys. -/
theorem Named.get?_key (ht : t.Named id kind) (hr : r.kind = kind) (hg : g ∈ t.group) :
    (t.row (r :: rest)).get? g.key = r.value? g.field := by
  have hnamed : ∀ g ∈ t.group, r.value? g.field = r.named? g.key ∧ r.value? g.field ≠ none := by
    intro g hg
    obtain ⟨v, hv⟩ := (ht.group g hg).exists_value? hr
    exact ⟨(hr ▸ ht.group g hg).named?.symm, hv ▸ Option.some_ne_none v⟩
  have hfresh : g.key ∉ t.apply.map ApplyRule.name := by
    rw [List.mem_map]
    rintro ⟨rule, hrule, e⟩
    exact ht.plain rule hrule (e ▸ Query.Grammar.mem_toList_of_names (ht.group g hg))
  rw [row, Row.get?_foldl_insert_of_notMem hfresh, Row.get?_foldl_insert? hnamed,
    if_pos (List.mem_map_of_mem hg), (hnamed g hg).1]

/-- The row of a group has the aggregate of a rule under its name. -/
theorem Named.get?_name (ht : t.Named id kind) (hrule : rule ∈ t.apply) (members : List Record) :
    (t.row members).get? rule.name =
      some (rule.aggregate.apply (members.filterMap (·.value? rule.field))) :=
  Row.get?_foldl_insert_of_mem ht.names hrule _

/-! ### Groups by their first records -/

open CampusQuery.Partition (firsts)

/-- What the rows of groups have under the keys if `r` is the first record. -/
def keyRow (t : Transformation) (r : Record) : Row := (t.row [r]).project t.keys

theorem rows_eq_firsts (t : Transformation) (records : List Record) :
    t.rows records =
      (firsts t.tuple records).map fun r => t.row (records.filter (t.tuple · == t.tuple r)) := by
  rw [rows, t.partition_eq, ← Partition.map_firsts, List.map_map, List.map_map]
  rfl

/-- Narrowed to some of its keys, the row of a group depends on the first record only. -/
theorem Named.project_row (ht : t.Named id kind) (ht' : t'.Named id kind)
    (hsub : ∀ g ∈ t.group, g ∈ t'.group) (hkind : ∀ r ∈ records, r.kind = kind)
    (hr : r ∈ firsts t'.tuple records) :
    (t'.row (records.filter (t'.tuple · == t'.tuple r))).project t.keys = t.keyRow r := by
  obtain ⟨rest, hrest⟩ := Partition.exists_filter_eq_cons hr
  have hr' := hkind r (Partition.mem_of_mem_firsts hr)
  rw [hrest]
  refine Row.project_congr fun key hkey => ?_
  obtain ⟨g, hg, rfl⟩ := List.mem_map.mp hkey
  rw [ht'.get?_key hr' (hsub g hg), ht.get?_key hr' hg]

theorem Named.map_project_rows (ht : t.Named id kind) (ht' : t'.Named id kind)
    (hsub : ∀ g ∈ t.group, g ∈ t'.group) (hkind : ∀ r ∈ records, r.kind = kind) :
    (t'.rows records).map (·.project t.keys) = (firsts t'.tuple records).map t.keyRow := by
  rw [rows_eq_firsts, List.map_map]
  exact List.map_congr_left fun r hr => ht.project_row ht' hsub hkind hr

/-- Rows have the same values under the keys just if their first records have one tuple. -/
theorem Named.sameOn_keyRow (ht : t.Named id kind) (hkind : ∀ r ∈ records, r.kind = kind)
    (hnumber : ∀ r ∈ records, ∀ field, r.value? field ≠ some (.number .notANumber))
    (hr : r ∈ records) (hs : s ∈ records) :
    decide ((t.keyRow r).SameOn t.keys (t.keyRow s)) = (t.tuple r == t.tuple s) := by
  have hvalue {r : Record} (hr : r ∈ records) :
      ∀ g ∈ t.group, (r.value? g.field).map Scalar.identity ≠ none := by
    intro g hg
    obtain ⟨v, hv⟩ := (ht.group g hg).exists_value? (hkind r hr)
    rw [hv]
    exact Option.some_ne_none v.identity
  rw [Bool.eq_iff_iff, decide_eq_true_iff, beq_iff_eq, keyRow, keyRow, Row.sameOn_project, tuple,
    tuple, Query.filterMap_eq_filterMap_iff (hvalue hr) (hvalue hs), Row.SameOn, keys,
    List.forall_mem_map]
  refine forall₂_congr fun g hg => ?_
  obtain ⟨x, hx⟩ := (ht.group g hg).exists_value? (hkind r hr)
  obtain ⟨y, hy⟩ := (ht.group g hg).exists_value? (hkind s hs)
  rw [ht.get?_key (hkind r hr) hg, ht.get?_key (hkind s hs) hg, hx, hy, Option.map_some,
    Option.map_some, Option.some.injEq, Option.rel_some_some]
  exact (Scalar.identity_eq_iff (fun e => hnumber r hr g.field (hx.trans (congrArg some e)))
    fun e => hnumber s hs g.field (hy.trans (congrArg some e))).symm

/-! ### Finer groups -/

/-- The tuple by one field more. -/
theorem tuple_finer (t : Transformation) (g : GroupKey) (r : Record) :
    (t.finer g).tuple r = t.tuple r ++ ((r.value? g.field).map Scalar.identity).toList := by
  rw [tuple, finer, List.filterMap_append, tuple, List.filterMap_cons, List.filterMap_nil]
  cases (r.value? g.field).map Scalar.identity <;> rfl

theorem tuple_eq_of_finer (hg : Names id kind g.key g.field)
    (hkind : ∀ r ∈ records, r.kind = kind) : ∀ r ∈ records, ∀ s ∈ records,
      (t.finer g).tuple r = (t.finer g).tuple s → t.tuple r = t.tuple s := by
  intro r hr s hs h
  obtain ⟨v, hv⟩ := hg.exists_value? (hkind r hr)
  obtain ⟨w, hw⟩ := hg.exists_value? (hkind s hs)
  rw [tuple_finer, tuple_finer, hv, hw] at h
  exact (List.append_inj' h rfl).1

/-- In a group, the finer groups are as many as there are different values. -/
theorem length_firsts_finer {tuple : List Scalar} (hg : Names id kind g.key g.field)
    (hkind : ∀ r ∈ records, r.kind = kind) (htuple : ∀ r ∈ records, t.tuple r = tuple) :
    (firsts (t.finer g).tuple records).length =
      Aggregate.countDistinct (records.filterMap (·.value? g.field)) := by
  have hkeys : records.map (t.finer g).tuple =
      ((records.filterMap (·.value? g.field)).map Scalar.identity).map (tuple ++ [·]) := by
    rw [List.map_filterMap, List.map_filterMap, ← List.filterMap_eq_map]
    refine List.filterMap_congr fun r hr => ?_
    obtain ⟨v, hv⟩ := hg.exists_value? (hkind r hr)
    rw [Function.comp_apply, tuple_finer, htuple r hr, hv]
    rfl
  -- within the group tuples differ in the last place only
  have hinj (a b : Scalar) : (tuple ++ [a] == tuple ++ [b]) = (a == b) := by
    rw [Bool.eq_iff_iff, beq_iff_eq, beq_iff_eq, List.append_cancel_left_eq, List.singleton_inj]
  calc (firsts (t.finer g).tuple records).length
      = (records.map (t.finer g).tuple).eraseDups.length := by
        rw [← Partition.map_firsts, List.length_map]
    _ = ((records.filterMap (·.value? g.field)).map Scalar.identity).eraseDups.length := by
        rw [hkeys, List.eraseDups, Partition.eraseDupsBy_map fun a _ b _ => hinj a b,
          List.length_map]
        rfl
    _ = Aggregate.countDistinct (records.filterMap (·.value? g.field)) :=
        (Aggregate.countDistinct_eq_length _).symm

/-- The finer rows that have the values of a group under the keys are as many as there are different
values in the group. -/
theorem Named.countP_rows_finer (ht : t.Named id kind) (hg : Names id kind g.key g.field)
    (hkind : ∀ r ∈ records, r.kind = kind)
    (hnumber : ∀ r ∈ records, ∀ field, r.value? field ≠ some (.number .notANumber))
    (hr : r ∈ firsts t.tuple records) :
    ((t.finer g).rows records).countP (fun row => row.SameOn t.keys
        (t.row (records.filter (t.tuple · == t.tuple r)))) =
      Aggregate.countDistinct
        ((records.filter (t.tuple · == t.tuple r)).filterMap (·.value? g.field)) := by
  have hcoarser := tuple_eq_of_finer (t := t) hg hkind
  have hsame : ∀ s ∈ firsts (t.finer g).tuple records,
      decide (((t.finer g).row (records.filter ((t.finer g).tuple · == (t.finer g).tuple s))).SameOn
        t.keys (t.row (records.filter (t.tuple · == t.tuple r)))) = (t.tuple s == t.tuple r) := by
    intro s hs
    rw [← ht.sameOn_keyRow hkind hnumber (Partition.mem_of_mem_firsts hs)
        (Partition.mem_of_mem_firsts hr),
      ← ht.project_row (ht.finer hg) (t.mem_finer g) hkind hs,
      ← ht.project_row ht (fun _ hg => hg) hkind hr, decide_eq_decide, Row.sameOn_project]
  have htest : ∀ a ∈ records, ∀ b ∈ records, (t.finer g).tuple b = (t.finer g).tuple a →
      (t.tuple b == t.tuple r) = (t.tuple a == t.tuple r) :=
    fun a ha b hb hab => by rw [hcoarser b hb a ha hab]
  rw [← length_firsts_finer hg (fun s hs => hkind s (List.mem_of_mem_filter hs))
    fun s hs => beq_iff_eq.mp (List.mem_filter.mp hs).2, ← Partition.filter_firsts htest,
    rows_eq_firsts, List.countP_map, List.countP_eq_length_filter]
  exact congrArg List.length (List.filter_congr hsame)

/-- Without their repetitions on the keys, the finer rows are the rows. -/
theorem Named.eraseDupsBy_rows_finer (ht : t.Named id kind) (hg : Names id kind g.key g.field)
    (hkind : ∀ r ∈ records, r.kind = kind)
    (hnumber : ∀ r ∈ records, ∀ field, r.value? field ≠ some (.number .notANumber)) :
    (((t.finer g).rows records).map (·.project t.keys)).eraseDupsBy
        (fun a b => a.SameOn t.keys b) = (t.rows records).map (·.project t.keys) := by
  rw [ht.map_project_rows (ht.finer hg) (t.mem_finer g) hkind,
    ht.map_project_rows ht (fun _ hg => hg) hkind,
    Partition.eraseDupsBy_map fun r hr s hs => ht.sameOn_keyRow hkind hnumber
      (Partition.mem_of_mem_firsts hr) (Partition.mem_of_mem_firsts hs)]
  exact congrArg _ (Partition.firsts_firsts (tuple_eq_of_finer hg hkind))

theorem mem_of_mem_select {positions : Positions} (h : r ∈ store.select positions) :
    r ∈ store.records.toList := by
  obtain ⟨p, -, hp⟩ := List.mem_filterMap.mp h
  exact Array.mem_toList_iff.mpr (Array.mem_of_getElem? hp)

/-- **A count is the number of finer groups.**  Records are grouped by the keys of a transformation,
and once more by one field in addition.  What a rule that counts the values of this field gives in a
row is the number of those finer rows that have the same values under the keys.  Narrowed to the
keys and without repetitions, the finer rows are the rows narrowed to the keys, in the same
order. -/
theorem counts_finer_rows (hnumeric : store.Numeric) (ht : t.Named id store.kind)
    (hrule : rule ∈ t.apply) (hcount : rule.aggregate = .count)
    (hg : Names id store.kind g.key g.field) (hfield : rule.field = g.field)
    (positions : Positions) :
    (∀ row ∈ t.rows (store.select positions), ∃ n : ℕ,
        row.get? rule.name = some (.number (.ofInt n)) ∧
        (n ≤ 2 ^ 53 → (Binary64.ofInt n).value = n) ∧
        n = ((t.finer g).rows (store.select positions)).countP fun r => r.SameOn t.keys row) ∧
      (((t.finer g).rows (store.select positions)).map (·.project t.keys)).eraseDupsBy
          (fun a b => a.SameOn t.keys b) =
        (t.rows (store.select positions)).map (·.project t.keys) := by
  have hkind : ∀ r ∈ store.select positions, r.kind = store.kind :=
    fun r hr => store.ofKind r (mem_of_mem_select hr)
  have hnumber : ∀ r ∈ store.select positions,
      ∀ field, r.value? field ≠ some (.number .notANumber) :=
    fun r hr => hnumeric r (mem_of_mem_select hr)
  refine ⟨fun row hrow => ?_, ht.eraseDupsBy_rows_finer hg hkind hnumber⟩
  rw [rows_eq_firsts] at hrow
  obtain ⟨r, hr, rfl⟩ := List.mem_map.mp hrow
  have hname := ht.get?_name hrule ((store.select positions).filter (t.tuple · == t.tuple r))
  rw [hcount, hfield] at hname
  exact ⟨_, hname, Binary64.value_ofInt_natCast,
    (ht.countP_rows_finer hg hkind hnumber hr).symm⟩

/-- Three sections: two averages of zero with different signs, and a count that repeats. -/
def sampleZeros : RecordStore where
  kind := .courses
  records := #[.course ⟨"cpsc", "310", "", "", 0, 7, 0, 0, "1", 2015⟩,
    .course ⟨"cpsc", "310", "", "", .finite true 0, 8, 0, 0, "2", 2015⟩,
    .course ⟨"cpsc", "310", "", "", 0, 7, 0, 0, "3", 2015⟩]
  ofKind := by decide
  distinct := by decide

/-- The number of different counts for each average. -/
def sampleCounting : Transformation := ⟨[⟨"ubc_avg", .avg⟩], [⟨"sizes", .count, .pass⟩]⟩

theorem counts_finer_rows_sample :
    sampleZeros.Numeric ∧ sampleCounting.Named "ubc" .courses ∧
      Names "ubc" .courses "ubc_pass" .pass ∧
      (∀ row ∈ sampleCounting.rows (sampleZeros.select sampleZeros.positions), ∃ n : ℕ,
        row.get? "sizes" = some (.number (.ofInt n)) ∧
        (n ≤ 2 ^ 53 → (Binary64.ofInt n).value = n) ∧
        n = ((sampleCounting.finer ⟨"ubc_pass", .pass⟩).rows
          (sampleZeros.select sampleZeros.positions)).countP fun r => r.SameOn ["ubc_avg"] row) ∧
      (((sampleCounting.finer ⟨"ubc_pass", .pass⟩).rows
          (sampleZeros.select sampleZeros.positions)).map (·.project ["ubc_avg"])).eraseDupsBy
          (fun a b => a.SameOn ["ubc_avg"] b) =
        (sampleCounting.rows (sampleZeros.select sampleZeros.positions)).map
          (·.project ["ubc_avg"]) := by
  have hnumeric : sampleZeros.Numeric := by
    intro r hr field
    simp only [sampleZeros, List.mem_cons, List.not_mem_nil, or_false] at hr
    rcases hr with rfl | rfl | rfl <;> cases field <;> decide +kernel
  have hnames : sampleCounting.Named "ubc" .courses :=
    ⟨List.forall_mem_singleton.mpr ⟨"avg", by decide, by decide⟩, by decide, by decide⟩
  have hg : Names "ubc" .courses "ubc_pass" .pass := ⟨"pass", by decide, by decide⟩
  exact ⟨hnumeric, hnames, hg,
    counts_finer_rows (g := ⟨"ubc_pass", .pass⟩) hnumeric hnames List.mem_cons_self rfl hg rfl
      sampleZeros.positions⟩

end Transformation

end CampusQuery
