/-
CampusQuery/Proofs/Answer/Groups.lean

What the answer to a query with groups is.

The tuple of a record (`Query.tupleOf`) is what its values under the keys of GROUP are,
up to sameness; `tupleOf_eq_iff` says so.  The rows of the answer are those of the
different tuples, in the order in which the tuples appear, and the row of a tuple holds
what `Query.groupedValue` reads off the document for the records with that tuple.

Rows are sorted before they are narrowed to the columns.  As a query can only be ordered
by its columns, they may as well be narrowed first (`sort_map_project`).
-/
import CampusQuery.Proofs.Answer.Partition
import CampusQuery.Proofs.Answer.Records

namespace CampusQuery

/-! ### Meaning -/

namespace Query

/-- The tuple of a record: what its values under the keys of GROUP are taken as. -/
def tupleOf (document : Json) (r : Record) : List Scalar :=
  (groupKeys document).filterMap fun key => (r.named? key).map Scalar.identity

/-- The different tuples of records, in the order of their first appearance. -/
def tuplesOf (document : Json) (records : List Record) : List (List Scalar) :=
  (records.map (tupleOf document)).eraseDups

/-- The value under a key in the row of a group: of a key of GROUP that of the first
member, and of a rule the aggregate of its field over all members. -/
def groupedValue (document : Json) (members : List Record) (key : String) : Option Scalar :=
  if key ∈ groupKeys document then members.head?.bind (·.named? key)
  else ((applyRules document).find? (·.name == key)).map fun rule =>
    rule.aggregate.apply (members.filterMap (·.named? rule.key))

end Query

/-! ### Aggregates are numbers -/

namespace Binary64

theorem nearest_ne_notANumber (negative : Bool) (n d : Nat) :
    nearest negative n d ≠ .notANumber := by
  unfold nearest
  split <;> exact nofun

theorem ofScientific_ne_notANumber (negative : Bool) (c : Nat) (e : Int) :
    ofScientific negative c e ≠ .notANumber := by
  unfold ofScientific
  split <;> exact nofun

theorem compare?_eq_none {x y : Binary64} (h : x.compare? y = none) (hx : x ≠ .notANumber) :
    y = .notANumber := by
  rcases x with - | m | ⟨m, a⟩
  · exact absurd rfl hx
  all_goals
    rcases y with - | n | ⟨n, b⟩
    · rfl
    · cases h
    · cases h

theorem larger_ne_notANumber {x : Binary64} (y : Binary64) (hx : x ≠ .notANumber) :
    x.larger y ≠ .notANumber := by
  unfold larger
  split
  · exact hx
  · rename_i h
    rintro rfl
    cases x <;> cases h
  · rename_i h
    rw [if_pos (compare?_eq_none h hx)]
    exact hx

theorem smaller_ne_notANumber {x : Binary64} (y : Binary64) (hx : x ≠ .notANumber) :
    x.smaller y ≠ .notANumber := by
  unfold smaller
  split
  · exact hx
  · rename_i h
    rintro rfl
    cases x <;> cases h
  · rename_i h
    rw [if_pos (compare?_eq_none h hx)]
    exact hx

/-- A fold keeps to numbers if every step does. -/
theorem foldl_ne_notANumber {f : Binary64 → Binary64 → Binary64}
    (hf : ∀ {x : Binary64} (y : Binary64), x ≠ .notANumber → f x y ≠ .notANumber)
    {x : Binary64} (hx : x ≠ .notANumber) (numbers : List Binary64) :
    numbers.foldl f x ≠ .notANumber := by
  induction numbers generalizing x with
  | nil => exact hx
  | cons y numbers ih => exact ih (hf y hx)

end Binary64

/-- No aggregate is "not a number", whatever it is made of. -/
theorem Aggregate.apply_ne_notANumber (a : Aggregate) (values : List Scalar) :
    a.apply values ≠ .number .notANumber := by
  have hbottom : Binary64.bottom ≠ .notANumber := nofun
  have htop : Binary64.top ≠ .notANumber := nofun
  unfold apply
  rw [ne_eq, Scalar.number.injEq]
  cases a
  · exact Binary64.foldl_ne_notANumber Binary64.larger_ne_notANumber hbottom _
  · exact Binary64.foldl_ne_notANumber Binary64.smaller_ne_notANumber htop _
  · simp only [meanOf]
    split
    · exact nofun
    · exact Binary64.ofScientific_ne_notANumber _ _ _
  · exact Binary64.ofScientific_ne_notANumber _ _ _
  · exact Binary64.nearest_ne_notANumber _ _ _

namespace Query

variable {view : CatalogView} {document : Json} {store : RecordStore} {q : Query}
  {t : Transformation} {v : Json} {id : String} {kind : Kind}

/-! ### Tuples -/

theorem groupKeys_eq (hv : document.get? "TRANSFORMATIONS" = some v)
    (ht : SpellsTransformation id kind v t) : groupKeys document = t.group.map GroupKey.key := by
  rw [groupKeys, hv, Option.bind_some, ht.keys]

theorem tuple_eq_tupleOf (hv : document.get? "TRANSFORMATIONS" = some v)
    (ht : SpellsTransformation id kind v t) {r : Record} (hr : r.kind = kind) :
    t.tuple r = tupleOf document r := by
  rw [tupleOf, groupKeys_eq hv ht, List.filterMap_map, Transformation.tuple]
  refine List.filterMap_congr fun g hg => ?_
  have hnames := ht.group g hg
  rw [← hr] at hnames
  rw [Function.comp_apply, hnames.named?]

/-- The partition of a query is by the tuples that its document gives. -/
theorem partition_eq_tuplesOf (hv : document.get? "TRANSFORMATIONS" = some v)
    (ht : SpellsTransformation id kind v t) {records : List Record}
    (hkind : ∀ r ∈ records, r.kind = kind) :
    t.partition records = (tuplesOf document records).map fun tuple =>
      records.filter (tupleOf document · == tuple) := by
  have htuple : ∀ r ∈ records, t.tuple r = tupleOf document r := fun r hr =>
    tuple_eq_tupleOf hv ht (hkind r hr)
  rw [Transformation.partition_eq, List.map_congr_left htuple, tuplesOf]
  refine List.map_congr_left fun tuple _ => List.filter_congr fun r hr => ?_
  rw [htuple r hr]

/-- Every key of GROUP names a field of the dataset. -/
theorem named?_ne_none_of_mem_groupKeys (hv : document.get? "TRANSFORMATIONS" = some v)
    (ht : SpellsTransformation id kind v t) {r : Record} (hr : r.kind = kind) {key : String}
    (hkey : key ∈ groupKeys document) : r.named? key ≠ none := by
  rw [groupKeys_eq hv ht] at hkey
  obtain ⟨g, hg, rfl⟩ := List.mem_map.mp hkey
  have hnames := ht.group g hg
  rw [← hr] at hnames
  rw [hnames.named?]
  obtain ⟨name, -, hname⟩ := hnames
  exact value?_ne_none hname

theorem filterMap_eq_filterMap_iff {α β : Type} {f g : α → Option β} {l : List α}
    (hf : ∀ a ∈ l, f a ≠ none) (hg : ∀ a ∈ l, g a ≠ none) :
    l.filterMap f = l.filterMap g ↔ ∀ a ∈ l, f a = g a := by
  induction l with
  | nil => simp
  | cons a l ih =>
    rw [List.forall_mem_cons] at hf hg
    obtain ⟨x, hx⟩ := Option.ne_none_iff_exists'.mp hf.1
    obtain ⟨y, hy⟩ := Option.ne_none_iff_exists'.mp hg.1
    rw [List.filterMap_cons_some hx, List.filterMap_cons_some hy, List.cons.injEq,
      List.forall_mem_cons, ih hf.2 hg.2, hx, hy, Option.some.injEq]

/-- **Two records have one tuple if and only if they have the same values** under all keys of
GROUP. -/
theorem tupleOf_eq_iff (hv : document.get? "TRANSFORMATIONS" = some v)
    (ht : SpellsTransformation id kind v t) (hkind : store.kind = kind) (hnumeric : store.Numeric)
    {a b : Record} (ha : a ∈ matching document store) (hb : b ∈ matching document store) :
    tupleOf document a = tupleOf document b ↔
      ∀ key ∈ groupKeys document, Option.Rel Scalar.Same (a.named? key) (b.named? key) := by
  have hsome {r : Record} (hr : r ∈ matching document store) :
      ∀ key ∈ groupKeys document, r.named? key ≠ none := fun key hkey =>
    named?_ne_none_of_mem_groupKeys hv ht ((kind_of_mem_matching hr).trans hkind) hkey
  rw [tupleOf, tupleOf, filterMap_eq_filterMap_iff
    (fun key hkey => by simpa using hsome ha key hkey)
    (fun key hkey => by simpa using hsome hb key hkey)]
  -- no value is missing, so the tuples agree key by key
  refine forall₂_congr fun key hkey => ?_
  obtain ⟨x, hx⟩ := Option.ne_none_iff_exists'.mp (hsome ha key hkey)
  obtain ⟨y, hy⟩ := Option.ne_none_iff_exists'.mp (hsome hb key hkey)
  have hxn := named?_ne_notANumber hnumeric ha key
  have hyn := named?_ne_notANumber hnumeric hb key
  rw [hx] at hxn
  rw [hy] at hyn
  rw [hx, hy, Option.map_some, Option.map_some, Option.some.injEq, Option.rel_some_some]
  exact Scalar.identity_eq_iff (fun e => hxn (congrArg some e)) fun e => hyn (congrArg some e)

/-! ### Rows of groups -/

theorem applyRules_forall₂ (hv : document.get? "TRANSFORMATIONS" = some v)
    (ht : SpellsTransformation id kind v t) :
    List.Forall₂ (Applies id kind) (applyRules document) t.apply := by
  rw [applyRules, hv, Option.bind_some]
  exact ht.apply

/-- The first rule of a name is the one that the query has under it. -/
theorem exists_find?_of_applies {named : List NamedRule} {rules : List ApplyRule}
    (h : List.Forall₂ (Applies id kind) named rules) (hnodup : (rules.map ApplyRule.name).Nodup)
    {rule : ApplyRule} (hrule : rule ∈ rules) :
    ∃ n, named.find? (·.name == rule.name) = some n ∧ Applies id kind n rule := by
  induction h with
  | nil => cases hrule
  | @cons n first named rules hfirst _ ih =>
    rw [List.map_cons, List.nodup_cons] at hnodup
    rcases List.mem_cons.mp hrule with rfl | hrule
    · refine ⟨n, ?_, hfirst⟩
      rw [List.find?_cons_of_pos (by simp [hfirst.name])]
    · -- the names differ, so the search goes on
      have hne : n.name ≠ rule.name := by
        rw [hfirst.name]
        intro e
        exact hnodup.1 (e ▸ List.mem_map_of_mem hrule)
      rw [List.find?_cons_of_neg (by simpa using hne)]
      exact ih hnodup.2 hrule

theorem groupedValue_of_mem_group (hv : document.get? "TRANSFORMATIONS" = some v)
    (ht : SpellsTransformation id kind v t) {first : Record} {rest : List Record}
    (hkind : first.kind = kind) {g : GroupKey} (hg : g ∈ t.group) :
    first.value? g.field = groupedValue document (first :: rest) g.key ∧
      first.value? g.field ≠ none := by
  have hnames := ht.group g hg
  rw [← hkind] at hnames
  have hmem : g.key ∈ groupKeys document := by
    rw [groupKeys_eq hv ht]
    exact List.mem_map_of_mem hg
  rw [groupedValue, if_pos hmem, List.head?_cons, Option.bind_some, hnames.named?]
  obtain ⟨name, -, hname⟩ := hnames
  exact ⟨rfl, value?_ne_none hname⟩

theorem groupedValue_of_mem_apply (hv : document.get? "TRANSFORMATIONS" = some v)
    (ht : SpellsTransformation id kind v t) {members : List Record}
    (hkind : ∀ r ∈ members, r.kind = kind) {rule : ApplyRule} (hrule : rule ∈ t.apply) :
    some (rule.aggregate.apply (members.filterMap (·.value? rule.field))) =
      groupedValue document members rule.name := by
  have hnot : rule.name ∉ groupKeys document := by
    rw [groupKeys_eq hv ht]
    exact ht.fresh rule hrule
  obtain ⟨n, hfind, happlies⟩ :=
    exists_find?_of_applies (applyRules_forall₂ hv ht) ht.names hrule
  have hvalues : members.filterMap (·.named? n.key) = members.filterMap (·.value? rule.field) := by
    refine List.filterMap_congr fun r hr => ?_
    have hnames := happlies.field
    rw [← hkind r hr] at hnames
    exact hnames.named?
  rw [groupedValue, if_neg hnot, hfind, Option.map_some, happlies.aggregate, hvalues]

/-- The row of a group gives the columns what the document says of the group. -/
theorem gives_row (hv : document.get? "TRANSFORMATIONS" = some v)
    (ht : SpellsTransformation id kind v t) {members : List Record} (hne : members ≠ [])
    (hkind : ∀ r ∈ members, r.kind = kind) {columns : List String}
    (hcolumns : ∀ key ∈ columns, key ∈ columnNames t) :
    ((t.row members).project columns).Gives columns (groupedValue document members) := by
  obtain ⟨first, rest, rfl⟩ := List.exists_cons_of_ne_nil hne
  have hgroup : ∀ g ∈ t.group, first.value? g.field = groupedValue document (first :: rest) g.key ∧
      first.value? g.field ≠ none := fun g hg =>
    groupedValue_of_mem_group hv ht (hkind first List.mem_cons_self) hg
  have happly : ∀ rule ∈ t.apply,
      some (rule.aggregate.apply ((first :: rest).filterMap (·.value? rule.field))) =
          groupedValue document (first :: rest) rule.name ∧
        some (rule.aggregate.apply ((first :: rest).filterMap (·.value? rule.field))) ≠ none :=
    fun rule hrule => ⟨groupedValue_of_mem_apply hv ht hkind hrule, nofun⟩
  -- the rules are put in after the keys, and none of them has the name of a key
  have hrow (key : String) : (t.row (first :: rest)).get? key =
      if key ∈ t.apply.map ApplyRule.name then groupedValue document (first :: rest) key
      else if key ∈ t.group.map GroupKey.key then groupedValue document (first :: rest) key
      else none := by
    have hkeyed := Row.get?_foldl_insert? hgroup Row.empty key
    rw [Row.get?_empty] at hkeyed
    rw [← hkeyed]
    exact Row.get?_foldl_insert? happly _ key
  refine ⟨fun key hkey => ?_, fun key hkey => ?_⟩
  · rw [Row.get?_project, if_pos hkey, hrow]
    rcases List.mem_append.mp (hcolumns key hkey) with hmem | hmem
    · obtain ⟨g, hg, rfl⟩ := List.mem_map.mp hmem
      obtain ⟨hvalue, hsome⟩ := hgroup g hg
      obtain ⟨x, hx⟩ := Option.ne_none_iff_exists'.mp hsome
      rw [if_pos hmem, ite_self, ← hvalue]
      exact ⟨x, hx, hx⟩
    · rw [if_pos hmem]
      obtain ⟨rule, hrule, rfl⟩ := List.mem_map.mp hmem
      exact ⟨_, (happly rule hrule).1.symm, (happly rule hrule).1.symm⟩
  · rw [Row.get?_project, if_neg hkey]

/-- Every tuple is that of some record, so its group has a row. -/
theorem gives_row_of_mem_tuplesOf (hv : document.get? "TRANSFORMATIONS" = some v)
    (ht : SpellsTransformation id kind v t) {records : List Record}
    (hkind : ∀ r ∈ records, r.kind = kind) {columns : List String}
    (hcolumns : ∀ key ∈ columns, key ∈ columnNames t) {tuple : List Scalar}
    (htuple : tuple ∈ tuplesOf document records) :
    ((t.row (records.filter (tupleOf document · == tuple))).project columns).Gives columns
      (groupedValue document (records.filter (tupleOf document · == tuple))) := by
  obtain ⟨r, hr, rfl⟩ := List.mem_map.mp (List.mem_eraseDups.mp htuple)
  have hmem : r ∈ records.filter (tupleOf document · == tupleOf document r) :=
    List.mem_filter.mpr ⟨hr, beq_self_eq_true _⟩
  exact gives_row hv ht (List.ne_nil_of_mem hmem)
    (fun s hs => hkind s (List.mem_of_mem_filter hs)) hcolumns

theorem groupedValue_ne_notANumber (hnumeric : store.Numeric) {members : List Record}
    (hmembers : ∀ r ∈ members, r ∈ matching document store) (key : String) :
    groupedValue document members key ≠ some (.number .notANumber) := by
  unfold groupedValue
  split
  · intro h
    obtain ⟨first, hfirst, h⟩ := Option.bind_eq_some_iff.mp h
    exact named?_ne_notANumber hnumeric (hmembers first (List.mem_of_mem_head? hfirst)) key h
  · intro h
    obtain ⟨rule, -, h⟩ := Option.map_eq_some_iff.mp h
    exact rule.aggregate.apply_ne_notANumber _ h

/-! ### Order and columns -/

theorem get?_eq_none_of_transformation (hq : Spells document q) (ht : q.transformation = none) :
    document.get? "TRANSFORMATIONS" = none := by
  have hrel := isSome_eq_of_rel hq.transformation
  rw [ht] at hrel
  exact Option.isSome_eq_false_iff.mp hrel |> Option.isNone_iff_eq_none.mp

theorem exists_spellsTransformation (hq : Spells document q) (ht : q.transformation = some t) :
    ∃ v, document.get? "TRANSFORMATIONS" = some v ∧
      SpellsTransformation q.dataset q.kind v t := by
  have hrel := hq.transformation
  rw [ht] at hrel
  rcases hv : document.get? "TRANSFORMATIONS" with - | v
  · rw [hv] at hrel
    cases hrel
  · rw [hv, Option.rel_some_some] at hrel
    exact ⟨v, rfl, hrel⟩

/-- The columns of a query with groups are entries of its rows. -/
theorem mem_columnNames (hq : Spells document q) (ht : q.transformation = some t) {key : String}
    (hkey : key ∈ columnKeys document) : key ∈ columnNames t := by
  rw [hq.keys] at hkey
  obtain ⟨c, hc, rfl⟩ := List.mem_map.mp hkey
  have hfits := hq.columns c hc
  rw [ht] at hfits
  exact hfits.2

theorem compareOn_project (direction : Direction) {keys columns : List String}
    (h : ∀ key ∈ keys, key ∈ columns) (a b : Row) :
    Order.compareOn direction keys (a.project columns) (b.project columns) =
      Order.compareOn direction keys a b := by
  induction keys with
  | nil => rfl
  | cons key keys ih =>
    rw [List.forall_mem_cons] at h
    rw [Order.compareOn, Order.compareOn, ih h.2, Row.get?_project, Row.get?_project,
      if_pos h.1, if_pos h.1]

/-- Rows may be narrowed before they are sorted. -/
theorem sort_map_project {o : Order} {columns : List String}
    (h : ∀ key ∈ o.keys, key ∈ columns) (rows : List Row) :
    (o.sort rows).map (·.project columns) = o.sort (rows.map (·.project columns)) := by
  refine List.map_mergeSort fun a _ b _ => ?_
  rw [Order.compare, Order.compare, compareOn_project o.direction h]

/-- There is one row for each tuple. -/
theorem rawRows_eq (hv : document.get? "TRANSFORMATIONS" = some v)
    (ht : q.transformation = some t) (h : SpellsTransformation q.dataset q.kind v t)
    {records : List Record} (hkind : ∀ r ∈ records, r.kind = q.kind) :
    q.rawRows records = (tuplesOf document records).map fun tuple =>
      t.row (records.filter (tupleOf document · == tuple)) := by
  rw [rawRows, ht]
  show (t.partition records).map t.row = _
  rw [partition_eq_tuplesOf hv h hkind, List.map_map]
  rfl

/-- The narrowed rows in their order are the rows in order, narrowed. -/
theorem projected_ordered (hq : Spells document q) (ht : q.transformation = some t)
    (rows : List Row) :
    q.projected (q.ordered rows) = q.ordered (rows.map (·.project (columnKeys document))) := by
  rw [projected, ht, ordered, ordered, ← hq.keys]
  rcases ho : q.order with - | o
  · rfl
  · exact sort_map_project (hq.orderKeys o ho) rows

/-- A document with groups is about the dataset of its query. -/
theorem targets_of_transformation (hq : Spells document q)
    (hv : document.get? "TRANSFORMATIONS" = some v) (ht : q.transformation = some t)
    (h : SpellsTransformation q.dataset q.kind v t) : Targets document q.dataset := by
  have hrules := applyRules_forall₂ hv h
  have hfieldKeys : fieldKeys document =
      t.group.map GroupKey.key ++ (applyRules document).map NamedRule.key := by
    rw [fieldKeys, hv, ← groupKeys_eq hv h]
  rw [Targets, hfieldKeys]
  constructor
  · -- a column needs a key of GROUP or a rule
    obtain ⟨c, hc⟩ := List.exists_mem_of_ne_nil _ hq.columns_ne_nil
    have hfits := hq.columns c hc
    rw [ht] at hfits
    intro hnil
    obtain ⟨hgroup, happly⟩ := List.append_eq_nil_iff.mp hnil
    rw [List.map_eq_nil_iff.mp happly, List.forall₂_nil_left_iff] at hrules
    rw [ColumnFits, columnNames, hgroup, hrules] at hfits
    exact absurd hfits.2 (by simp)
  · intro key hkey
    rcases List.mem_append.mp hkey with hmem | hmem
    · obtain ⟨g, hg, rfl⟩ := List.mem_map.mp hmem
      obtain ⟨name, hparts, -⟩ := h.group g hg
      rw [hparts, Option.map_some]
    · obtain ⟨n, hn, rfl⟩ := List.mem_map.mp hmem
      have hall := (List.forall₂_and_left _ _).mp (hrules.imp fun n rule happlies =>
        (⟨happlies.field.imp fun _ => And.left, happlies⟩ :
          (∃ name, QualifiedKey.ofText? n.key = some ⟨q.dataset, name⟩) ∧
            Applies q.dataset q.kind n rule))
      obtain ⟨name, hparts⟩ := hall.1 n hn
      rw [hparts, Option.map_some]

/-- **A query with groups partitions exactly.**  Records are in one group if and only if they
have the same values under the keys of GROUP; there is one row for each tuple of
values, with the aggregates of exactly the records that have it.  The rows stand in the
order of the first records of the groups, or in the only arrangement that ORDER
allows.  Too many groups are refused, and nothing else is. -/
theorem answer_groups (haccepted : ∃ q, ofJson view.kinds document = .ok q)
    (hgrouped : document.get? "TRANSFORMATIONS" ≠ none)
    (hpatterns : ∀ p ∈ patternsOf document, Wildcard.WellFormed p)
    (hnumeric : ∀ id store, view id = some store → store.Numeric) :
    ∃ id store, Targets document id ∧ view id = some store ∧
      (∀ a ∈ matching document store, ∀ b ∈ matching document store,
        tupleOf document a = tupleOf document b ↔
          ∀ key ∈ groupKeys document, Option.Rel Scalar.Same (a.named? key) (b.named? key)) ∧
      (resultLimit < (tuplesOf document (matching document store)).length →
        view.answer document =
          .error (.tooLarge (tuplesOf document (matching document store)).length)) ∧
      ((tuplesOf document (matching document store)).length ≤ resultLimit →
        ∃ grouped rows, view.answer document = .ok ⟨id, rows⟩ ∧
          List.Forall₂
            (fun tuple row => row.Gives (columnKeys document) (groupedValue document
              ((matching document store).filter (tupleOf document · == tuple))))
            (tuplesOf document (matching document store)) grouped ∧
          InOrder document grouped rows) := by
  obtain ⟨q, hq⟩ := haccepted
  obtain ⟨-, hspells⟩ := spells_of_ofJson hq
  obtain ⟨store, hstore, hkind, hanswer⟩ := answer_eq hq hpatterns
  obtain ⟨t, ht⟩ := Option.ne_none_iff_exists'.mp
    (mt (get?_eq_none_of_transformation hspells) hgrouped)
  obtain ⟨v, hv, htransformation⟩ := exists_spellsTransformation hspells ht
  have hkinds : ∀ r ∈ matching document store, r.kind = q.kind := fun r hr =>
    (kind_of_mem_matching hr).trans hkind
  -- ordering comes before narrowing, but may as well come after it
  rw [projected_ordered hspells ht, rawRows_eq hv ht htransformation hkinds, List.length_map,
    List.map_map] at hanswer
  refine ⟨q.dataset, store, targets_of_transformation hspells hv ht htransformation, hstore,
    fun a ha b hb => tupleOf_eq_iff hv htransformation hkind (hnumeric _ store hstore) ha hb,
    ?_, ?_⟩
  · intro hlarge
    rw [hanswer, if_pos hlarge]
  · intro hsmall
    have hgives : ∀ tuple ∈ tuplesOf document (matching document store),
        ((t.row ((matching document store).filter (tupleOf document · == tuple))).project
          (columnKeys document)).Gives (columnKeys document) (groupedValue document
            ((matching document store).filter (tupleOf document · == tuple))) := fun _ =>
      gives_row_of_mem_tuplesOf hv htransformation hkinds fun _ => mem_columnNames hspells ht
    rw [if_neg (Nat.not_lt.mpr hsmall)] at hanswer
    refine ⟨_, _, hanswer, List.forall₂_map_right_iff.mpr (List.forall₂_same.mpr hgives),
      inOrder_ordered hspells ?_⟩
    intro row hrow
    obtain ⟨tuple, htuple, rfl⟩ := List.mem_map.mp hrow
    exact comparable_of_gives (hgives tuple htuple)
      (groupedValue_ne_notANumber (hnumeric _ store hstore) fun s hs => List.mem_of_mem_filter hs)

/-- Four sections of two departments. -/
def sampleDepartments : RecordStore where
  kind := .courses
  records := #[.course ⟨"math", "100", "", "", .ofInt 60, 1, 0, 0, "1", 2015⟩,
    .course ⟨"cpsc", "310", "", "", .ofInt 90, 1, 0, 0, "2", 2015⟩,
    .course ⟨"math", "200", "", "", .ofInt 95, 1, 0, 0, "3", 2015⟩,
    .course ⟨"cpsc", "110", "", "", .ofInt 70, 1, 0, 0, "4", 2015⟩]
  ofKind := by decide
  distinct := by decide

theorem sampleDepartments_numeric (id : String) (store : RecordStore)
    (h : CatalogView.ofStore sampleDepartments id = some store) : store.Numeric := by
  obtain rfl := CatalogView.eq_of_ofStore h
  intro r hr field
  simp only [sampleDepartments, List.mem_cons, List.not_mem_nil, or_false] at hr
  rcases hr with rfl | rfl | rfl | rfl <;> cases field <;> decide +kernel

/-- The greatest average of each department. -/
def sampleGrouped : Json :=
  .object [("WHERE", .object []),
    ("OPTIONS", .object [("COLUMNS", .array [.text "ubc_dept", .text "best"]),
      ("ORDER", .text "best")]),
    ("TRANSFORMATIONS", .object [("GROUP", .array [.text "ubc_dept"]),
      ("APPLY", .array [.object [("best", .object [("MAX", .text "ubc_avg")])]])])]

/-- There are two groups, and the averages are not in the order in which these appear. -/
theorem answer_groups_sample :
    (∃ q, ofJson (CatalogView.ofStore sampleDepartments).kinds sampleGrouped = .ok q) ∧
      sampleGrouped.get? "TRANSFORMATIONS" ≠ none ∧
      (∀ p ∈ patternsOf sampleGrouped, Wildcard.WellFormed p) ∧
      (∀ id store, CatalogView.ofStore sampleDepartments id = some store → store.Numeric) ∧
      tuplesOf sampleGrouped (matching sampleGrouped sampleDepartments) =
        [[.text "math"], [.text "cpsc"]] ∧
      ∃ grouped rows,
        (CatalogView.ofStore sampleDepartments).answer sampleGrouped = .ok ⟨"ubc", rows⟩ ∧
        List.Forall₂
          (fun tuple row => row.Gives ["ubc_dept", "best"] (groupedValue sampleGrouped
            (sampleDepartments.records.toList.filter (tupleOf sampleGrouped · == tuple))))
          [[.text "math"], [.text "cpsc"]] grouped ∧
        InOrder sampleGrouped grouped rows := by
  have haccepted :
      ∃ q, ofJson (CatalogView.ofStore sampleDepartments).kinds sampleGrouped = .ok q :=
    exists_of_isOk (by decide +kernel)
  have hgrouped : sampleGrouped.get? "TRANSFORMATIONS" ≠ none := by decide +kernel
  have hpatterns : ∀ p ∈ patternsOf sampleGrouped, Wildcard.WellFormed p := by
    simp [patternsOf, sampleGrouped, Json.get?, Json.patterns]
  have hmatching : matching sampleGrouped sampleDepartments = sampleDepartments.records.toList :=
    matching_eq_records rfl
  have htuples : tuplesOf sampleGrouped sampleDepartments.records.toList =
      [[.text "math"], [.text "cpsc"]] := by decide +kernel
  refine ⟨haccepted, hgrouped, hpatterns, sampleDepartments_numeric, hmatching ▸ htuples, ?_⟩
  obtain ⟨id, store, -, hstore, -, -, hanswer⟩ :=
    answer_groups haccepted hgrouped hpatterns sampleDepartments_numeric
  obtain rfl := CatalogView.eq_of_ofStore hstore
  obtain rfl : id = "ubc" := CatalogView.eq_ubc_of_ofStore hstore
  rw [hmatching, htuples] at hanswer
  exact hanswer (by decide)

end Query

end CampusQuery
