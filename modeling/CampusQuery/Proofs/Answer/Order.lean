/-
CampusQuery/Proofs/Answer/Order.lean

What it means that rows are in the order of a query, and that `Order.sort` puts them so.

A row stands before another if it does so on the first
key on which they differ (`Order.Precedes`).  An arrangement (`Order.Arranges`) is a
permutation in which no row stands after one that it should stand before, and in which
rows that tie keep their order.

Where no value is "not a number" the comparison of rows agrees with one that is a
total preorder outright (`Order.ranked`), so sorting arranges (`arranges_sort`), and
there is only one arrangement (`Arranges.unique`).
-/
import CampusQuery.Answer.Sort
import CampusQuery.Proofs.Dataset.Scalar
import Mathlib.Data.List.Sort

namespace CampusQuery

/-! ### Meaning -/

namespace Order

/-- Two rows tie if under every key both have the same value or neither has one. -/
def Ties (o : Order) (a b : Row) : Prop :=
  ∀ key ∈ o.keys, Option.Rel Scalar.Same (a.get? key) (b.get? key)

/-- The first row precedes the second: under the first key on which they differ it has
the lesser value, or the greater one if the direction is down.  No value is less than
any. -/
def Precedes (o : Order) (a b : Row) : Prop :=
  ∃ before key after, o.keys = before ++ key :: after ∧
    (∀ k ∈ before, Option.Rel Scalar.Same (a.get? k) (b.get? k)) ∧
    match o.direction with
    | .up => Option.lt Scalar.Less (a.get? key) (b.get? key)
    | .down => Option.lt Scalar.Less (b.get? key) (a.get? key)

open Classical in
/-- The rows are the given ones, none after a row that it precedes, and those that tie
in the order in which they are given. -/
structure Arranges (o : Order) (given rows : List Row) : Prop where
  perm : rows.Perm given
  sorted : rows.Pairwise fun a b => ¬ o.Precedes b a
  stable : ∀ a ∈ given, rows.filter (fun b => o.Ties a b) = given.filter fun b => o.Ties a b

end Order

/-! ### Stable sorting -/

section Stable

variable {α : Type} {cmp : α → α → Ordering}

/-- Two sorted lists that agree on every class of tied elements are the same. -/
theorem eq_of_sorted_of_filter_eq [Std.TransCmp cmp] {l l' : List α} (hp : l.Perm l')
    (hl : l.Pairwise fun a b => (cmp a b).isLE = true)
    (hl' : l'.Pairwise fun a b => (cmp a b).isLE = true)
    (h : ∀ a ∈ l, l.filter (cmp a · == .eq) = l'.filter (cmp a · == .eq)) : l = l' := by
  induction l generalizing l' with
  | nil => exact hp.nil_eq
  | cons a l ih =>
    rcases l' with - | ⟨b, l'⟩
    · exact absurd hp.eq_nil (by simp)
    · rw [List.pairwise_cons] at hl hl'
      -- both heads are least, so they tie, and the class of `a` starts with both
      have hab : cmp a b = .eq := by
        have hb : b = a ∨ b ∈ l := by simpa using hp.mem_iff.mpr List.mem_cons_self
        have ha : a = b ∨ a ∈ l' := by simpa using hp.mem_iff.mp List.mem_cons_self
        rcases hb with rfl | hb
        · exact Std.ReflCmp.compare_self
        · rcases ha with rfl | ha
          · exact Std.ReflCmp.compare_self
          · exact Std.OrientedCmp.isLE_antisymm (hl.1 b hb) (hl'.1 a ha)
      have haa : cmp a a = .eq := Std.ReflCmp.compare_self
      have hhead := h a List.mem_cons_self
      rw [List.filter_cons_of_pos (by simp [haa]), List.filter_cons_of_pos (by simp [hab])] at hhead
      obtain ⟨rfl, -⟩ := List.cons.inj hhead
      refine congrArg _ (ih hp.cons_inv hl.2 hl'.2 fun c hc => ?_)
      have hclass := h c (List.mem_cons_of_mem _ hc)
      rw [List.filter_cons, List.filter_cons] at hclass
      split at hclass
      · exact (List.cons.inj hclass).2
      · exact hclass

theorem isLE_total [Std.TransCmp cmp] {a b : α} : ((cmp a b).isLE || (cmp b a).isLE) = true := by
  have hswap : cmp b a = (cmp a b).swap := Std.OrientedCmp.eq_swap
  rw [hswap]
  cases cmp a b <;> rfl

/-- Sorting keeps every class of tied elements as it is. -/
theorem filter_mergeSort [Std.TransCmp cmp] (a : α) (l : List α) :
    (l.mergeSort fun x y => (cmp x y).isLE).filter (cmp a · == .eq) =
      l.filter (cmp a · == .eq) := by
  have hsorted : (l.filter (cmp a · == .eq)).Pairwise fun x y => (cmp x y).isLE = true := by
    rw [List.pairwise_filter]
    refine List.pairwise_of_forall fun x y hx hy => ?_
    have hx' : cmp x a = .eq := Std.OrientedCmp.eq_symm (by simpa using hx)
    have hy' : cmp a y = .eq := by simpa using hy
    rw [Std.TransCmp.eq_trans hx' hy']
    rfl
  have htrans (x y z : α) (hxy : (cmp x y).isLE = true) (hyz : (cmp y z).isLE = true) :
      (cmp x z).isLE = true := Std.TransCmp.isLE_trans hxy hyz
  have hsub := List.sublist_mergeSort htrans (fun _ _ => isLE_total) hsorted List.filter_sublist
  have hfilter := hsub.filter (cmp a · == .eq)
  rw [List.filter_filter] at hfilter
  simp only [Bool.and_self] at hfilter
  -- the class is a sublist of the sorted list's class, and is not longer
  refine (hfilter.eq_of_length ?_).symm
  exact ((List.mergeSort_perm l _).filter _).length_eq.symm

end Stable

/-! ### A total preorder of values -/

namespace Scalar

/-- No value, numbers and texts, in this order. -/
def tier : Option Scalar → Nat
  | none => 0
  | some (.number _) => 1
  | some (.text _) => 2

/-- Below, among and above the finite numbers. -/
def side : Option Scalar → Nat
  | some (.number (.infinite true)) => 0
  | some (.number (.infinite false)) => 2
  | _ => 1

/-- The units of a finite number. -/
def unitsOf : Option Scalar → Int
  | some (.number x) => x.toUnits?.getD 0
  | _ => 0

/-- The text. -/
def textOf : Option Scalar → String
  | some (.text s) => s
  | _ => ""

/-- A total preorder of the values of a key. -/
def keyOrder : Option Scalar → Option Scalar → Ordering :=
  compareLex (compareOn tier) <| compareLex (compareOn side) <|
    compareLex (compareOn unitsOf) (compareOn textOf)

instance : Std.TransCmp keyOrder := by
  unfold keyOrder
  infer_instance

theorem keyOrder_swap (a b : Option Scalar) : (keyOrder a b).swap = keyOrder b a :=
  Std.OrientedCmp.eq_swap.symm

theorem keyOrder_trans {a b c : Option Scalar} (hab : (keyOrder a b).isLE = true)
    (hbc : (keyOrder b c).isLE = true) : (keyOrder a c).isLE = true :=
  Std.TransCmp.isLE_trans hab hbc

/-- The order of values is a total preorder where every number is one. -/
theorem optionalOrder_eq_keyOrder {a b : Option Scalar} (ha : a ≠ some (.number .notANumber))
    (hb : b ≠ some (.number .notANumber)) : optionalOrder a b = keyOrder a b := by
  rcases a with - | (x | s) <;> rcases b with - | (y | t)
  case some.number.some.number =>
    rcases x with - | nx | ⟨nx, sx⟩
    · exact absurd rfl ha
    · rcases y with - | ny | ⟨ny, sy⟩
      · exact absurd rfl hb
      · cases nx <;> cases ny <;> rfl
      · cases nx <;> rfl
    · rcases y with - | ny | ⟨ny, sy⟩
      · exact absurd rfl hb
      · cases ny <;> rfl
      · exact Ordering.then_eq.symm
  all_goals rfl

theorem optionalOrder_eq_lt {a b : Option Scalar} :
    optionalOrder a b = .lt ↔ Option.lt Less a b := by
  rcases a with - | a <;> rcases b with - | b
  case some.some => exact order_eq_lt
  all_goals simp [optionalOrder, Option.lt]

theorem optionalOrder_eq_eq {a b : Option Scalar} (ha : a ≠ some (.number .notANumber))
    (hb : b ≠ some (.number .notANumber)) :
    optionalOrder a b = .eq ↔ Option.Rel Same a b := by
  rcases a with - | a <;> rcases b with - | b
  case some.some =>
    rw [Option.rel_some_some]
    exact order_eq_eq (by rintro rfl; exact ha rfl) (by rintro rfl; exact hb rfl)
  all_goals simp [optionalOrder]

end Scalar

/-! ### Sorting rows -/

/-- No value of the row is "not a number". -/
def Row.Comparable (row : Row) : Prop := ∀ key, row.get? key ≠ some (.number .notANumber)

namespace Order

/-- A total preorder of rows by one key. -/
def rankedOn : Direction → String → Row → Row → Ordering
  | .up, key, a, b => Scalar.keyOrder (a.get? key) (b.get? key)
  | .down, key, a, b => Scalar.keyOrder (b.get? key) (a.get? key)

/-- A total preorder of rows: that of the first key on which they differ. -/
def ranked (direction : Direction) : List String → Row → Row → Ordering
  | [], _, _ => .eq
  | key :: keys, a, b => (rankedOn direction key a b).then (ranked direction keys a b)

instance (direction : Direction) (key : String) : Std.TransCmp (rankedOn direction key) where
  eq_swap := by
    cases direction <;> exact (Scalar.keyOrder_swap _ _).symm
  isLE_trans := by
    intro a b c hab hbc
    cases direction
    · exact Scalar.keyOrder_trans hab hbc
    · exact Scalar.keyOrder_trans hbc hab

instance (direction : Direction) (keys : List String) : Std.TransCmp (ranked direction keys) := by
  induction keys with
  | nil => exact { eq_swap := rfl, isLE_trans := fun _ _ => rfl }
  | cons key keys ih =>
    show Std.TransCmp (compareLex (rankedOn direction key) (ranked direction keys))
    infer_instance

/-- The comparison of rows is a total preorder where every number is one. -/
theorem compareOn_eq_ranked (direction : Direction) (keys : List String) {a b : Row}
    (ha : a.Comparable) (hb : b.Comparable) :
    compareOn direction keys a b = ranked direction keys a b := by
  induction keys with
  | nil => rfl
  | cons key keys ih =>
    rw [compareOn, ih, Scalar.optionalOrder_eq_keyOrder (ha key) (hb key), ranked]
    cases direction
    · rfl
    · rw [directed, Scalar.keyOrder_swap]
      rfl

theorem directed_eq_eq {direction : Direction} {p : Ordering} :
    directed direction p = .eq ↔ p = .eq := by
  cases direction <;> cases p <;> decide

theorem compare_eq_eq {o : Order} {a b : Row} (ha : a.Comparable) (hb : b.Comparable) :
    o.compare a b = .eq ↔ o.Ties a b := by
  obtain ⟨direction, keys⟩ := o
  rw [compare, Ties]
  induction keys with
  | nil => simp [compareOn]
  | cons key keys ih =>
    rw [compareOn, Ordering.then_eq_eq, directed_eq_eq,
      Scalar.optionalOrder_eq_eq (ha key) (hb key), List.forall_mem_cons, ← ih]

/-- The order under one key, in the direction. -/
theorem directed_eq_lt {direction : Direction} {key : String} {a b : Row} (ha : a.Comparable)
    (hb : b.Comparable) :
    directed direction (Scalar.optionalOrder (a.get? key) (b.get? key)) = .lt ↔
      match direction with
      | .up => Option.lt Scalar.Less (a.get? key) (b.get? key)
      | .down => Option.lt Scalar.Less (b.get? key) (a.get? key) := by
  cases direction
  · exact Scalar.optionalOrder_eq_lt
  · rw [directed, Scalar.optionalOrder_eq_keyOrder (ha key) (hb key),
      Scalar.keyOrder_swap, ← Scalar.optionalOrder_eq_keyOrder (hb key) (ha key)]
    exact Scalar.optionalOrder_eq_lt

theorem precedes_cons {direction : Direction} {key : String} {keys : List String} {a b : Row} :
    Precedes ⟨direction, key :: keys⟩ a b ↔
      (match direction with
        | .up => Option.lt Scalar.Less (a.get? key) (b.get? key)
        | .down => Option.lt Scalar.Less (b.get? key) (a.get? key)) ∨
      Option.Rel Scalar.Same (a.get? key) (b.get? key) ∧ Precedes ⟨direction, keys⟩ a b := by
  constructor
  · rintro ⟨before, k, after, e, hties, hless⟩
    rcases before with - | ⟨k', before⟩
    · obtain ⟨rfl, rfl⟩ := List.cons.inj e
      exact .inl hless
    · obtain ⟨rfl, rfl⟩ := List.cons.inj e
      rw [List.forall_mem_cons] at hties
      exact .inr ⟨hties.1, before, k, after, rfl, hties.2, hless⟩
  · rintro (hless | ⟨htie, before, k, after, e, hties, hless⟩)
    · exact ⟨[], key, keys, rfl, by simp, hless⟩
    · refine ⟨key :: before, k, after, congrArg _ e, ?_, hless⟩
      exact List.forall_mem_cons.mpr ⟨htie, hties⟩

theorem compare_eq_lt {o : Order} {a b : Row} (ha : a.Comparable) (hb : b.Comparable) :
    o.compare a b = .lt ↔ o.Precedes a b := by
  obtain ⟨direction, keys⟩ := o
  rw [compare]
  induction keys with
  | nil => simp [compareOn, Precedes]
  | cons key keys ih =>
    rw [compareOn, Ordering.then_eq_lt, ih, directed_eq_lt ha hb, precedes_cons]
    rw [directed_eq_eq, Scalar.optionalOrder_eq_eq (ha key) (hb key)]

section Sorting

variable {o : Order} {rows : List Row}

/-- On rows that can be compared, sorting is by a total preorder. -/
theorem sort_eq (h : ∀ row ∈ rows, row.Comparable) :
    o.sort rows = rows.mergeSort fun a b => (ranked o.direction o.keys a b).isLE := by
  have hsort := List.map_mergeSort (f := id) (r := fun a b => (o.compare a b).isLE)
    (s := fun a b => (ranked o.direction o.keys a b).isLE) (l := rows) fun a ha b hb => by
      rw [compare, compareOn_eq_ranked _ _ (h a ha) (h b hb)]
      rfl
  rwa [List.map_id, List.map_id] at hsort

open Classical in
theorem filter_ties {given : List Row} (h : ∀ row ∈ given, row.Comparable)
    (hp : rows.Perm given) {a : Row} (ha : a ∈ given) :
    (rows.filter fun b => o.Ties a b) =
      rows.filter (ranked o.direction o.keys a · == .eq) := by
  refine List.filter_congr fun b hb => ?_
  have hb' := h b (hp.mem_iff.mp hb)
  rw [Bool.eq_iff_iff, decide_eq_true_iff, beq_iff_eq, ← compare_eq_eq (h a ha) hb', compare,
    compareOn_eq_ranked _ _ (h a ha) hb']

theorem isLE_iff_not_precedes {a b : Row} (ha : a.Comparable) (hb : b.Comparable) :
    (ranked o.direction o.keys a b).isLE = true ↔ ¬ o.Precedes b a := by
  have hswap : ranked o.direction o.keys a b = (ranked o.direction o.keys b a).swap :=
    Std.OrientedCmp.eq_swap
  rw [← compare_eq_lt hb ha, compare, compareOn_eq_ranked _ _ hb ha, hswap]
  cases ranked o.direction o.keys b a <;> decide

/-- **Sorting arranges rows.** -/
theorem arranges_sort (h : ∀ row ∈ rows, row.Comparable) :
    o.Arranges rows (o.sort rows) := by
  have hp : (o.sort rows).Perm rows := List.mergeSort_perm _ _
  refine ⟨hp, ?_, ?_⟩
  · have hsorted : (rows.mergeSort fun a b => (ranked o.direction o.keys a b).isLE).Pairwise
        fun a b => (ranked o.direction o.keys a b).isLE = true :=
      List.pairwise_mergeSort (fun _ _ _ => Std.TransCmp.isLE_trans) (fun _ _ => isLE_total) rows
    rw [← sort_eq h] at hsorted
    refine hsorted.imp_of_mem fun {a b} ha hb hab => ?_
    exact (isLE_iff_not_precedes (h a (hp.mem_iff.mp ha)) (h b (hp.mem_iff.mp hb))).mp hab
  · intro a ha
    rw [filter_ties h hp ha, filter_ties h (.refl _) ha, sort_eq h]
    exact filter_mergeSort a rows

/-- **An arrangement is the only one.** -/
theorem Arranges.unique {given rows' : List Row} (h : ∀ row ∈ given, row.Comparable)
    (h₁ : o.Arranges given rows) (h₂ : o.Arranges given rows') : rows = rows' := by
  have hsorted {l : List Row} (hl : o.Arranges given l) :
      l.Pairwise fun a b => (ranked o.direction o.keys a b).isLE = true :=
    hl.sorted.imp_of_mem fun {a b} ha hb hab =>
      (isLE_iff_not_precedes (h a (hl.perm.mem_iff.mp ha)) (h b (hl.perm.mem_iff.mp hb))).mpr hab
  refine eq_of_sorted_of_filter_eq (h₁.perm.trans h₂.perm.symm) (hsorted h₁) (hsorted h₂) ?_
  intro a ha
  have hgiven := h₁.perm.mem_iff.mp ha
  rw [← filter_ties h h₁.perm hgiven, ← filter_ties h h₂.perm hgiven, h₁.stable a hgiven,
    h₂.stable a hgiven]

end Sorting

end Order

end CampusQuery
