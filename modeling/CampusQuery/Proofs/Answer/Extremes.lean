/-
CampusQuery/Proofs/Answer/Extremes.lean

Extremes and counts do not depend on how values are listed.

The greatest number of a list is one of its numbers and bounds them all, and so is the smallest
(`Aggregate.IsExtreme`).  Two numbers of which that can be said bound each other
(`IsExtreme.bounds_each`), so an extreme depends on nothing but which values there are, up to the
sign of zero.  The count of a list is the length of its longest sublists of different values
(`exists_sublist_countDistinct`, `length_le_countDistinct`).

The folds start from infinities and compare without a case for "not a number".  Where no value is
that, all numbers are in one total preorder (`Binary64.AtMost`), the one that rows are sorted by,
and a fold of picks comes to a bound of what it has passed (`Picks.foldl`).
-/
import CampusQuery.Proofs.Answer.Integers
import CampusQuery.Proofs.Answer.Order
import CampusQuery.Proofs.Answer.Totals
import CampusQuery.Proofs.Decimal.Whole
import Mathlib.Data.List.Dedup

namespace CampusQuery

namespace Binary64

variable {x y z : Binary64}

/-! ### A total preorder of numbers -/

/-- Numerically less or equal. -/
def AtMost (x y : Binary64) : Prop := x.lt y = true ∨ x.eq y = true

theorem atMost_iff : x.AtMost y ↔ x.compare? y = some .lt ∨ x.compare? y = some .eq := by
  rw [AtMost, lt, eq, beq_iff_eq, beq_iff_eq]

/-- The comparison of rows on a key, for two numbers. -/
theorem isLE_keyOrder_iff (hx : x ≠ .notANumber) (hy : y ≠ .notANumber) :
    (Scalar.keyOrder (some (.number x)) (some (.number y))).isLE = true ↔ x.AtMost y := by
  have hx' : some (Scalar.number x) ≠ some (.number .notANumber) := by simpa using hx
  have hy' : some (Scalar.number y) ≠ some (.number .notANumber) := by simpa using hy
  have hlt := Scalar.optionalOrder_eq_lt (a := some (.number x)) (b := some (.number y))
  have heq := Scalar.optionalOrder_eq_eq hx' hy'
  rw [Scalar.optionalOrder_eq_keyOrder hx' hy'] at hlt heq
  rw [Ordering.isLE_iff_eq_lt_or_eq_eq, hlt, heq, Option.rel_some_some]
  rfl

theorem AtMost.trans (hx : x ≠ .notANumber) (hy : y ≠ .notANumber) (hz : z ≠ .notANumber)
    (hxy : x.AtMost y) (hyz : y.AtMost z) : x.AtMost z := by
  rw [← isLE_keyOrder_iff hx hy] at hxy
  rw [← isLE_keyOrder_iff hy hz] at hyz
  exact (isLE_keyOrder_iff hx hz).mp (Scalar.keyOrder_trans hxy hyz)

/-- Numbers that are at most each other are equal. -/
theorem AtMost.antisymm (hxy : x.AtMost y) (hyx : y.AtMost x) : x.eq y = true := by
  refine hxy.resolve_left fun hlt => ?_
  rw [lt, beq_iff_eq] at hlt
  rw [atMost_iff, compare?_swap, hlt] at hyx
  rcases hyx with heq | heq
  · cases heq
  · cases heq

/-- The greater of two numbers is one that the other is at most. -/
theorem larger_cases (hx : x ≠ .notANumber) (hy : y ≠ .notANumber) :
    x.larger y = x ∧ y.AtMost x ∨ x.larger y = y ∧ x.AtMost y := by
  have hswap := compare?_swap x y
  rw [larger, atMost_iff, atMost_iff, hswap]
  rcases hxy : x.compare? y with - | o
  · exact absurd (compare?_eq_none hxy hx) hy
  · cases o with
    | lt => exact .inr ⟨rfl, .inl rfl⟩
    | eq => exact .inr ⟨rfl, .inr rfl⟩
    | gt => exact .inl ⟨rfl, .inl rfl⟩

/-- The smaller of two numbers is one that is at most the other. -/
theorem smaller_cases (hx : x ≠ .notANumber) (hy : y ≠ .notANumber) :
    x.smaller y = x ∧ x.AtMost y ∨ x.smaller y = y ∧ y.AtMost x := by
  have hswap := compare?_swap x y
  rw [smaller, atMost_iff, atMost_iff, hswap]
  rcases hxy : x.compare? y with - | o
  · exact absurd (compare?_eq_none hxy hx) hy
  · cases o with
    | lt => exact .inl ⟨rfl, .inl rfl⟩
    | eq => exact .inr ⟨rfl, .inr rfl⟩
    | gt => exact .inr ⟨rfl, .inl rfl⟩

theorem AtMost.refl (hx : x ≠ .notANumber) : x.AtMost x :=
  (larger_cases hx hx).elim And.right And.right

theorem eq_refl (hx : x ≠ .notANumber) : x.eq x = true := (AtMost.refl hx).antisymm (.refl hx)

end Binary64

namespace Aggregate

variable {values values' : List Scalar} {numbers : List Binary64} {start x m m' : Binary64}
  {le : Binary64 → Binary64 → Prop} {pick : Binary64 → Binary64 → Binary64}

/-! ### Folds of picks -/

/-- Of two numbers, one is picked that bounds the other. -/
structure Picks (le : Binary64 → Binary64 → Prop) (pick : Binary64 → Binary64 → Binary64) :
    Prop where
  cases {x y : Binary64} : x ≠ .notANumber → y ≠ .notANumber →
    pick x y = x ∧ le y x ∨ pick x y = y ∧ le x y
  refl {x : Binary64} : x ≠ .notANumber → le x x
  trans {x y z : Binary64} : x ≠ .notANumber → y ≠ .notANumber → z ≠ .notANumber →
    le x y → le y z → le x z
  antisymm {x y : Binary64} : le x y → le y x → x.eq y = true

theorem picks_larger : Picks Binary64.AtMost Binary64.larger where
  cases := Binary64.larger_cases
  refl := .refl
  trans := .trans
  antisymm := Binary64.AtMost.antisymm

theorem picks_smaller : Picks (fun x y => y.AtMost x) Binary64.smaller where
  cases := Binary64.smaller_cases
  refl := .refl
  trans hx hy hz hxy hyz := .trans hz hy hx hyz hxy
  antisymm hxy hyx := hyx.antisymm hxy

/-- **A fold of picks bounds what it starts from and what it passes.** -/
theorem Picks.foldl (hp : Picks le pick) (hstart : start ≠ .notANumber)
    (h : ∀ x ∈ numbers, x ≠ .notANumber) :
    numbers.foldl pick start ≠ .notANumber ∧ le start (numbers.foldl pick start) ∧
      ∀ x ∈ numbers, le x (numbers.foldl pick start) := by
  induction numbers generalizing start with
  | nil => exact ⟨hstart, hp.refl hstart, nofun⟩
  | cons y numbers ih =>
    obtain ⟨hy, hrest⟩ := List.forall_mem_cons.mp h
    rw [List.foldl_cons, List.forall_mem_cons]
    rcases hp.cases hstart hy with ⟨heq, hle⟩ | ⟨heq, hle⟩
    · obtain ⟨hne, hbound, hall⟩ := ih hstart hrest
      rw [heq]
      exact ⟨hne, hbound, hp.trans hy hstart hne hle hbound, hall⟩
    · obtain ⟨hne, hbound, hall⟩ := ih hy hrest
      rw [heq]
      exact ⟨hne, hp.trans hstart hy hne hle hbound, hbound, hall⟩

/-! ### Extremes -/

/-- The number is one of the values, and it bounds all numbers among them. -/
structure IsExtreme (le : Binary64 → Binary64 → Prop) (values : List Scalar) (m : Binary64) :
    Prop where
  mem : .number m ∈ values
  bounds : ∀ x, .number x ∈ values → le x m

/-- Extremes of the same values bound each other. -/
theorem IsExtreme.bounds_each (h : IsExtreme le values m) (h' : IsExtreme le values' m')
    (hmem : ∀ v, v ∈ values' ↔ v ∈ values) : le m m' ∧ le m' m :=
  ⟨h'.bounds m ((hmem _).mpr h.mem), h.bounds m' ((hmem _).mp h'.mem)⟩

theorem ne_notANumber_of_mem_numbersOf (h : ∀ v ∈ values, v ≠ .number .notANumber) :
    ∀ x ∈ numbersOf values, x ≠ .notANumber := by
  rintro x hx rfl
  exact h _ (mem_numbersOf.mp hx) rfl

/-- A fold of picks that comes to one of the numbers comes to an extreme. -/
theorem Picks.isExtreme (hp : Picks le pick) (hstart : start ≠ .notANumber)
    (hfold : ∀ {numbers : List Binary64}, numbers ≠ [] → (∀ x ∈ numbers, x ≠ .notANumber) →
      numbers.foldl pick start ∈ numbers)
    (h : ∀ v ∈ values, v ≠ .number .notANumber) (hne : numbersOf values ≠ []) :
    IsExtreme le values ((numbersOf values).foldl pick start) := by
  have hnumbers := ne_notANumber_of_mem_numbersOf h
  refine ⟨mem_numbersOf.mp (hfold hne hnumbers), fun x hx => ?_⟩
  exact (hp.foldl hstart hnumbers).2.2 x (mem_numbersOf.mpr hx)

/-- Such a fold gives the same number for all lists with the same values. -/
theorem Picks.foldl_congr (hp : Picks le pick) (hstart : start ≠ .notANumber)
    (hfold : ∀ {numbers : List Binary64}, numbers ≠ [] → (∀ x ∈ numbers, x ≠ .notANumber) →
      numbers.foldl pick start ∈ numbers)
    (h : ∀ v ∈ values, v ≠ .number .notANumber) (hmem : ∀ v, v ∈ values' ↔ v ∈ values) :
    ((numbersOf values').foldl pick start).eq ((numbersOf values).foldl pick start) = true := by
  have h' : ∀ v ∈ values', v ≠ .number .notANumber := fun v hv => h v ((hmem v).mp hv)
  have hnil : numbersOf values' = [] ↔ numbersOf values = [] := by
    simp only [List.eq_nil_iff_forall_not_mem, mem_numbersOf, hmem]
  by_cases hne : numbersOf values = []
  · rw [hne, hnil.mpr hne]
    exact Binary64.eq_refl hstart
  · obtain ⟨hle, hge⟩ := (hp.isExtreme hstart hfold h hne).bounds_each
      (hp.isExtreme hstart hfold h' (mt hnil.mp hne)) hmem
    exact hp.antisymm hge hle

theorem apply_max (values : List Scalar) : Aggregate.max.apply values =
    .number ((numbersOf values).foldl Binary64.larger Binary64.bottom) := rfl

theorem apply_min (values : List Scalar) : Aggregate.min.apply values =
    .number ((numbersOf values).foldl Binary64.smaller Binary64.top) := rfl

/-! ### Counts -/

/-- There are sublists of different values that are as long as the count. -/
theorem exists_sublist_countDistinct (h : ∀ v ∈ values, v ≠ .number .notANumber) :
    ∃ l : List Scalar, l.Sublist values ∧ (l.Pairwise fun a b => ¬ a.Same b) ∧
      l.length = countDistinct values := by
  obtain ⟨l, hsub, hl⟩ :=
    List.sublist_map_iff.mp (List.dedup_sublist (values.map Scalar.identity))
  refine ⟨l, hsub, ?_, ?_⟩
  · have hnodup : (l.map Scalar.identity).Nodup := hl ▸ List.nodup_dedup _
    refine (List.pairwise_map.mp hnodup).imp_of_mem fun ha hb hne hsame => hne ?_
    exact (Scalar.identity_eq_iff (h _ (hsub.subset ha)) (h _ (hsub.subset hb))).mpr hsame
  · rw [countDistinct_eq, List.card_toFinset, hl, List.length_map]

/-- No sublist of different values is longer. -/
theorem length_le_countDistinct (h : ∀ v ∈ values, v ≠ .number .notANumber) {l : List Scalar}
    (hsub : l.Sublist values) (hpair : l.Pairwise fun a b => ¬ a.Same b) :
    l.length ≤ countDistinct values := by
  have hnodup : (l.map Scalar.identity).Nodup := by
    refine List.pairwise_map.mpr (hpair.imp_of_mem fun ha hb hne heq => hne ?_)
    exact (Scalar.identity_eq_iff (h _ (hsub.subset ha)) (h _ (hsub.subset hb))).mp heq
  rw [countDistinct_eq, ← List.length_map Scalar.identity, ← List.toFinset_card_of_nodup hnodup]
  exact Finset.card_le_card fun v hv =>
    List.mem_toFinset.mpr ((hsub.map _).subset (List.mem_toFinset.mp hv))

/-- Only which values there are counts. -/
theorem countDistinct_congr (hmem : ∀ v, v ∈ values' ↔ v ∈ values) :
    countDistinct values' = countDistinct values := by
  rw [countDistinct_eq, countDistinct_eq]
  congr 1
  ext v
  simp only [List.mem_toFinset, List.mem_map, hmem]

/-! ### All three -/

/-- **Extremes and counts depend only on which values there are.**  Where no value is "not a
number": if any is a number, then the greatest and the smallest of them are what `max` and `min`
give; `count` gives the length of the longest sublists of different values; and all three are the
same, up to the sign of zero, for any list with the same values, in whatever order and however
often. -/
theorem extremes_and_count (h : ∀ v ∈ values, v ≠ .number .notANumber) :
    ((∃ x, .number x ∈ values) →
        (∃ m, Aggregate.max.apply values = .number m ∧ IsExtreme Binary64.AtMost values m) ∧
        ∃ m, Aggregate.min.apply values = .number m ∧
          IsExtreme (fun x y => y.AtMost x) values m) ∧
      (∃ k : ℕ, Aggregate.count.apply values = .number (.ofInt k) ∧
        (k ≤ 2 ^ 53 → (Binary64.ofInt k).value = k) ∧
        (∃ l : List Scalar, l.Sublist values ∧ (l.Pairwise fun a b => ¬ a.Same b) ∧ l.length = k) ∧
        ∀ l : List Scalar, l.Sublist values → (l.Pairwise fun a b => ¬ a.Same b) → l.length ≤ k) ∧
      ∀ values' : List Scalar, (∀ v, v ∈ values' ↔ v ∈ values) →
        ∀ a ∈ [Aggregate.max, .min, .count], (a.apply values').Same (a.apply values) := by
  refine ⟨fun ⟨x, hx⟩ => ?_, ⟨countDistinct values, rfl, Binary64.value_ofInt_natCast,
    exists_sublist_countDistinct h, fun l => length_le_countDistinct h⟩,
    fun values' hmem a ha => ?_⟩
  · have hne : numbersOf values ≠ [] := List.ne_nil_of_mem (mem_numbersOf.mpr hx)
    exact ⟨⟨_, apply_max values, picks_larger.isExtreme nofun foldl_larger_mem h hne⟩,
      _, apply_min values, picks_smaller.isExtreme nofun foldl_smaller_mem h hne⟩
  · rw [List.mem_cons, List.mem_pair] at ha
    rcases ha with rfl | rfl | rfl
    · exact picks_larger.foldl_congr nofun foldl_larger_mem h hmem
    · exact picks_smaller.foldl_congr nofun foldl_smaller_mem h hmem
    · show (Binary64.ofInt (countDistinct values')).eq (.ofInt (countDistinct values)) = true
      rw [countDistinct_congr hmem]
      exact Binary64.eq_refl (Binary64.nearest_ne_notANumber _ _ _)

/-- A number that repeats, both zeros and a text. -/
def sampleRepeated : List Scalar :=
  [.number (.ofInt 7), .number 0, .text "0", .number (.finite true 0), .number (.ofInt 7)]

theorem extremes_and_count_sample :
    (∀ v ∈ sampleRepeated, v ≠ .number .notANumber) ∧ (∃ x, .number x ∈ sampleRepeated) ∧
      IsExtreme Binary64.AtMost sampleRepeated (.ofInt 7) ∧
      Aggregate.count.apply sampleRepeated = .number (.ofInt (3 : ℕ)) ∧
      ∀ l : List Scalar, l.Sublist sampleRepeated → (l.Pairwise fun a b => ¬ a.Same b) →
        l.length ≤ 3 := by
  have h : ∀ v ∈ sampleRepeated, v ≠ .number .notANumber := by decide +kernel
  have hne : ∃ x, .number x ∈ sampleRepeated := ⟨.ofInt 7, List.mem_cons_self⟩
  have hmax : Aggregate.max.apply sampleRepeated = .number (.ofInt 7) := by decide +kernel
  have hthree : countDistinct sampleRepeated = 3 := by
    rw [countDistinct_eq]
    decide +kernel
  have hcount : Aggregate.count.apply sampleRepeated = .number (.ofInt (3 : ℕ)) :=
    congrArg (fun k : ℕ => Scalar.number (.ofInt k)) hthree
  obtain ⟨hextremes, ⟨k, hk, hvalue, ⟨l, hsub, -, hlength⟩, hmost⟩, -⟩ := extremes_and_count h
  obtain ⟨⟨m, hm, hextreme⟩, -⟩ := hextremes hne
  have hm' : Binary64.ofInt 7 = m := Scalar.number.inj (hmax.symm.trans hm)
  have hk' : Binary64.ofInt (3 : ℕ) = .ofInt k := Scalar.number.inj (hcount.symm.trans hk)
  have hshort : k ≤ 5 := hlength ▸ hsub.length_le
  have hcast : ((3 : ℕ) : ℚ) = k := by
    rw [← hvalue (hshort.trans (by decide)), ← hk', Binary64.value_ofInt_natCast (by decide)]
  obtain rfl := Nat.cast_injective hcast
  rw [← hm'] at hextreme
  exact ⟨h, hne, hextreme, hcount, hmost⟩

end Aggregate

end CampusQuery
