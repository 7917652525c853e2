/-
CampusQuery/Proofs/Dataset/Integers.lean

What becomes of integers that are taken as binary numbers.

An integer is exact (`IsExact`) if its magnitude is below the bound up to which whole numbers are
written as integers.  Such an integer is a binary number itself (`toUnits?_ofInt`), and no other
integer comes near enough to be mistaken for it: comparing the nearest numbers of two integers is
comparing the integers, as soon as one of the two is exact (`compare?_ofInt`).  Everything else
follows from these two: an exact integer is the extreme of integers that it bounds
(`foldl_larger_ofInt`, `foldl_smaller_ofInt`), and it is written as it is (`toJson_ofInt`), as no
other integer can be (`isExact_of_toJson`).
-/
import CampusQuery.Proofs.Decimal.Range

namespace CampusQuery

/-- The integer is one of those that are written as integers. -/
def IsExact (i : Int) : Prop := i.natAbs < 2 ^ 53

instance (i : Int) : Decidable (IsExact i) := inferInstanceAs (Decidable (_ < _))

/-! ### Rounding integers -/

namespace Magnitude

/-- What is a multiple of the last unit is not changed by rounding. -/
theorem rounded_eq_self {n : Nat} (h : 2 ^ roundingShift n 1 ∣ n) : rounded n 1 = n := by
  obtain ⟨c, hc⟩ := h
  have hunit : 0 < 2 ^ roundingShift n 1 := Nat.two_pow_pos _
  rw [rounded, Nat.one_mul]
  generalize 2 ^ roundingShift n 1 = unit at hc hunit ⊢
  rw [hc, Nat.mul_comm unit, roundHalfEven_mul_self hunit]

/-- Up to the power of two after the significands, whole numbers are not changed by rounding. -/
theorem rounded_natCast {n : Nat} (h : n ≤ 2 ^ 53) :
    rounded (n * unitsPerOne) 1 = n * unitsPerOne := by
  obtain ⟨m, hm, hunits⟩ := exists_unitsPerOne_eq
  rw [hunits]
  refine rounded_eq_self ?_
  rcases Nat.eq_zero_or_pos n with rfl | hpos
  · rw [Nat.zero_mul]
    exact Nat.dvd_zero _
  · have hne : n * 2 ^ m ≠ 0 := Nat.mul_ne_zero hpos.ne' (Nat.two_pow_pos m).ne'
    rcases Nat.lt_or_eq_of_le h with hlt | rfl
    · have hlog : Nat.log2 (n * 2 ^ m) < 53 + m := by
        rw [Nat.log2_lt hne, Nat.pow_add]
        exact Nat.mul_lt_mul_of_pos_right hlt (Nat.two_pow_pos m)
      have hshift : roundingShift (n * 2 ^ m) 1 ≤ m := by
        rw [roundingShift, Nat.div_one]
        omega
      exact (Nat.pow_dvd_pow 2 hshift).trans (Nat.dvd_mul_left _ _)
    · have hlog : Nat.log2 (2 ^ 53 * 2 ^ m) = 53 + m := by rw [← Nat.pow_add, Nat.log2_two_pow]
      have hshift : roundingShift (2 ^ 53 * 2 ^ m) 1 ≤ 53 + m := by
        rw [roundingShift, Nat.div_one, hlog]
        omega
      refine (Nat.pow_dvd_pow 2 hshift).trans ?_
      rw [Nat.pow_add]

end Magnitude

namespace Binary64

open Magnitude (unitsPerOne unitsPerOne_pos)

variable {i j : Int}

theorem nearest_eq_finite {negative : Bool} {n d : Nat} {size : Magnitude}
    (h : Magnitude.nearest? n d = some size) : nearest negative n d = .finite negative size := by
  unfold nearest
  rw [h]

theorem nearest_eq_infinite {negative : Bool} {n d : Nat} (h : Magnitude.nearest? n d = none) :
    nearest negative n d = .infinite negative := by
  unfold nearest
  rw [h]

/-- An exact integer is a number. -/
theorem exists_ofInt_eq (hi : IsExact i) :
    ∃ size : Magnitude, ofInt i = .finite (i < 0) size ∧ size.units = i.natAbs * unitsPerOne := by
  obtain ⟨size, hsize⟩ := Magnitude.exists_nearest?_eq (hi.le.trans (by decide : _ ≤ 2 ^ 64))
  refine ⟨size, nearest_eq_finite hsize, ?_⟩
  rw [Magnitude.units_of_nearest? hsize, Magnitude.rounded_natCast hi.le]

/-- Any other integer becomes an infinity, or a number that is beyond the exact integers. -/
theorem exists_ofInt_eq_of_not_exact (hi : ¬ IsExact i) :
    ofInt i = .infinite (i < 0) ∨ ∃ size : Magnitude, ofInt i = .finite (i < 0) size ∧
      2 ^ 53 * unitsPerOne ≤ size.units := by
  by_cases hnone : Magnitude.nearest? (i.natAbs * unitsPerOne) 1 = none
  · exact .inl (nearest_eq_infinite hnone)
  · obtain ⟨size, hsize⟩ := Option.ne_none_iff_exists'.mp hnone
    refine .inr ⟨size, nearest_eq_finite hsize, ?_⟩
    rw [Magnitude.units_of_nearest? hsize, ← Magnitude.rounded_natCast (Nat.le_refl (2 ^ 53))]
    exact Magnitude.rounded_mono Nat.one_pos (Nat.mul_le_mul_right _ (Nat.not_lt.mp hi))

/-! ### Comparing integers -/

theorem compare?_finite {m n : Bool} {a b : Magnitude} :
    (finite m a).compare? (finite n b) = some (compare
      (if m then -(a.units : Int) else a.units) (if n then -(b.units : Int) else b.units)) := rfl

theorem signed_mul (i : Int) (unit : Nat) :
    (if decide (i < 0) = true then -((i.natAbs * unit : Nat) : Int) else (i.natAbs * unit : Nat)) =
      i * unit := by
  rw [Int.natCast_mul]
  rcases lt_or_ge i 0 with hi | hi
  · rw [if_pos (decide_eq_true hi), Int.ofNat_natAbs_of_nonpos hi.le, Int.neg_mul, Int.neg_neg]
  · rw [if_neg (by simpa using hi), Int.natAbs_of_nonneg hi]

theorem compare_mul {unit : Nat} (hunit : 0 < unit) (j i : Int) :
    compare (j * unit) (i * unit) = compare j i := by
  have hpos : (0 : Int) < unit := Int.natCast_pos.mpr hunit
  rcases Int.lt_trichotomy j i with h | rfl | h
  · rw [compare_lt_iff_lt.mpr h, compare_lt_iff_lt.mpr (Int.mul_lt_mul_of_pos_right h hpos)]
  · rw [compare_eq_iff_eq.mpr rfl, compare_eq_iff_eq.mpr rfl]
  · rw [compare_gt_iff_gt.mpr h, compare_gt_iff_gt.mpr (Int.mul_lt_mul_of_pos_right h hpos)]

/-- **Comparing with an exact integer is comparing integers.** -/
theorem compare?_ofInt (hi : IsExact i) (j : Int) :
    (ofInt j).compare? (ofInt i) = some (compare j i) := by
  obtain ⟨a, ha, hunits⟩ := exists_ofInt_eq hi
  have hpos := unitsPerOne_pos
  have hi' : i.natAbs < 2 ^ 53 := hi
  by_cases hj : IsExact j
  · obtain ⟨b, hb, hunits'⟩ := exists_ofInt_eq hj
    rw [ha, hb, compare?_finite, hunits, hunits', signed_mul, signed_mul, compare_mul hpos]
  · -- the other integer is on its side of all exact ones
    have hj' : 2 ^ 53 ≤ j.natAbs := Nat.not_lt.mp hj
    have horder : compare j i = if j < 0 then .lt else .gt := by
      split
      · exact compare_lt_iff_lt.mpr (by omega)
      · exact compare_gt_iff_gt.mpr (by omega)
    rcases exists_ofInt_eq_of_not_exact hj with hb | ⟨b, hb, hunits'⟩
    · rw [ha, hb, horder]
      show some (if decide (j < 0) = true then _ else _) = _
      simp only [decide_eq_true_eq]
    · rw [ha, hb, compare?_finite, hunits, signed_mul, horder]
      have hlarge : (i.natAbs : Int) * unitsPerOne < b.units := by
        refine Int.lt_of_lt_of_le ?_ (Int.ofNat_le.mpr hunits')
        exact Int.ofNat_lt.mpr (Nat.mul_lt_mul_of_pos_right hi' hpos)
      have hbelow : -((i.natAbs : Int) * unitsPerOne) ≤ i * unitsPerOne := by
        rw [← Int.neg_mul]
        exact Int.mul_le_mul_of_nonneg_right (by omega) (Int.natCast_nonneg _)
      have habove : i * unitsPerOne ≤ (i.natAbs : Int) * unitsPerOne :=
        Int.mul_le_mul_of_nonneg_right (by omega) (Int.natCast_nonneg _)
      simp only [decide_eq_true_eq]
      split
      · rw [compare_lt_iff_lt.mpr (by omega)]
      · rw [compare_gt_iff_gt.mpr (by omega)]

theorem compare?_swap (x y : Binary64) : y.compare? x = (x.compare? y).map Ordering.swap := by
  rcases x with - | m | ⟨m, a⟩ <;> rcases y with - | n | ⟨n, b⟩
  all_goals try rfl
  · cases m <;> cases n <;> rfl
  · cases m <;> rfl
  · cases n <;> rfl
  · exact congrArg some Std.OrientedCmp.eq_swap

theorem compare?_ofInt_left (hi : IsExact i) (j : Int) :
    (ofInt i).compare? (ofInt j) = some (compare i j) := by
  rw [compare?_swap, compare?_ofInt hi, Option.map_some, ← Std.OrientedCmp.eq_swap]

/-- An exact integer is equal to no other. -/
theorem eq_ofInt (hi : IsExact i) : (ofInt j).eq (ofInt i) = true ↔ j = i := by
  rw [eq, compare?_ofInt hi, beq_iff_eq, Option.some.injEq, compare_eq_iff_eq]

theorem eq_ofInt_left (hi : IsExact i) : (ofInt i).eq (ofInt j) = true ↔ i = j := by
  rw [eq, compare?_ofInt_left hi, beq_iff_eq, Option.some.injEq, compare_eq_iff_eq]

/-! ### Extremes -/

/-- A fold stays at what gives way to nothing. -/
theorem foldl_eq_self {pick : Binary64 → Binary64 → Binary64} {m : Binary64}
    {numbers : List Binary64} (h : ∀ y ∈ numbers, pick m y = m) : numbers.foldl pick m = m := by
  induction numbers with
  | nil => rfl
  | cons y numbers ih =>
    obtain ⟨hy, hrest⟩ := List.forall_mem_cons.mp h
    rw [List.foldl_cons, hy]
    exact ih hrest

/-- A fold that picks one of two comes to what all others give way to. -/
theorem foldl_eq_of_mem {pick : Binary64 → Binary64 → Binary64}
    (hpick : ∀ x y, pick x y = x ∨ pick x y = y) {m x : Binary64} {numbers : List Binary64}
    (hx : pick x m = m) (h : ∀ y ∈ numbers, pick m y = m ∧ pick y m = m) (hm : m ∈ numbers) :
    numbers.foldl pick x = m := by
  induction numbers generalizing x with
  | nil => cases hm
  | cons y numbers ih =>
    obtain ⟨hy, hrest⟩ := List.forall_mem_cons.mp h
    rw [List.foldl_cons]
    rcases List.mem_cons.mp hm with rfl | hm
    · rw [hx]
      exact foldl_eq_self fun z hz => (hrest z hz).1
    · refine ih ?_ hrest hm
      rcases hpick x y with heq | heq
      · rw [heq]
        exact hx
      · rw [heq]
        exact hy.2

/-- **The greatest of integers is theirs**, if it is exact. -/
theorem foldl_larger_ofInt {stored : List Int} (hi : IsExact i) (hmem : i ∈ stored)
    (h : ∀ j ∈ stored, j ≤ i) : (stored.map ofInt).foldl larger bottom = ofInt i := by
  obtain ⟨size, hsize, -⟩ := exists_ofInt_eq hi
  refine foldl_eq_of_mem Aggregate.larger_eq ?_ (fun y hy => ?_) (List.mem_map_of_mem hmem)
  · rw [hsize]
    rfl
  · obtain ⟨j, hj, rfl⟩ := List.mem_map.mp hy
    rw [larger, larger, compare?_ofInt hi, compare?_ofInt_left hi]
    rcases Int.lt_or_eq_of_le (h j hj) with hlt | rfl
    · rw [compare_lt_iff_lt.mpr hlt, compare_gt_iff_gt.mpr hlt]
      exact ⟨rfl, rfl⟩
    · rw [compare_eq_iff_eq.mpr rfl]
      exact ⟨rfl, rfl⟩

/-- **The smallest of integers is theirs**, if it is exact. -/
theorem foldl_smaller_ofInt {stored : List Int} (hi : IsExact i) (hmem : i ∈ stored)
    (h : ∀ j ∈ stored, i ≤ j) : (stored.map ofInt).foldl smaller top = ofInt i := by
  obtain ⟨size, hsize, -⟩ := exists_ofInt_eq hi
  refine foldl_eq_of_mem Aggregate.smaller_eq ?_ (fun y hy => ?_) (List.mem_map_of_mem hmem)
  · rw [hsize]
    rfl
  · obtain ⟨j, hj, rfl⟩ := List.mem_map.mp hy
    rw [smaller, smaller, compare?_ofInt hi, compare?_ofInt_left hi]
    rcases Int.lt_or_eq_of_le (h j hj) with hlt | rfl
    · rw [compare_lt_iff_lt.mpr hlt, compare_gt_iff_gt.mpr hlt]
      exact ⟨rfl, rfl⟩
    · rw [compare_eq_iff_eq.mpr rfl]
      exact ⟨rfl, rfl⟩

/-! ### Writing integers -/

theorem whole?_ofInt (hi : IsExact i) : (ofInt i).whole? = some i := by
  obtain ⟨size, hsize, hunits⟩ := exists_ofInt_eq hi
  have hpos := unitsPerOne_pos
  rw [hsize, whole?, hunits]
  generalize unitsPerOne = unit at hpos ⊢
  have hsigned := signed_mul i 1
  rw [Nat.mul_one, Int.natCast_one, Int.mul_one] at hsigned
  rw [if_pos (Nat.mul_mod_left _ _), Nat.mul_div_cancel _ hpos]
  exact congrArg some hsigned

end Binary64

/-- What is written as an integer is exact. -/
theorem Scalar.isExact_of_toJson {v : Scalar} {i : Int} (h : v.toJson = .ofInt i) : IsExact i := by
  unfold toJson at h
  split at h
  · split at h
    · split at h
      · rename_i hbound
        cases h
        exact Int.ofNat_lt.mp hbound
      · cases h
    · cases h
  · cases h

/-- **Exact integers are written as they are.** -/
theorem Scalar.toJson_ofInt {i : Int} (hi : IsExact i) : (number (.ofInt i)).toJson = .ofInt i := by
  have hbound : (i.natAbs : Int) < integerBound := Int.ofNat_lt.mpr hi
  rw [toJson, Binary64.whole?_ofInt hi]
  exact if_pos hbound

end CampusQuery
