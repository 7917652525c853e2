/-
CampusQuery/Proofs/Decimal/Nearest.lean

What it means that a binary number is nearest to a rational one.

Finite numbers have values (`Binary64.value`).  Nearest to `v` is a number that no other is nearer
than, and of two equally near ones the one with the even significand (`Binary64.IsNearest`).  That
determines it up to the sign of zero (`IsNearest.value_eq`), and it is what reading a decimal gives
as long as the decimal is within the range of the format (`Decimal.isNearest_toBinary64`).

The nearest number changes only at the points halfway between two neighbours (`IsHalfway`):
it is the same for all that is on one side of every such point (`IsNearest.of_not_isHalfway`).
-/
import CampusQuery.Proofs.Decimal.Range
import CampusQuery.Proofs.Decimal.Value
import Mathlib.Algebra.Ring.Parity
import Mathlib.Order.Interval.Set.UnorderedInterval

namespace CampusQuery

/-! ### Rounding a quotient -/

/-- Rounding to a natural number moves by a half at most, and by a half to even numbers only. -/
theorem abs_roundHalfEven_sub (n : ℕ) {d : ℕ} (hd : 0 < d) :
    |(roundHalfEven n d : ℚ) - n / d| ≤ 1 / 2 ∧
      (|(roundHalfEven n d : ℚ) - n / d| = 1 / 2 → Even (roundHalfEven n d)) := by
  have hlt : ((n % d : ℕ) : ℚ) / d < 1 :=
    (div_lt_one (Nat.cast_pos.mpr hd)).mpr (Nat.cast_lt.mpr (Nat.mod_lt n hd))
  have hnonneg : (0 : ℚ) ≤ (n % d : ℕ) / d := by positivity
  rw [natCast_div_eq hd, roundHalfEven]
  simp only [← natCast_div_lt_half_iff hd, ← half_lt_natCast_div_iff hd]
  generalize ((n % d : ℕ) : ℚ) / d = rest at hlt hnonneg ⊢
  generalize n / d = q
  have hbelow : |(q : ℚ) - (q + rest)| = rest := by
    rw [sub_add_cancel_left, abs_neg, abs_of_nonneg hnonneg]
  have habove : |((q + 1 : ℕ) : ℚ) - (q + rest)| = 1 - rest := by
    rw [Nat.cast_add, Nat.cast_one, add_sub_add_left_eq_sub, abs_of_nonneg (sub_nonneg.mpr hlt.le)]
  rcases lt_trichotomy rest (1 / 2) with hless | heq | hmore
  · rw [if_pos hless, hbelow]
    exact ⟨hless.le, fun h => absurd h hless.ne⟩
  · rw [if_neg heq.not_lt, if_neg heq.not_gt]
    split
    · rename_i heven
      exact ⟨hbelow.trans_le heq.le, fun _ => Nat.even_iff.mpr heven⟩
    · rename_i hodd
      rw [habove]
      exact ⟨by linarith, fun _ => Nat.even_add_one.mpr fun h => hodd (Nat.even_iff.mp h)⟩
  · rw [if_neg hmore.not_gt, if_pos hmore, habove]
    exact ⟨by linarith, fun h => absurd h (by linarith)⟩

/-- No natural number is nearer to a quotient than what it is rounded to, and if one is equally
near, then that is even. -/
theorem roundHalfEven_closest (n : ℕ) {d k : ℕ} (hd : 0 < d) (hk : k ≠ roundHalfEven n d) :
    |(roundHalfEven n d : ℚ) - n / d| ≤ |(k : ℚ) - n / d| ∧
      (|(k : ℚ) - n / d| = |(roundHalfEven n d : ℚ) - n / d| → Even (roundHalfEven n d)) := by
  obtain ⟨hle, heven⟩ := abs_roundHalfEven_sub n hd
  generalize roundHalfEven n d = m at hk hle heven ⊢
  generalize (n : ℚ) / d = t at hle heven ⊢
  have hapart : (1 : ℚ) ≤ |(k : ℚ) - m| := by
    have h : (1 : ℤ) ≤ |(k : ℤ) - m| :=
      Int.one_le_abs (sub_ne_zero.mpr (mt Int.ofNat_inj.mp hk))
    exact_mod_cast h
  have hfar : 1 ≤ |(k : ℚ) - t| + |(m : ℚ) - t| :=
    hapart.trans ((abs_sub_le _ t _).trans_eq (by rw [abs_sub_comm t]))
  exact ⟨by linarith, fun h => heven (le_antisymm hle (by linarith))⟩

namespace Magnitude

/-! ### The nearest magnitude -/

variable {a b : Magnitude} {n d : ℕ}

/-- The distance of a multiple of the last unit is that many times one between quotients. -/
theorem abs_mul_pow_sub (hd : 0 < d) (s k : ℕ) : |((k * 2 ^ s : ℕ) : ℚ) - n / d| =
    2 ^ s * |(k : ℚ) - n / (d * 2 ^ s : ℕ)| := by
  have hpos : (0 : ℚ) < 2 ^ s := by positivity
  have hd' : (0 : ℚ) < d := Nat.cast_pos.mpr hd
  have hfactor : ((k * 2 ^ s : ℕ) : ℚ) - n / d = 2 ^ s * ((k : ℚ) - n / (d * 2 ^ s : ℕ)) := by
    push_cast
    field_simp
  rw [hfactor, abs_mul, abs_of_pos hpos]

/-- The significand found is the quotient rounded, or even where that is carried. -/
theorem even_significand_of_nearest? (h : nearest? n d = some a)
    (heven : Even (roundHalfEven n (d * 2 ^ roundingShift n d))) : Even a.significand := by
  rcases nearest?_eq n d with ⟨-, heq⟩ | ⟨-, heq⟩
  · rw [heq] at h
    obtain ⟨hcanonical, h⟩ := Option.dite_none_right_eq_some.mp h
    obtain rfl := Option.some.inj h
    exact Nat.even_pow.mpr ⟨even_two, by decide⟩
  · rw [heq] at h
    obtain ⟨hcanonical, h⟩ := Option.dite_none_right_eq_some.mp h
    obtain rfl := Option.some.inj h
    exact heven

/-- With a lesser shift there are fewer units than the least significand has with the greater. -/
theorem units_lt_mul_pow {s : ℕ} (h : b.shift < s) : b.units < 2 ^ 52 * 2 ^ s := by
  obtain ⟨i, rfl⟩ := Nat.exists_eq_add_of_lt h
  calc b.units
      = b.significand * 2 ^ b.shift := units_eq b
    _ < 2 ^ 53 * 2 ^ b.shift := Nat.mul_lt_mul_of_pos_right b.canonical.1 (Nat.two_pow_pos _)
    _ = 2 ^ 52 * 2 ^ (b.shift + 1) := by ring
    _ ≤ 2 ^ 52 * 2 ^ (b.shift + i + 1) :=
      Nat.mul_le_mul_left _ (Nat.pow_le_pow_right Nat.two_pos (by omega))

/-- Multiples of the last unit are not nearer. -/
theorem abs_units_sub_le (hd : 0 < d) (h : nearest? n d = some a) {k : ℕ}
    (hk : k * 2 ^ roundingShift n d ≠ a.units) :
    |(a.units : ℚ) - n / d| ≤ |((k * 2 ^ roundingShift n d : ℕ) : ℚ) - n / d| ∧
      (|((k * 2 ^ roundingShift n d : ℕ) : ℚ) - n / d| = |(a.units : ℚ) - n / d| →
        Even a.significand) := by
  have hunits : a.units = roundHalfEven n (d * 2 ^ roundingShift n d) * 2 ^ roundingShift n d :=
    units_of_nearest? h
  have heven := even_significand_of_nearest? h
  generalize roundingShift n d = s at hk hunits heven ⊢
  have hne : k ≠ roundHalfEven n (d * 2 ^ s) := by
    rintro rfl
    exact hk hunits.symm
  obtain ⟨hle, htie⟩ := roundHalfEven_closest n (Nat.mul_pos hd (Nat.two_pow_pos s)) hne
  have hpos : (0 : ℚ) < 2 ^ s := by positivity
  rw [hunits, abs_mul_pow_sub hd, abs_mul_pow_sub hd]
  exact ⟨mul_le_mul_of_nonneg_left hle hpos.le,
    fun h => heven (htie (mul_left_cancel₀ hpos.ne' h))⟩

/-- **No magnitude is nearer to a quotient of units than the one that is found**, and if one is
equally near, then the significand found is even. -/
theorem closest_of_nearest? (hd : 0 < d) (h : nearest? n d = some a) (hb : b ≠ a) :
    |(a.units : ℚ) - n / d| ≤ |(b.units : ℚ) - n / d| ∧
      (|(b.units : ℚ) - n / d| = |(a.units : ℚ) - n / d| → Even a.significand) := by
  have hmultiple {k : ℕ} := abs_units_sub_le hd h (k := k)
  have hnormal := le_of_roundingShift (n := n) hd
  generalize roundingShift n d = s at hmultiple hnormal
  by_cases hshift : s ≤ b.shift
  · -- the other magnitude is a multiple of the last unit
    have hunits : b.units = b.significand * 2 ^ (b.shift - s) * 2 ^ s := by
      rw [mul_assoc, ← pow_add, Nat.sub_add_cancel hshift, units_eq]
    rw [hunits]
    exact hmultiple fun heq => hb (units_inj (hunits.trans heq))
  · -- it is less than the least one with the shift found, and the quotient is not
    have hless : (b.units : ℚ) < (2 ^ 52 * 2 ^ s : ℕ) :=
      Nat.cast_lt.mpr (units_lt_mul_pow (Nat.not_le.mp hshift))
    have hleast : ((2 ^ 52 * 2 ^ s : ℕ) : ℚ) ≤ n / d := by
      rw [le_div_iff₀ (Nat.cast_pos.mpr hd)]
      calc ((2 ^ 52 * 2 ^ s : ℕ) : ℚ) * d
          = (2 ^ 52 * (d * 2 ^ s) : ℕ) := by push_cast; ring
        _ ≤ n := Nat.cast_le.mpr (hnormal (by omega))
    have hle : |(a.units : ℚ) - n / d| ≤ |((2 ^ 52 * 2 ^ s : ℕ) : ℚ) - n / d| := by
      by_cases hk : 2 ^ 52 * 2 ^ s = a.units
      · rw [hk]
      · exact (hmultiple hk).1
    have hlt : |(a.units : ℚ) - n / d| < |(b.units : ℚ) - n / d| := by
      rw [abs_of_nonpos (sub_nonpos.mpr hleast)] at hle
      rw [abs_of_neg (sub_neg.mpr (hless.trans_le hleast))]
      exact hle.trans_lt (neg_lt_neg (sub_lt_sub_right hless _))
    exact ⟨hlt.le, fun h => absurd h hlt.ne'⟩

/-! ### Values -/

/-- The number that a magnitude is. -/
def value (a : Magnitude) : ℚ := a.units / unitsPerOne

theorem cast_unitsPerOne_pos : (0 : ℚ) < unitsPerOne := Nat.cast_pos.mpr unitsPerOne_pos

theorem value_nonneg (a : Magnitude) : 0 ≤ a.value :=
  div_nonneg (Nat.cast_nonneg _) cast_unitsPerOne_pos.le

theorem value_zero : (0 : Magnitude).value = 0 := by
  have hunits : (0 : Magnitude).units = 0 := rfl
  rw [value, hunits, Nat.cast_zero, zero_div]

theorem value_lt_iff : a.value < b.value ↔ a.units < b.units := by
  rw [value, value, div_lt_div_iff_of_pos_right cast_unitsPerOne_pos, Nat.cast_lt]

theorem value_inj : a.value = b.value ↔ a = b := by
  rw [value, value, div_left_inj' cast_unitsPerOne_pos.ne', Nat.cast_inj]
  exact ⟨units_inj, fun h => h ▸ rfl⟩

/-- Distances are the same in units. -/
theorem abs_value_sub {v : ℚ} (h : v * unitsPerOne = n / d) (b : Magnitude) :
    |b.value - v| * unitsPerOne = |(b.units : ℚ) - n / d| := by
  have hpos := cast_unitsPerOne_pos
  rw [← h, value]
  generalize (unitsPerOne : ℚ) = unit at hpos ⊢
  rw [← abs_of_pos hpos, ← abs_mul, abs_of_pos hpos, sub_mul, div_mul_cancel₀ _ hpos.ne']

/-- The next magnitude after an even one is odd. -/
theorem exists_succ (ha : Even a.significand) :
    ∃ b : Magnitude, ¬ Even b.significand ∧ a.units < b.units ∧
      ∀ c : Magnitude, a.units < c.units → b.units ≤ c.units := by
  obtain ⟨hbound, hshift, hnormal⟩ := a.canonical
  have hlt : a.significand + 1 < Nat.pow 2 53 := by
    obtain ⟨k, hk⟩ := ha
    show _ < 2 ^ 53
    change a.significand < 2 ^ 53 at hbound
    omega
  have hunits : (a.significand + 1) * 2 ^ a.shift = a.units + 2 ^ a.shift := by
    rw [Nat.succ_mul, units_eq]
  obtain ⟨b, hsignificand, hb⟩ : ∃ b : Magnitude, b.significand = a.significand + 1 ∧
      b.units = a.units + 2 ^ a.shift :=
    ⟨⟨a.significand + 1, a.shift, hlt, hshift, hnormal.imp_right Nat.le_succ_of_le⟩, rfl,
      (units_eq _).trans hunits⟩
  refine ⟨b, fun h => ?_, ?_, fun c hc => ?_⟩
  · rw [hsignificand, Nat.even_add_one] at h
    exact h ha
  · rw [hb]
    exact Nat.lt_add_of_pos_right (Nat.two_pow_pos _)
  · -- what is greater is a multiple of the same last unit
    rw [hb, ← hunits]
    have hge : a.shift ≤ c.shift := by
      by_contra h
      exact absurd hc (units_lt_of_shift_lt (Nat.not_le.mp h)).not_gt
    obtain ⟨i, hi⟩ := Nat.exists_eq_add_of_le hge
    have hmultiple : c.units = c.significand * 2 ^ i * 2 ^ a.shift := by
      rw [units_eq, hi, Nat.pow_add]
      ring
    rw [hmultiple, units_eq] at hc
    rw [hmultiple]
    exact Nat.mul_le_mul_right _ (Nat.lt_of_mul_lt_mul_right hc)

end Magnitude

namespace Binary64

variable {x y : Binary64} {v w : ℚ}

/-- The signed number of units of a finite number. -/
def signedUnits (x : Binary64) : ℤ := x.toUnits?.getD 0

/-- The number that a finite number is. -/
def value (x : Binary64) : ℚ := x.signedUnits / Magnitude.unitsPerOne

/-- The number of the other sign. -/
def neg : Binary64 → Binary64
  | .notANumber => .notANumber
  | .infinite negative => .infinite !negative
  | .finite negative size => .finite (!negative) size

/-- The significand is even. -/
def HasEvenSignificand : Binary64 → Prop
  | .finite _ size => Even size.significand
  | _ => False

theorem exists_eq_finite (hx : x.isFinite = true) : ∃ negative size, x = finite negative size := by
  cases x with
  | notANumber => cases hx
  | infinite _ => cases hx
  | finite negative size => exact ⟨negative, size, rfl⟩

theorem signedUnits_neg (x : Binary64) : x.neg.signedUnits = -x.signedUnits := by
  rcases x with - | - | ⟨negative, size⟩
  · rfl
  · rfl
  · cases negative
    · rfl
    · exact (neg_neg _).symm

theorem value_neg (x : Binary64) : x.neg.value = -x.value := by
  rw [value, value, signedUnits_neg, Int.cast_neg, neg_div]

theorem neg_involutive : Function.Involutive neg := by
  rintro (- | negative | ⟨negative, size⟩)
  · rfl
  · exact congrArg infinite (Bool.not_not negative)
  · exact congrArg (finite · size) (Bool.not_not negative)

theorem isFinite_neg : x.neg.isFinite = x.isFinite := by
  rcases x with - | - | - <;> rfl

theorem hasEvenSignificand_neg : x.neg.HasEvenSignificand ↔ x.HasEvenSignificand := by
  rcases x with - | - | - <;> exact Iff.rfl

theorem value_lt_iff : x.value < y.value ↔ x.signedUnits < y.signedUnits := by
  rw [value, value, div_lt_div_iff_of_pos_right Magnitude.cast_unitsPerOne_pos, Int.cast_lt]

theorem value_inj : x.value = y.value ↔ x.signedUnits = y.signedUnits := by
  rw [value, value, div_left_inj' Magnitude.cast_unitsPerOne_pos.ne', Int.cast_inj]

theorem value_finite_false (size : Magnitude) : (finite false size).value = size.value := by
  have hunits : (finite false size).signedUnits = size.units := rfl
  rw [value, hunits, Int.cast_natCast, Magnitude.value]

theorem value_finite_true (size : Magnitude) : (finite true size).value = -size.value := by
  have hneg : finite true size = (finite false size).neg := rfl
  rw [hneg, value_neg, value_finite_false]

theorem abs_value_finite (negative : Bool) (size : Magnitude) :
    |(finite negative size).value| = size.value := by
  cases negative
  · rw [value_finite_false, abs_of_nonneg size.value_nonneg]
  · rw [value_finite_true, abs_neg, abs_of_nonneg size.value_nonneg]

/-- Finite numbers are numerically equal when their values are. -/
theorem eq_iff_value (hx : x.isFinite = true) (hy : y.isFinite = true) :
    x.eq y = true ↔ x.value = y.value := by
  obtain ⟨m, a, rfl⟩ := exists_eq_finite hx
  obtain ⟨n, b, rfl⟩ := exists_eq_finite hy
  rw [eq_finite_iff, value_inj]
  rfl

/-- The finite numbers above one have a least one, if there are any. -/
theorem exists_least_above (hy : y.isFinite = true) (hxy : x.value < y.value) :
    ∃ z : Binary64, z.isFinite = true ∧ x.value < z.value ∧
      ∀ u : Binary64, u.isFinite = true → x.value < u.value → z.value ≤ u.value := by
  let above : Set Binary64 := {u | u.isFinite = true ∧ x.value < u.value}
  obtain ⟨z, ⟨hz, hxz⟩, hmin⟩ :=
    (measure fun u : Binary64 => (u.signedUnits - x.signedUnits).toNat).wf.has_min above
      ⟨y, hy, hxy⟩
  refine ⟨z, hz, hxz, fun u hu hxu => ?_⟩
  have hnot : ¬ (u.signedUnits - x.signedUnits).toNat < (z.signedUnits - x.signedUnits).toNat :=
    hmin u ⟨hu, hxu⟩
  rw [value_lt_iff] at hxz hxu
  rw [← not_lt, value_lt_iff]
  omega

/-! ### The nearest number -/

/-- The number nearest to `v`: it is finite, no other is nearer, and if another is equally near,
then its significand is even. -/
structure IsNearest (x : Binary64) (v : ℚ) : Prop where
  isFinite : x.isFinite = true
  closest : ∀ y : Binary64, y.isFinite = true → |x.value - v| ≤ |y.value - v|
  even : ∀ y : Binary64, y.isFinite = true → y.value ≠ x.value → |y.value - v| = |x.value - v| →
    x.HasEvenSignificand

/-- A point halfway between two neighbours among the finite numbers. -/
def IsHalfway (t : ℚ) : Prop :=
  ∃ x y : Binary64, x.isFinite = true ∧ y.isFinite = true ∧ x.value < y.value ∧
    (∀ z : Binary64, z.isFinite = true → ¬ (x.value < z.value ∧ z.value < y.value)) ∧
    t = (x.value + y.value) / 2

theorem IsHalfway.neg {t : ℚ} (h : IsHalfway t) : IsHalfway (-t) := by
  obtain ⟨x, y, hx, hy, hxy, hnone, rfl⟩ := h
  refine ⟨y.neg, x.neg, isFinite_neg.trans hy, isFinite_neg.trans hx, ?_, fun z hz hbetween => ?_,
    ?_⟩
  · rw [value_neg, value_neg]
    exact neg_lt_neg hxy
  · rw [value_neg, value_neg] at hbetween
    refine hnone z.neg (isFinite_neg.trans hz) ?_
    rw [value_neg]
    exact ⟨lt_neg.mp hbetween.2, neg_lt.mp hbetween.1⟩
  · rw [value_neg, value_neg]
    ring

namespace IsNearest

theorem neg (h : x.IsNearest v) : x.neg.IsNearest (-v) := by
  have hdist (y : Binary64) : |y.value - -v| = |y.neg.value - v| := by
    rw [value_neg, ← abs_neg]
    congr 1
    ring
  refine ⟨isFinite_neg.trans h.isFinite, fun y hy => ?_, fun y hy hne htie => ?_⟩
  · rw [hdist, hdist, neg_involutive]
    exact h.closest _ (isFinite_neg.trans hy)
  · rw [hdist, hdist, neg_involutive] at htie
    refine hasEvenSignificand_neg.mpr (h.even _ (isFinite_neg.trans hy) (fun heq => hne ?_) htie)
    rw [value_neg, ← heq, value_neg, neg_neg]

/-- Of numbers that are not negative it is enough to look at the magnitudes. -/
theorem of_magnitude {size : Magnitude} (hv : 0 ≤ v)
    (h : ∀ b : Magnitude, b ≠ size → |size.value - v| ≤ |b.value - v| ∧
      (|b.value - v| = |size.value - v| → Even size.significand)) :
    (finite false size).IsNearest v := by
  -- a number is not nearer than its magnitude
  have hfold (m : Bool) (b : Magnitude) : |b.value - v| ≤ |(finite m b).value - v| := by
    have h := abs_abs_sub_abs_le (finite m b).value v
    rwa [abs_value_finite, abs_of_nonneg hv] at h
  refine ⟨rfl, fun y hy => ?_, fun y hy hne htie => ?_⟩
  · obtain ⟨m, b, rfl⟩ := exists_eq_finite hy
    rw [value_finite_false]
    by_cases hb : b = size
    · exact hb ▸ hfold m b
    · exact (h b hb).1.trans (hfold m b)
  · obtain ⟨m, b, rfl⟩ := exists_eq_finite hy
    rw [value_finite_false] at hne htie
    by_cases hb : b = size
    · -- opposite numbers are equally near to zero alone, and to that zero is nearer
      subst hb
      cases m
      · exact absurd (value_finite_false b) hne
      · rw [value_finite_true] at hne htie
        have hpos : 0 < b.value := by
          refine b.value_nonneg.lt_of_ne' fun hzero => hne ?_
          rw [hzero, neg_zero]
        have hvzero : v = 0 := by
          rcases abs_eq_abs.mp htie with heq | heq <;> linarith
        have hne' : (0 : Magnitude) ≠ b := by
          rintro rfl
          exact hpos.ne' Magnitude.value_zero
        have hle := (h 0 hne').1
        rw [hvzero, Magnitude.value_zero, sub_zero, sub_zero, abs_zero, abs_of_pos hpos] at hle
        exact absurd hle hpos.not_ge
    · exact (h b hb).2 (le_antisymm ((hfold m b).trans_eq htie) (h b hb).1)

/-- What is nearest to `w` is nearest to all between `w` and it. -/
theorem of_between (h : x.IsNearest w) (hv : v ∈ Set.uIcc x.value w) : x.IsNearest v := by
  have hsplit : |x.value - v| + |v - w| = |x.value - w| := by
    rcases Set.mem_uIcc.mp hv with ⟨hxv, hvw⟩ | ⟨hwv, hvx⟩
    · rw [abs_of_nonpos (sub_nonpos.mpr hxv), abs_of_nonpos (sub_nonpos.mpr hvw),
        abs_of_nonpos (sub_nonpos.mpr (hxv.trans hvw))]
      ring
    · rw [abs_of_nonneg (sub_nonneg.mpr hvx), abs_of_nonneg (sub_nonneg.mpr hwv),
        abs_of_nonneg (sub_nonneg.mpr (hwv.trans hvx))]
      ring
  refine ⟨h.isFinite, fun y hy => ?_, fun y hy hne htie => ?_⟩
  · have hle := h.closest y hy
    have htriangle := abs_sub_le y.value v w
    linarith
  · have hle := h.closest y hy
    have htriangle := abs_sub_le y.value v w
    exact h.even y hy hne (by linarith)

/-- Only the value of a number counts. -/
theorem congr (h : x.IsNearest v) (hy : y.isFinite = true) (hvalue : y.value = x.value) :
    y.IsNearest v := by
  refine ⟨hy, fun z hz => ?_, fun z hz hne htie => ?_⟩
  · rw [hvalue]
    exact h.closest z hz
  · rw [hvalue] at hne htie
    have heven := h.even z hz hne htie
    obtain ⟨m, a, rfl⟩ := exists_eq_finite h.isFinite
    obtain ⟨n, b, rfl⟩ := exists_eq_finite hy
    have habs : b.value = a.value := by
      rw [← abs_value_finite n b, hvalue, abs_value_finite]
    rw [Magnitude.value_inj.mp habs]
    exact heven

/-- Two numbers that are both nearest have nothing between them. -/
theorem not_between (hx : x.IsNearest v) (hy : y.IsNearest v) {z : Binary64}
    (hz : z.isFinite = true) : ¬ (x.value < z.value ∧ z.value < y.value) := by
  rintro ⟨hxz, hzy⟩
  have hle := hx.closest z hz
  have heq := le_antisymm (hx.closest y hy.isFinite) (hy.closest x hx.isFinite)
  rcases abs_eq_abs.mp heq with h | h
  · linarith
  · -- the point is in the middle
    rw [abs_of_neg (by linarith : x.value - v < 0), le_abs] at hle
    rcases hle with hle | hle <;> linarith

/-- They would both have the even significand, but neighbours do not. -/
theorem not_value_lt_of_nonneg (hx : x.IsNearest v) (hy : y.IsNearest v) (hnonneg : 0 ≤ x.value) :
    ¬ x.value < y.value := by
  intro hlt
  have htie := le_antisymm (hx.closest y hy.isFinite) (hy.closest x hx.isFinite)
  have hxeven := hx.even y hy.isFinite hlt.ne' htie.symm
  have hyeven := hy.even x hx.isFinite hlt.ne htie
  obtain ⟨m, a, rfl⟩ := exists_eq_finite hx.isFinite
  obtain ⟨n, b, rfl⟩ := exists_eq_finite hy.isFinite
  have hvaluex := abs_value_finite m a
  have hvaluey := abs_value_finite n b
  rw [abs_of_nonneg hnonneg] at hvaluex
  rw [abs_of_nonneg (hnonneg.trans hlt.le)] at hvaluey
  obtain ⟨c, hodd, hac, hleast⟩ := Magnitude.exists_succ hxeven
  refine hx.not_between hy (z := finite false c) rfl ?_
  rw [hvaluex, hvaluey, Magnitude.value_lt_iff] at hlt
  rw [hvaluex, hvaluey, value_finite_false, Magnitude.value_lt_iff, Magnitude.value_lt_iff]
  refine ⟨hac, (hleast b hlt).lt_of_ne fun hcb => hodd ?_⟩
  rw [Magnitude.units_inj hcb]
  exact hyeven

theorem not_value_lt (hx : x.IsNearest v) (hy : y.IsNearest v) : ¬ x.value < y.value := by
  intro hlt
  rcases le_or_gt 0 x.value with hpos | hneg
  · exact not_value_lt_of_nonneg hx hy hpos hlt
  · rcases le_or_gt y.value 0 with hy0 | hy0
    · refine not_value_lt_of_nonneg hy.neg hx.neg ?_ ?_
      · rw [value_neg]
        exact neg_nonneg.mpr hy0
      · rw [value_neg, value_neg]
        exact neg_lt_neg hlt
    · refine hx.not_between hy (z := finite false 0) rfl ?_
      rw [value_finite_false, Magnitude.value_zero]
      exact ⟨hneg, hy0⟩

/-- **The nearest number is determined** up to the sign of zero. -/
theorem value_eq (hx : x.IsNearest v) (hy : y.IsNearest v) : x.value = y.value :=
  le_antisymm (not_lt.mp (not_value_lt hy hx)) (not_lt.mp (not_value_lt hx hy))

/-- A number below another one that is nearer to `v` has a point halfway to its neighbour up to
`v`. -/
theorem exists_halfway_le (hx : x.IsNearest w) (hy : y.isFinite = true) (hxy : x.value < y.value)
    (hv : |y.value - v| ≤ |x.value - v|) : ∃ t, IsHalfway t ∧ w ≤ t ∧ t ≤ v := by
  obtain ⟨z, hz, hxz, hleast⟩ := exists_least_above hy hxy
  have hw := hx.closest z hz
  have hzy := hleast y hy hxy
  refine ⟨(x.value + z.value) / 2, ⟨x, z, hx.isFinite, hz, hxz, fun u hu h => ?_, rfl⟩, ?_, ?_⟩
  · exact absurd (hleast u hu h.1) h.2.not_ge
  · by_contra hlt
    rw [abs_of_neg (by linarith : x.value - w < 0), le_abs] at hw
    rcases hw with hw | hw <;> linarith
  · by_contra hlt
    rw [abs_of_pos (by linarith : 0 < y.value - v), le_abs] at hv
    rcases hv with hv | hv <;> linarith

/-- **The nearest number changes only at points halfway between neighbours.** -/
theorem of_not_isHalfway (hx : x.IsNearest w) (h : ∀ t, IsHalfway t → t ∉ Set.uIcc v w) :
    x.IsNearest v := by
  -- every other number is farther from `v`
  have hfar (y : Binary64) (hy : y.isFinite = true) (hne : y.value ≠ x.value) :
      |x.value - v| < |y.value - v| := by
    by_contra hle
    rw [not_lt] at hle
    rcases lt_or_gt_of_ne hne with hlt | hgt
    · obtain ⟨t, ht, hwt, htv⟩ := exists_halfway_le (v := -v) hx.neg (isFinite_neg.trans hy)
        (by rw [value_neg, value_neg]; exact neg_lt_neg hlt)
        (by rwa [value_neg, value_neg, neg_sub_neg, neg_sub_neg, abs_sub_comm, abs_sub_comm v])
      refine h (-t) ht.neg (Set.mem_uIcc.mpr (.inl ⟨?_, ?_⟩)) <;> linarith
    · obtain ⟨t, ht, hwt, htv⟩ := hx.exists_halfway_le hy hgt hle
      exact h t ht (Set.mem_uIcc.mpr (.inr ⟨hwt, htv⟩))
  refine ⟨hx.isFinite, fun y hy => ?_, fun y hy hne htie => ?_⟩
  · by_cases hvalue : y.value = x.value
    · rw [hvalue]
    · exact (hfar y hy hvalue).le
  · exact absurd htie (hfar y hy hne).ne'

end IsNearest

end Binary64

namespace Magnitude

theorem ofScientific?_neg (c scale : ℕ) :
    ofScientific? c (-(scale : ℤ)) = nearest? (c * unitsPerOne) (10 ^ scale) := by
  by_cases hc : c = 0
  · have hzero : nearest? 0 (10 ^ scale) = some 0 := nearest?_eq_zero (Nat.pow_pos (by decide))
    rw [hc, Nat.zero_mul, hzero]
    rfl
  · rw [ofScientific?_eq hc, nearestScientific?_neg]

/-- What digits are read as is nearest to them. -/
theorem isNearest_of_ofScientific? {c scale : ℕ} {size : Magnitude}
    (h : ofScientific? c (-(scale : ℤ)) = some size) :
    (Binary64.finite false size).IsNearest (c / 10 ^ scale) := by
  rw [ofScientific?_neg] at h
  refine .of_magnitude (by positivity) fun b hb => ?_
  have hunit := cast_unitsPerOne_pos
  have hvalue : (c / 10 ^ scale : ℚ) * unitsPerOne = (c * unitsPerOne : ℕ) / (10 ^ scale : ℕ) := by
    rw [Nat.cast_mul, Nat.cast_pow, Nat.cast_ofNat, div_mul_eq_mul_div]
  obtain ⟨hle, heven⟩ := closest_of_nearest? (Nat.pow_pos (by decide)) h hb
  rw [← abs_value_sub hvalue, ← abs_value_sub hvalue] at hle heven
  exact ⟨le_of_mul_le_mul_right hle hunit, fun htie => heven (by rw [htie])⟩

end Magnitude

/-- **Reading a decimal gives the number nearest to it**, unless it overflows. -/
theorem Decimal.isNearest_toBinary64 {a : Decimal} (h : ¬ a.Overflows) :
    a.toBinary64.IsNearest a.value := by
  rw [Overflows, ← Magnitude.ofScientific?_eq_none_iff] at h
  obtain ⟨size, hsize⟩ := Option.ne_none_iff_exists'.mp h
  have hnearest := Magnitude.isNearest_of_ofScientific? hsize
  rw [← abs_value] at hnearest
  rw [toBinary64, Binary64.ofScientific, hsize]
  by_cases hneg : a.coefficient < 0
  · rw [abs_of_neg (value_neg_iff.mpr hneg)] at hnearest
    rw [decide_eq_true hneg]
    have h := hnearest.neg
    rwa [neg_neg] at h
  · rw [abs_of_nonneg (not_lt.mp (mt value_neg_iff.mp hneg))] at hnearest
    rwa [decide_eq_false hneg]

/-- A decimal overflows from the least number beyond all magnitudes on. -/
theorem Decimal.overflows_iff {a : Decimal} :
    a.Overflows ↔ (Magnitude.overflow : ℚ) ≤ |a.value| := by
  rw [Overflows, abs_value, le_div_iff₀ (by positivity)]
  exact_mod_cast Iff.rfl

end CampusQuery
