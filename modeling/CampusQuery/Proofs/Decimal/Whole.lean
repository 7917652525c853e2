/-
CampusQuery/Proofs/Decimal/Whole.lean

Whole numbers among the binary numbers.

Up to the power of two after the significands, every whole number is a binary number
(`exists_value_eq`), and other integers are taken as the nearest one (`isNearest_ofInt`).  Below
that power nothing else is nearer to a whole number than half a unit, so a shortest decimal form of
it is the number itself (`value_shortest`): it may have fewer digits than the whole part of the
number, but then these are its digits without the zeros at the end.  So a whole number is written as
integers are (`plainText_eq`).
-/
import CampusQuery.Decimal.Layout
import CampusQuery.Proofs.Dataset.Integers
import CampusQuery.Proofs.Decimal.Fewest

namespace CampusQuery

open Magnitude (unitsPerOne cast_unitsPerOne_pos)

variable {x y : Binary64} {v : ℚ} {i : ℤ} {n : ℕ}

/-! ### Nearest numbers -/

namespace Binary64

theorem isNearest_self (hx : x.isFinite = true) : x.IsNearest x.value where
  isFinite := hx
  closest y _ := by
    rw [sub_self, abs_zero]
    exact abs_nonneg _
  even y _ hne htie := by
    rw [sub_self, abs_zero, abs_eq_zero, sub_eq_zero] at htie
    exact absurd htie hne

namespace IsNearest

/-- A number that has the value is the nearest one. -/
theorem value_eq_of_exists (h : x.IsNearest v)
    (hv : ∃ y : Binary64, y.isFinite = true ∧ y.value = v) : x.value = v := by
  obtain ⟨y, hy, rfl⟩ := hv
  have hle := h.closest y hy
  rw [sub_self, abs_zero] at hle
  exact sub_eq_zero.mp (abs_nonpos_iff.mp hle)

/-- A nearest number is on the same side of another number. -/
theorem le_value (h : x.IsNearest v) (hy : y.isFinite = true)
    (hyv : y.value ≤ v) : y.value ≤ x.value := by
  by_contra hlt
  rw [not_le] at hlt
  have hle := h.closest y hy
  rw [abs_of_neg (sub_neg.mpr (hlt.trans_le hyv)), abs_of_nonpos (sub_nonpos.mpr hyv)] at hle
  linarith

theorem value_le (h : x.IsNearest v) (hy : y.isFinite = true) (hyv : v ≤ y.value) :
    x.value ≤ y.value := by
  have hle := h.neg.le_value (isFinite_neg.trans hy) (by rw [value_neg]; exact neg_le_neg hyv)
  rw [value_neg, value_neg] at hle
  exact neg_le_neg_iff.mp hle

end IsNearest

/-! ### Integers as binary numbers -/

/-- Counts up to the power of two after the significands are numbers. -/
theorem value_ofInt_natCast {k : ℕ} (hk : k ≤ 2 ^ 53) : (ofInt k).value = k := by
  obtain ⟨size, hsize⟩ := Magnitude.exists_nearest?_eq (hk.trans (by decide : _ ≤ 2 ^ 64))
  have hfinite : ofInt k = .finite false size := by
    rw [ofInt, Int.natAbs_natCast, decide_eq_false (Int.natCast_nonneg k).not_gt]
    exact nearest_eq_finite hsize
  have hunits := Magnitude.units_of_nearest? hsize
  rw [Magnitude.rounded_natCast hk] at hunits
  rw [hfinite, value_finite_false, Magnitude.value, hunits, Nat.cast_mul,
    mul_div_cancel_right₀ _ Magnitude.cast_unitsPerOne_pos.ne']

theorem exists_value_eq (hi : i.natAbs ≤ 2 ^ 53) :
    ∃ y : Binary64, y.isFinite = true ∧ y.value = i := by
  have hvalue := value_ofInt_natCast hi
  have hfinite : (ofInt i.natAbs).isFinite = true :=
    isFinite_ofInt_of_le (hi.trans (by decide))
  rcases Int.natAbs_eq i with h | h
  · exact ⟨_, hfinite, by rw [hvalue, ← Int.cast_natCast, ← h]⟩
  · refine ⟨_, isFinite_neg.trans hfinite, ?_⟩
    rw [value_neg, hvalue, ← Int.cast_natCast, ← Int.cast_neg, ← h]

/-- An integer is taken as the nearest number. -/
theorem isNearest_ofInt (hi : i.natAbs ≤ 2 ^ 64) : (ofInt i).IsNearest i := by
  obtain ⟨size, hsize⟩ := Magnitude.exists_nearest?_eq hi
  have hscientific : Magnitude.ofScientific? i.natAbs (-((0 : ℕ) : ℤ)) = some size := by
    rw [Magnitude.ofScientific?_neg, pow_zero, hsize]
  have hnearest := Magnitude.isNearest_of_ofScientific? hscientific
  rw [pow_zero, div_one] at hnearest
  rw [ofInt, nearest_eq_finite hsize]
  by_cases hneg : i < 0
  · rw [decide_eq_true hneg]
    have hvalue : (i : ℚ) = -(i.natAbs : ℚ) := by
      rw [← Int.cast_natCast, Int.ofNat_natAbs_of_nonpos hneg.le, Int.cast_neg, neg_neg]
    rw [hvalue]
    exact hnearest.neg
  · rw [decide_eq_false hneg]
    rwa [← Int.cast_natCast, Int.natAbs_of_nonneg (not_lt.mp hneg)] at hnearest

/-- The power of two after the integers of 64 bits. -/
def twoPow63 : Binary64 := .finite false ⟨2 ^ 52, 1085, by decide⟩

theorem value_twoPow63 : twoPow63.value = (2 ^ 63 : ℤ) := by
  have hunits : (⟨2 ^ 52, 1085, by decide⟩ : Magnitude).units = 2 ^ 63 * unitsPerOne := by
    decide +kernel
  rw [twoPow63, value_finite_false, Magnitude.value, hunits, Nat.cast_mul,
    mul_div_cancel_right₀ _ cast_unitsPerOne_pos.ne']
  norm_num

end Binary64

/-! ### The digits of whole numbers -/

namespace Digits

/-- Stripping ends at a digit that is no zero. -/
theorem digits_strip {fuel c : ℕ} (hc : c ≠ 0) (hfuel : c < 2 ^ (fuel + 1)) (e : ℤ) :
    (strip fuel c e).digits % 10 ≠ 0 := by
  induction fuel generalizing c e with
  | zero =>
    rw [strip]
    show c % 10 ≠ 0
    omega
  | succ fuel ih =>
    rw [strip]
    split
    · refine ih (by omega) ?_ _
      rw [pow_succ] at hfuel
      omega
    · rename_i hnot
      exact fun hzero => hnot ⟨hc, hzero⟩

theorem digits_ofScientific {c : ℕ} (hc : c ≠ 0) (e : ℤ) : (ofScientific c e).digits % 10 ≠ 0 :=
  digits_strip hc Nat.lt_log2_self e

/-- Zeros at the end of a number are zeros at the end of its digits. -/
theorem toDigits_mul_pow {c : ℕ} (hc : c ≠ 0) (k : ℕ) :
    Nat.toDigits 10 (c * 10 ^ k) = Nat.toDigits 10 c ++ List.replicate k '0' := by
  induction k with
  | zero => rw [pow_zero, mul_one, List.replicate_zero, List.append_nil]
  | succ k ih =>
    have hpos : 0 < c * 10 ^ k := by positivity
    have hstep := Nat.toDigits_append_toDigits (b := 10) (d := 0) (by decide) hpos (by decide)
    rw [Nat.add_zero, Nat.toDigits_zero, ih] at hstep
    rw [pow_succ, ← mul_assoc, mul_comm _ 10, ← hstep, List.append_assoc, List.replicate_succ']

/-- Where the point stands after all digits, zeros stand between the digits and the point. -/
theorem spread_nil_of_exponent (c k : ℕ) :
    (⟨c, .ofNat k⟩ : Digits).spread [] = Nat.toDigits 10 c ++ List.replicate k '0' := by
  have hpos : 0 < (Nat.toDigits 10 c).length := List.length_pos_of_ne_nil Nat.toDigits_ne_nil
  obtain ⟨m, hm⟩ : ∃ m, (Nat.toDigits 10 c).length + k = m + 1 :=
    Nat.exists_eq_add_one.mpr (Nat.add_pos_left hpos k)
  have hpoint : (⟨c, .ofNat k⟩ : Digits).point = .ofNat (m + 1) := congrArg Int.ofNat hm
  have hchars : (⟨c, .ofNat k⟩ : Digits).chars = Nat.toDigits 10 c := rfl
  rw [spread, hpoint, hchars]
  show (if _ ≤ m + 1 then _ ++ List.replicate (m + 1 - _) '0' ++ [] else _) = _
  rw [← hm, if_pos (Nat.le_add_right _ _), Nat.add_sub_cancel_left, List.append_nil]

/-- The digits of a whole number are written out in full. -/
theorem spread_of_whole {d : Digits} (hd : d.digits % 10 ≠ 0) (hvalue : d.toDecimal.value = n) :
    d.spread [] = Nat.toDigits 10 n := by
  obtain ⟨c, k | k⟩ := d
  · have hn : c * 10 ^ k = n := by
      rw [value_toDecimal, Int.ofNat_eq_natCast, zpow_natCast] at hvalue
      exact_mod_cast hvalue
    have hc : c ≠ 0 := by
      rintro rfl
      exact hd rfl
    rw [spread_nil_of_exponent, ← toDigits_mul_pow hc, hn]
  · -- the last digit would be a zero
    rw [value_toDecimal, zpow_negSucc, ← div_eq_mul_inv, div_eq_iff (by positivity)] at hvalue
    have hc : c = n * 10 ^ k * 10 := by
      rw [mul_assoc, ← pow_succ]
      exact_mod_cast hvalue
    exact absurd (hc ▸ Nat.mul_mod_left _ _) hd

end Digits

/-! ### Whole numbers as text -/

namespace Magnitude

variable {size : Magnitude}

/-- A nearest whole number is not beyond a whole number that bounds what it is nearest to. -/
theorem natCast_le_of_isNearest {c : ℕ} (hn : n < 2 ^ 53) (hsize : size.value = n)
    (h : (Binary64.finite false size).IsNearest v) (hv : v ≤ c) : n ≤ c := by
  rcases lt_or_ge c (2 ^ 53) with hc | hc
  · obtain ⟨y, hy, hvalue⟩ := Binary64.exists_value_eq (i := c) (by omega)
    rw [Int.cast_natCast] at hvalue
    have hle := h.value_le hy (hvalue.symm ▸ hv)
    rw [Binary64.value_finite_false, hsize, hvalue] at hle
    exact_mod_cast hle
  · omega

/-- **The shortest decimal form of a whole number is the number.** -/
theorem value_shortest (hn : n < 2 ^ 53) (hsize : size.value = n) :
    size.shortest.toDecimal.value = n := by
  obtain ⟨hread, k, ⟨c, e, hc, hv⟩, hleast⟩ := size.isShortest_shortest
  have hvalue : (Binary64.finite false size).value = n :=
    (Binary64.value_finite_false size).trans hsize
  generalize size.shortest.toDecimal.value = v at hread hv hleast ⊢
  cases e with
  | ofNat m =>
    -- a form that is a whole number is read as itself, or it is not below the power of two
    have hwhole : v = (c * 10 ^ m : ℤ) := by
      rw [hv, Int.ofNat_eq_natCast, zpow_natCast, Int.cast_mul, Int.cast_pow, Int.cast_ofNat]
    generalize c * 10 ^ m = w at hwhole
    rcases le_or_gt w.natAbs (2 ^ 53) with hw | hw
    · obtain ⟨y, hy, hyw⟩ := Binary64.exists_value_eq hw
      rw [← hread.isNearest.value_eq_of_exists ⟨y, hy, hyw.trans hwhole.symm⟩, hvalue]
    · have hbound : ((n : ℤ) : ℚ) < (2 ^ 53 : ℤ) := Int.cast_lt.mpr (by exact_mod_cast hn)
      rcases (by omega : 2 ^ 53 < w ∨ w < -2 ^ 53) with hlt | hlt
      · obtain ⟨y, hy, hyv⟩ := Binary64.exists_value_eq (i := 2 ^ 53) (by decide)
        have hle := hread.isNearest.le_value hy (by rw [hyv, hwhole]; exact Int.cast_le.mpr hlt.le)
        rw [hyv, hvalue, ← Int.cast_natCast] at hle
        exact absurd hle hbound.not_ge
      · obtain ⟨y, hy, hyv⟩ := Binary64.exists_value_eq (i := -2 ^ 53) (by decide)
        have hle := hread.isNearest.value_le hy (by rw [hyv, hwhole]; exact Int.cast_le.mpr hlt.le)
        rw [hyv, hvalue, ← Int.cast_natCast] at hle
        have hneg : (n : ℤ) ≤ -2 ^ 53 := Int.cast_le.mp hle
        omega
  | negSucc m =>
    -- the number has no more digits than its form
    have hvc : v ≤ (c.natAbs : ℕ) := by
      have hsmall : ((10 : ℚ) ^ (m + 1))⁻¹ ≤ 1 := inv_le_one_of_one_le₀ (one_le_pow₀ (by norm_num))
      rw [hv, zpow_negSucc, Nat.cast_natAbs, Int.cast_abs]
      calc (c : ℚ) * (10 ^ (m + 1))⁻¹
          ≤ |(c : ℚ)| * (10 ^ (m + 1))⁻¹ := by gcongr; exact le_abs_self _
        _ ≤ |(c : ℚ)| := mul_le_of_le_one_right (abs_nonneg _) hsmall
    have hnc := natCast_le_of_isNearest hn hsize hread.isNearest hvc
    have hdigits : HasDigits k n := by
      refine ⟨n, 0, ?_, by rw [zpow_zero, mul_one, Int.cast_natCast]⟩
      rw [Int.abs_eq_natAbs] at hc
      rw [Nat.abs_cast]
      exact_mod_cast (Nat.cast_le.mpr hnc).trans_lt hc
    have hself : (Binary64.finite false size).IsReadFrom n :=
      ⟨by rw [← hsize, abs_of_nonneg size.value_nonneg]; exact size.value_lt_overflow,
        hvalue ▸ Binary64.isNearest_self rfl⟩
    have hnear := (hleast k n hdigits hself).2 rfl
    rw [hvalue, sub_self, abs_zero] at hnear
    exact sub_eq_zero.mp (abs_nonpos_iff.mp hnear)

/-- A magnitude that is a whole number is written as the number. -/
theorem spread_shortest (hn : n < 2 ^ 53) (hsize : size.value = n) :
    size.shortest.spread [] = Nat.toDigits 10 n := by
  have hvalue := value_shortest hn hsize
  by_cases hzero : size.significand = 0
  · have hn : n = 0 := by
      rw [value, units_eq_zero_iff.mpr hzero, Nat.cast_zero, zero_div] at hsize
      exact_mod_cast hsize.symm
    rw [shortest, if_pos hzero, hn]
    rfl
  · refine Digits.spread_of_whole ?_ hvalue
    obtain ⟨k, f, hshortest, -, -⟩ := exists_shortest_eq hzero
    rw [hshortest] at hvalue ⊢
    refine Digits.digits_ofScientific (fun hf => hzero ?_) _
    -- the digit zero is that of the number zero
    rw [hf, Digits.ofScientific, Digits.value_strip, Nat.cast_zero, zero_mul, ← hsize,
      ← value_zero, value_inj] at hvalue
    rw [← hvalue]
    rfl

end Magnitude

namespace Binary64

/-- **A whole number is written as the integer that it is**, except for a zero with a minus. -/
theorem plainText_eq (hx : x.isFinite = true) (hvalue : x.value = i) (hi : i.natAbs < 2 ^ 53)
    (hzero : x ≠ .finite true 0) : x.plainText = signed (i < 0) (Nat.toDigits 10 i.natAbs) := by
  obtain ⟨negative, size, rfl⟩ := exists_eq_finite hx
  have hsize : size.value = i.natAbs := by
    rw [← abs_value_finite negative, hvalue, ← Int.cast_abs, Int.abs_eq_natAbs, Int.cast_natCast]
  have hsign : decide (i < 0) = negative := by
    cases negative with
    | false =>
      rw [value_finite_false] at hvalue
      have hnonneg : (0 : ℚ) ≤ i := hvalue ▸ size.value_nonneg
      exact decide_eq_false (Int.cast_nonneg_iff.mp hnonneg).not_gt
    | true =>
      rw [value_finite_true] at hvalue
      have hnonpos : (i : ℚ) ≤ 0 := hvalue ▸ neg_nonpos.mpr size.value_nonneg
      refine decide_eq_true ((Int.cast_nonpos.mp hnonpos).lt_of_ne fun heq => hzero ?_)
      rw [heq, Int.natAbs_zero, Nat.cast_zero, ← Magnitude.value_zero, Magnitude.value_inj] at hsize
      rw [hsize]
  rw [plainText, Magnitude.spread_shortest hi hsize, hsign]

end Binary64

end CampusQuery
