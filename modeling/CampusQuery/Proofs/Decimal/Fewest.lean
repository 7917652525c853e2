/-
CampusQuery/Proofs/Decimal/Fewest.lean

That the shortest digits are the shortest.

A decimal form of a finite number is a decimal that is read as it (`Binary64.IsReadFrom`).  A
shortest one has the fewest significant digits, and of those with so few digits it is one nearest to
the number (`Binary64.IsShortest`).

The search tries only two candidates for each count of digits, the neighbours on one grid.  That is
enough since what lies between a number and a decimal form of it is a decimal form as well
(`IsReadFrom.of_between`): if there is any form with so many digits, then one of the two neighbours
is (`exists_neighbour`).  And it comes to an end since with seventeen digits the nearer neighbour is
always one (`isReadFrom_of_seventeen`).
-/
import CampusQuery.Proofs.Decimal.Nearest
import Mathlib.Algebra.Order.Field.Power
import Mathlib.Algebra.Order.Group.Pointwise.Interval

namespace CampusQuery

/-! ### Forms and digits -/

/-- The number can be written with so many significant digits. -/
def HasDigits (k : ℕ) (v : ℚ) : Prop := ∃ c e : ℤ, |c| < 10 ^ k ∧ v = c * 10 ^ e

theorem HasDigits.neg {k : ℕ} {v : ℚ} (h : HasDigits k v) : HasDigits k (-v) := by
  obtain ⟨c, e, hc, rfl⟩ := h
  exact ⟨-c, e, by rwa [abs_neg], by rw [Int.cast_neg, neg_mul]⟩

/-- Every magnitude leaves room for one part in `2 * 10 ^ 16` below the point of overflow. -/
theorem Magnitude.value_add_lt_overflow (a : Magnitude) :
    a.value + a.value / (2 * 10 ^ 16) < overflow := by
  have hlt : a.units * (2 * 10 ^ 16 + 1) < overflow * unitsPerOne * (2 * 10 ^ 16) := by
    rw [overflow_mul_unitsPerOne]
    have hlargest := a.units_le_largest
    have hpos : 0 < 2 ^ (maxShift - 1) := Nat.two_pow_pos _
    generalize 2 ^ (maxShift - 1) = p at hlargest hpos ⊢
    omega
  have hcast : (a.units : ℚ) * (2 * 10 ^ 16 + 1) < overflow * unitsPerOne * (2 * 10 ^ 16) := by
    exact_mod_cast hlt
  have hunit := cast_unitsPerOne_pos
  have hsum : a.value + a.value / (2 * 10 ^ 16) =
      a.units * (2 * 10 ^ 16 + 1) / (unitsPerOne * (2 * 10 ^ 16)) := by
    rw [value]
    generalize (unitsPerOne : ℚ) = unit at hunit ⊢
    field_simp
  rw [hsum, div_lt_iff₀ (mul_pos hunit (by norm_num)), ← mul_assoc]
  exact hcast

theorem Magnitude.value_lt_overflow (a : Magnitude) : a.value < overflow :=
  (le_add_of_nonneg_right (div_nonneg a.value_nonneg (by norm_num))).trans_lt
    a.value_add_lt_overflow

namespace Binary64

variable {x : Binary64} {v w : ℚ}

/-- The number is read from `v`: `v` is in the range of the format, and the number is nearest. -/
structure IsReadFrom (x : Binary64) (v : ℚ) : Prop where
  inRange : |v| < Magnitude.overflow
  isNearest : x.IsNearest v

/-- A shortest decimal form of the number: it is read from it, but from nothing with fewer digits,
and from nothing nearer with as few. -/
def IsShortest (x : Binary64) (v : ℚ) : Prop :=
  x.IsReadFrom v ∧ ∃ k, HasDigits k v ∧ ∀ j w, HasDigits j w → x.IsReadFrom w →
    k ≤ j ∧ (j = k → |v - x.value| ≤ |w - x.value|)

theorem IsReadFrom.neg (h : x.IsReadFrom v) : x.neg.IsReadFrom (-v) :=
  ⟨by rw [abs_neg]; exact h.inRange, h.isNearest.neg⟩

theorem IsShortest.neg (h : x.IsShortest v) : x.neg.IsShortest (-v) := by
  obtain ⟨hread, k, hdigits, hleast⟩ := h
  refine ⟨hread.neg, k, hdigits.neg, fun j w hw hwread => ?_⟩
  have hneg := hwread.neg
  rw [neg_involutive] at hneg
  obtain ⟨hle, hnear⟩ := hleast j (-w) hw.neg hneg
  refine ⟨hle, fun hj => ?_⟩
  have hdist (u : ℚ) : |-u - x.neg.value| = |u - x.value| := by
    rw [value_neg, neg_sub_neg, abs_sub_comm]
  rw [hdist, ← neg_neg w, hdist]
  exact hnear hj

/-- What lies between a number and a decimal form of it is read as the number, too. -/
theorem IsReadFrom.of_between (h : x.IsReadFrom w) (hv : v ∈ Set.uIcc x.value w) :
    x.IsReadFrom v := by
  refine ⟨?_, h.isNearest.of_between hv⟩
  have hx : |x.value| < Magnitude.overflow := by
    obtain ⟨negative, size, rfl⟩ := exists_eq_finite h.isNearest.isFinite
    rw [abs_value_finite]
    exact size.value_lt_overflow
  have hle : |v| ≤ max |x.value| |w| := by
    rcases Set.mem_uIcc.mp hv with ⟨h1, h2⟩ | ⟨h1, h2⟩
    · exact abs_le_max_abs_abs h1 h2
    · exact max_comm |w| _ ▸ abs_le_max_abs_abs h1 h2
  exact hle.trans_lt (max_lt hx h.inRange)

end Binary64

namespace Magnitude

variable {a : Magnitude} {c : ℕ} {e : ℤ} {v w : ℚ}

/-! ### Reading candidates -/

/-- Digits with any power of ten can be written over one. -/
theorem exists_scaled (c : ℕ) (e : ℤ) : ∃ c' scale : ℕ,
    ofScientific? c e = ofScientific? c' (-(scale : ℤ)) ∧
      (c' : ℚ) / 10 ^ scale = c * 10 ^ e := by
  rcases le_or_gt 0 e with hpos | hneg
  · obtain ⟨k, rfl⟩ := Int.eq_ofNat_of_zero_le hpos
    refine ⟨c * 10 ^ k, 0, ?_, ?_⟩
    · rw [Nat.cast_zero, neg_zero, ofScientific?_mul_pow, zero_add]
    · rw [pow_zero, div_one, zpow_natCast]
      push_cast
      rfl
  · obtain ⟨k, hk⟩ := Int.eq_ofNat_of_zero_le (neg_nonneg.mpr hneg.le)
    obtain rfl : e = -(k : ℤ) := by omega
    exact ⟨c, k, rfl, by rw [zpow_neg, zpow_natCast, div_eq_mul_inv]⟩

/-- **A candidate is taken if the magnitude is read from it.** -/
theorem isReadFrom_iff : a.isReadFrom (c, e) = true ↔
    (Binary64.finite false a).IsReadFrom (c * 10 ^ e) := by
  obtain ⟨c', scale, hread, hvalue⟩ := exists_scaled c e
  have hrange : |(c' : ℚ) / 10 ^ scale| < overflow ↔ ofScientific? c' (-(scale : ℤ)) ≠ none := by
    rw [ne_eq, ofScientific?_eq_none_iff, Nat.not_le, abs_of_nonneg (by positivity),
      div_lt_iff₀ (by positivity)]
    exact_mod_cast Iff.rfl
  rw [isReadFrom, hread, ← hvalue, beq_iff_eq]
  constructor
  · intro h
    exact ⟨hrange.mpr (by rw [h]; exact Option.some_ne_none a), isNearest_of_ofScientific? h⟩
  · rintro ⟨hinRange, hnearest⟩
    obtain ⟨b, hb⟩ := Option.ne_none_iff_exists'.mp (hrange.mp hinRange)
    have heq := (isNearest_of_ofScientific? hb).value_eq hnearest
    rw [Binary64.value_finite_false, Binary64.value_finite_false, value_inj] at heq
    rw [hb, heq]

/-! ### The grid of a count of digits -/

theorem ratioOver_eq (a : Magnitude) (e : ℤ) : 0 < (a.ratioOver e).2 ∧
    ((a.ratioOver e).1 : ℚ) / (a.ratioOver e).2 = a.value / 10 ^ e := by
  have hunit := unitsPerOne_pos
  have hcast := cast_unitsPerOne_pos
  rcases e with k | k
  · have h : a.ratioOver (Int.ofNat k) = (a.units, unitsPerOne * 10 ^ k) := rfl
    rw [h, value, Int.ofNat_eq_natCast, zpow_natCast]
    generalize unitsPerOne = unit at hunit hcast ⊢
    refine ⟨Nat.mul_pos hunit (Nat.pow_pos (by decide)), ?_⟩
    push_cast
    rw [div_div]
  · rw [ratioOver_negSucc, value, zpow_negSucc]
    generalize unitsPerOne = unit at hunit hcast ⊢
    refine ⟨hunit, ?_⟩
    push_cast
    field_simp

/-- The candidates of a grid are the grid points below and above, and the first is the nearer. -/
theorem exists_neighbours_eq (a : Magnitude) (e : ℤ) : ∃ near other below : ℕ,
    a.neighbours e = [(near, e), (other, e)] ∧
      (near = below ∧ other = below + 1 ∨ near = below + 1 ∧ other = below) ∧
      (below : ℚ) ≤ a.value / 10 ^ e ∧ a.value / 10 ^ e < below + 1 ∧
      |(near : ℚ) - a.value / 10 ^ e| ≤ 1 / 2 := by
  obtain ⟨hd, hratio⟩ := a.ratioOver_eq e
  unfold neighbours
  generalize a.ratioOver e = r at hd hratio ⊢
  obtain ⟨n, d⟩ := r
  have hpos : (0 : ℚ) < d := Nat.cast_pos.mpr hd
  have hhalf := (abs_roundHalfEven_sub n hd).1
  have hrest : ((n % d : ℕ) : ℚ) / d < 1 :=
    (div_lt_one hpos).mpr (Nat.cast_lt.mpr (Nat.mod_lt n hd))
  have hnonneg : (0 : ℚ) ≤ (n % d : ℕ) / d := by positivity
  have hsplit := natCast_div_eq hd n
  refine ⟨_, _, n / d, rfl, ?_, ?_, ?_, hratio ▸ hhalf⟩
  · have hle := le_roundHalfEven n d
    have hge := roundHalfEven_le_succ n d
    split <;> omega
  · rw [← hratio, hsplit]
    exact le_add_of_nonneg_right hnonneg
  · rw [← hratio, hsplit]
    exact add_lt_add_right hrest _

/-- Distances are measured on the grid. -/
theorem abs_mul_sub {grid : ℚ} (hgrid : 0 < grid) (m v : ℚ) :
    |m * grid - v| = |m - v / grid| * grid := by
  rw [← abs_of_pos hgrid, ← abs_mul, abs_of_pos hgrid, sub_mul, div_mul_cancel₀ _ hgrid.ne']

/-! ### The position of the point -/

theorem leadingZeros_spec {d fuel n : ℕ} (hn : n < d) (h : d ≤ n * 10 ^ fuel) :
    n * 10 ^ leadingZeros d fuel n < d ∧ d ≤ n * 10 ^ (leadingZeros d fuel n + 1) := by
  induction fuel generalizing n with
  | zero =>
    rw [pow_zero, mul_one] at h
    exact absurd h hn.not_ge
  | succ fuel ih =>
    rw [leadingZeros]
    split
    · rename_i hle
      rw [pow_zero, mul_one, zero_add, pow_one]
      exact ⟨hn, hle⟩
    · rename_i hlt
      have hstep (k : ℕ) : n * 10 ^ (k + 1) = n * 10 * 10 ^ k := by rw [pow_succ', mul_assoc]
      rw [hstep] at h
      rw [hstep, hstep]
      exact ih (Nat.not_le.mp hlt) h

theorem unitsPerOne_le_pow : unitsPerOne ≤ 10 ^ 330 := by decide +kernel

/-- **The point stands where the position says.** -/
theorem pointPosition_spec (ha : a.significand ≠ 0) :
    (10 : ℚ) ^ (a.pointPosition - 1) ≤ a.value ∧ a.value < 10 ^ a.pointPosition := by
  have hunit := cast_unitsPerOne_pos
  have hpos := unitsPerOne_pos
  have hfuel := unitsPerOne_le_pow
  have hunits : 0 < a.units := Nat.pos_of_ne_zero (mt units_eq_zero_iff.mp ha)
  unfold pointPosition value
  generalize unitsPerOne = unit at hunit hpos hfuel ⊢
  simp only
  split
  · rename_i hwhole
    have hlt : a.units < unit := (Nat.div_eq_zero_iff_lt hpos).mp hwhole
    obtain ⟨habove, hbelow⟩ :=
      leadingZeros_spec hlt (hfuel.trans (Nat.le_mul_of_pos_left _ hunits))
    generalize leadingZeros unit 330 a.units = zeros at habove hbelow ⊢
    have hexp : -(zeros : ℤ) - 1 = -((zeros + 1 : ℕ) : ℤ) := by
      push_cast
      ring
    rw [hexp, zpow_neg, zpow_neg, zpow_natCast, zpow_natCast, le_div_iff₀ hunit, div_lt_iff₀ hunit,
      inv_mul_le_iff₀ (by positivity), lt_inv_mul_iff₀ (by positivity)]
    constructor
    · rw [mul_comm]
      exact_mod_cast hbelow
    · rw [mul_comm]
      exact_mod_cast habove
  · rename_i hwhole
    have hle := Decimal.pow_digitCount_le hwhole
    have hlt := Decimal.lt_pow_digitCount (a.units / unit)
    have hcount : 0 < Decimal.digitCount (a.units / unit) := Nat.length_toDigits_pos
    obtain ⟨k, hk⟩ := Nat.exists_eq_succ_of_ne_zero hcount.ne'
    rw [hk] at hle hlt ⊢
    have hexp : ((k.succ : ℕ) : ℤ) - 1 = (k : ℤ) := by
      push_cast
      ring
    rw [hexp, zpow_natCast, zpow_natCast, le_div_iff₀ hunit, div_lt_iff₀ hunit]
    constructor
    · exact_mod_cast (Nat.le_div_iff_mul_le hpos).mp hle
    · exact_mod_cast (Nat.div_lt_iff_lt_mul hpos).mp hlt

/-! ### Two candidates are enough -/

/-- Between `t` and a whole number there is a neighbour of `t`, and also between `t` and anything
below a whole number that is below `t`. -/
theorem exists_mem_uIcc {t u : ℚ} {below least : ℕ} (hle : (below : ℚ) ≤ t) (hlt : t < below + 1)
    (hu : (∃ m : ℤ, u = m) ∨ u < least ∧ (least : ℚ) ≤ t) :
    ∃ f : ℕ, (f = below ∨ f = below + 1) ∧ (f : ℚ) ∈ Set.uIcc t u := by
  rcases hu with ⟨m, rfl⟩ | ⟨hless, hleast⟩
  · rcases le_or_gt t m with htm | hmt
    · rcases hle.eq_or_lt with heq | hless
      · exact ⟨below, .inl rfl, Set.mem_uIcc.mpr (.inl ⟨heq.ge, heq.trans_le htm⟩)⟩
      · have hm : (below : ℤ) + 1 ≤ m := by
          have h := hless.trans_le htm
          exact_mod_cast h
        refine ⟨below + 1, .inr rfl, Set.mem_uIcc.mpr (.inl ⟨?_, ?_⟩)⟩
        · push_cast
          exact hlt.le
        · exact_mod_cast hm
    · have hm : m < (below : ℤ) + 1 := by
        have h := hmt.trans hlt
        exact_mod_cast h
      refine ⟨below, .inl rfl, Set.mem_uIcc.mpr (.inr ⟨?_, hle⟩)⟩
      exact_mod_cast Int.lt_add_one_iff.mp hm
  · have hm : least < below + 1 := by
      have h := hleast.trans_lt hlt
      exact_mod_cast h
    refine ⟨below, .inl rfl, Set.mem_uIcc.mpr (.inr ⟨hless.le.trans ?_, hle⟩)⟩
    exact_mod_cast Nat.lt_add_one_iff.mp hm

/-- Zero is read as zero only. -/
theorem not_isReadFrom_zero (ha : a.significand ≠ 0) :
    ¬ (Binary64.finite false a).IsReadFrom 0 := by
  intro h
  have hle := h.isNearest.closest (.finite false 0) rfl
  rw [Binary64.value_finite_false, Binary64.value_finite_false, value_zero, sub_zero, sub_zero,
    abs_zero, abs_of_nonneg a.value_nonneg] at hle
  have hzero : a.value = (0 : Magnitude).value := by
    rw [value_zero]
    exact le_antisymm hle a.value_nonneg
  rw [value_inj] at hzero
  exact ha (by rw [hzero]; rfl)

/-- On a grid, what has the digits for it is whole or below all that have as many before the
point. -/
theorem whole_or_lt {p : ℤ} {j : ℕ} (hj : 0 < j) {c : ℤ} (hc : |c| < 10 ^ j) (e : ℤ) :
    (∃ m : ℤ, (c : ℚ) * 10 ^ e / 10 ^ (p - j) = m) ∨
      (c : ℚ) * 10 ^ e / 10 ^ (p - j) < (10 ^ (j - 1) : ℕ) := by
  have hten : (10 : ℚ) ≠ 0 := by norm_num
  rw [mul_div_assoc, ← zpow_sub₀ hten]
  rcases le_or_gt (p - j) e with hge | hlt
  · obtain ⟨k, hk⟩ := Int.eq_ofNat_of_zero_le (sub_nonneg.mpr hge)
    refine .inl ⟨c * 10 ^ k, ?_⟩
    rw [hk, zpow_natCast]
    push_cast
    rfl
  · have hc' : (c : ℚ) < 10 ^ j := by exact_mod_cast (le_abs_self c).trans_lt hc
    refine .inr ?_
    calc (c : ℚ) * 10 ^ (e - (p - j))
        < 10 ^ j * 10 ^ (e - (p - j)) := mul_lt_mul_of_pos_right hc' (by positivity)
      _ ≤ 10 ^ j * 10 ^ (-1 : ℤ) :=
          mul_le_mul_of_nonneg_left (zpow_le_zpow_right₀ (by norm_num) (by omega)) (by positivity)
      _ = (10 ^ (j - 1) : ℕ) := by
          rw [zpow_neg_one, ← div_eq_mul_inv, div_eq_iff hten, ← Nat.cast_ofNat, ← Nat.cast_pow,
            ← Nat.cast_mul, ← pow_succ, Nat.sub_add_cancel hj]

/-- On its own grid, a magnitude has so many digits before the point. -/
theorem pow_le_value_div (ha : a.significand ≠ 0) {j : ℕ} (hj : 0 < j) :
    ((10 ^ (j - 1) : ℕ) : ℚ) ≤ a.value / 10 ^ (a.pointPosition - j) := by
  have hpower : ((10 ^ (j - 1) : ℕ) : ℚ) = 10 ^ ((j : ℤ) - 1) := by
    rw [Nat.cast_pow, Nat.cast_ofNat, ← zpow_natCast, Nat.cast_sub hj, Nat.cast_one]
  have hexp : (j : ℤ) - 1 + (a.pointPosition - j) = a.pointPosition - 1 := by ring
  rw [hpower, le_div_iff₀ (by positivity), ← zpow_add₀ (by norm_num), hexp]
  exact (pointPosition_spec ha).1

/-- **If a decimal with so many digits is read as a magnitude, then so is one of its neighbours on
the grid**, and that lies between the two. -/
theorem exists_neighbour (ha : a.significand ≠ 0) {j : ℕ} (hw : HasDigits j w)
    (hread : (Binary64.finite false a).IsReadFrom w) :
    0 < j ∧ ∃ f ∈ a.neighbours (a.pointPosition - j), a.isReadFrom f = true ∧
      (f.1 * 10 ^ f.2 : ℚ) ∈ Set.uIcc a.value w := by
  obtain ⟨c, e, hc, rfl⟩ := hw
  have hj : 0 < j := by
    refine Nat.pos_of_ne_zero fun hj => not_isReadFrom_zero ha ?_
    rw [hj, pow_zero, Int.abs_lt_one_iff] at hc
    rwa [hc, Int.cast_zero, zero_mul] at hread
  obtain ⟨near, other, below, hneighbours, hpair, hbelow, habove, -⟩ :=
    a.exists_neighbours_eq (a.pointPosition - j)
  have hgrid : (0 : ℚ) < 10 ^ (a.pointPosition - j) := by positivity
  obtain ⟨f, hf, hbetween⟩ := exists_mem_uIcc hbelow habove
    ((whole_or_lt hj hc e).imp_right fun hlt => ⟨hlt, pow_le_value_div ha hj⟩)
  have hmem : ((f : ℚ) * 10 ^ (a.pointPosition - j)) ∈ Set.uIcc a.value (c * 10 ^ e) := by
    rw [Set.mem_uIcc] at hbetween ⊢
    rwa [div_le_iff₀ hgrid, div_le_iff₀ hgrid, le_div_iff₀ hgrid, le_div_iff₀ hgrid] at hbetween
  refine ⟨hj, (f, a.pointPosition - j), ?_, isReadFrom_iff.mpr (hread.of_between ?_), hmem⟩
  · rw [hneighbours]
    have hor : f = near ∨ f = other := by omega
    rcases hor with rfl | rfl <;> simp
  · rwa [Binary64.value_finite_false]

/-! ### Seventeen digits are enough -/

/-- In units of the lesser shift one of two magnitudes is below `2 ^ 53`. -/
theorem exists_common_shift (a b : Magnitude) : ∃ s m n : ℕ, a.units = m * 2 ^ s ∧
    b.units = n * 2 ^ s ∧ (m < 2 ^ 53 ∨ n < 2 ^ 53) := by
  have hsplit (x y : Magnitude) (h : x.shift ≤ y.shift) :
      y.units = y.significand * 2 ^ (y.shift - x.shift) * 2 ^ x.shift := by
    rw [mul_assoc, ← pow_add, Nat.sub_add_cancel h, units_eq]
  rcases le_total a.shift b.shift with h | h
  · exact ⟨a.shift, _, _, units_eq a, hsplit a b h, .inl a.canonical.1⟩
  · exact ⟨b.shift, _, _, hsplit b a h, units_eq b, .inr b.canonical.1⟩

/-- Other magnitudes are more than one part in `10 ^ 16` away. -/
theorem value_lt_mul_abs_sub {b : Magnitude} (hb : b ≠ a) :
    a.value < 10 ^ 16 * |b.value - a.value| := by
  obtain ⟨s, m, n, ha, hb', hsmall⟩ := exists_common_shift a b
  have hne : m ≠ n := by
    rintro rfl
    exact hb (units_inj (hb'.trans ha.symm))
  have hint : (m : ℤ) < 10 ^ 16 * |(n : ℤ) - m| := by
    rcases lt_or_gt_of_ne hne with hlt | hgt
    · rw [abs_of_pos (by omega)]
      omega
    · rw [abs_of_neg (by omega)]
      omega
  have hrat : (m : ℚ) < 10 ^ 16 * |(n : ℚ) - m| := by exact_mod_cast hint
  have hunit := cast_unitsPerOne_pos
  have hscale : (0 : ℚ) < 2 ^ s / unitsPerOne := div_pos (by positivity) hunit
  have hvalue {x : Magnitude} {k : ℕ} (h : x.units = k * 2 ^ s) :
      x.value = k * (2 ^ s / unitsPerOne) := by
    rw [value, h]
    push_cast
    rw [mul_div_assoc]
  rw [hvalue ha, hvalue hb', ← sub_mul, abs_mul, abs_of_pos hscale, ← mul_assoc]
  exact mul_lt_mul_of_pos_right hrat hscale

/-- What is nearer than half of that is read as the magnitude. -/
theorem isReadFrom_of_abs_sub_le (hv : 0 ≤ v) (h : |v - a.value| ≤ a.value / (2 * 10 ^ 16)) :
    (Binary64.finite false a).IsReadFrom v := by
  refine ⟨?_, .of_magnitude hv fun b hb => ?_⟩
  · rw [abs_of_nonneg hv]
    have hroom := a.value_add_lt_overflow
    have hle := (abs_le.mp h).2
    linarith
  · have hfar := value_lt_mul_abs_sub hb
    have htriangle := abs_sub_le b.value v a.value
    have hlt : |a.value - v| < |b.value - v| := by
      rw [abs_sub_comm a.value]
      linarith
    exact ⟨hlt.le, fun heq => absurd heq hlt.ne'⟩

/-- **With seventeen digits the nearer neighbour is read as the magnitude.** -/
theorem isReadFrom_of_seventeen (ha : a.significand ≠ 0) :
    ∃ f ∈ a.neighbours (a.pointPosition - 17), a.isReadFrom f = true := by
  obtain ⟨near, other, -, hneighbours, -, -, -, hnear⟩ :=
    a.exists_neighbours_eq (a.pointPosition - 17)
  obtain ⟨hleast, -⟩ := pointPosition_spec ha
  have hgrid : (0 : ℚ) < 10 ^ (a.pointPosition - 17) := by positivity
  have hfine : (10 : ℚ) ^ (a.pointPosition - 17) * 10 ^ 16 ≤ a.value := by
    have hexp : a.pointPosition - 17 + (16 : ℕ) = a.pointPosition - 1 := by
      push_cast
      ring
    rwa [← zpow_natCast, ← zpow_add₀ (by norm_num), hexp]
  refine ⟨(near, a.pointPosition - 17), by rw [hneighbours]; exact List.mem_cons_self,
    isReadFrom_iff.mpr (isReadFrom_of_abs_sub_le (by positivity) ?_)⟩
  generalize (10 : ℚ) ^ (a.pointPosition - 17) = grid at hgrid hfine hnear ⊢
  rw [abs_mul_sub hgrid, le_div_iff₀ (by norm_num)]
  have hhalf := mul_le_mul_of_nonneg_right hnear hgrid.le
  linarith

/-! ### The search -/

/-- The first result over the numbers from zero is that of the least number that has one. -/
theorem exists_of_findSome?_range {β : Type} {f : ℕ → Option β} {n : ℕ} {b : β}
    (h : (List.range n).findSome? f = some b) : ∃ k, f k = some b ∧ ∀ i < k, f i = none := by
  induction n with
  | zero => cases h
  | succ n ih =>
    rw [List.range_succ, List.findSome?_append] at h
    cases hfirst : (List.range n).findSome? f with
    | some c =>
      rw [hfirst, Option.some_or] at h
      exact ih (hfirst.trans h)
    | none =>
      rw [hfirst, Option.none_or, List.findSome?_singleton] at h
      exact ⟨n, h, fun i hi => List.findSome?_eq_none_iff.mp hfirst i (List.mem_range.mpr hi)⟩

/-- **The search takes a candidate** of the first grid that has one, and there a nearest one. -/
theorem exists_shortest_eq (ha : a.significand ≠ 0) : ∃ k f,
    a.shortest = Digits.ofScientific f.1 f.2 ∧
      (a.neighbours (a.pointPosition - (k + 1 : ℕ))).find? a.isReadFrom = some f ∧
      ∀ i < k, ∀ g ∈ a.neighbours (a.pointPosition - (i + 1 : ℕ)), a.isReadFrom g ≠ true := by
  have hsearch : a.candidates.find? a.isReadFrom = (List.range 17).findSome? fun k =>
      (a.neighbours (a.pointPosition - (k + 1 : ℕ))).find? a.isReadFrom := List.find?_flatMap ..
  obtain ⟨g, hg, hread⟩ := isReadFrom_of_seventeen ha
  have hmem : g ∈ a.candidates := List.mem_flatMap.mpr ⟨16, List.mem_range.mpr (by decide), hg⟩
  obtain ⟨f, hf⟩ : ∃ f, a.candidates.find? a.isReadFrom = some f := by
    rw [← Option.isSome_iff_exists, List.find?_isSome]
    exact ⟨g, hmem, hread⟩
  obtain ⟨k, hk, hnone⟩ := exists_of_findSome?_range (hsearch.symm.trans hf)
  refine ⟨k, f, ?_, hk, fun i hi g hg => List.find?_eq_none.mp (hnone i hi) g hg⟩
  rw [shortest, if_neg ha, hf]
  rfl

/-- A candidate has the digits of its grid. -/
theorem hasDigits_of_mem_neighbours (ha : a.significand ≠ 0) {k : ℕ} {f : ℕ × ℤ}
    (hf : f ∈ a.neighbours (a.pointPosition - (k + 1 : ℕ))) :
    HasDigits (k + 1) (f.1 * 10 ^ f.2) := by
  obtain ⟨near, other, below, hneighbours, hpair, hbelow, -, -⟩ :=
    a.exists_neighbours_eq (a.pointPosition - (k + 1 : ℕ))
  obtain ⟨-, hlt⟩ := pointPosition_spec ha
  have hten : (10 : ℚ) ≠ 0 := by norm_num
  have hgrid : (0 : ℚ) < 10 ^ (a.pointPosition - (k + 1 : ℕ)) := by positivity
  have hmost : (below : ℚ) < 10 ^ (k + 1) := by
    refine hbelow.trans_lt ?_
    rwa [div_lt_iff₀ hgrid, ← zpow_natCast, ← zpow_add₀ hten, add_sub_cancel]
  have hmost' : below < 10 ^ (k + 1) := by exact_mod_cast hmost
  rw [hneighbours] at hf
  obtain ⟨c, rfl, hc⟩ : ∃ c, f = (c, a.pointPosition - (k + 1 : ℕ)) ∧ c ≤ 10 ^ (k + 1) := by
    rcases List.mem_pair.mp hf with rfl | rfl
    · exact ⟨near, rfl, by omega⟩
    · exact ⟨other, rfl, by omega⟩
  rcases hc.eq_or_lt with rfl | hless
  · -- the grid ends with a power of ten
    refine ⟨1, k + 1 + (a.pointPosition - (k + 1 : ℕ)), ?_, ?_⟩
    · rw [abs_one]
      exact one_lt_pow₀ (by norm_num) (Nat.succ_ne_zero k)
    · rw [Int.cast_one, one_mul, zpow_add₀ hten]
      push_cast
      rw [← zpow_natCast, Nat.cast_add, Nat.cast_one]
  · refine ⟨c, a.pointPosition - (k + 1 : ℕ), ?_, by rw [Int.cast_natCast]⟩
    rw [abs_of_nonneg (Int.natCast_nonneg c)]
    exact_mod_cast hless

/-- Of the neighbours that are read as the magnitude, the one taken is nearest to it. -/
theorem abs_sub_le_of_find? {e : ℤ} {f g : ℕ × ℤ}
    (hf : (a.neighbours e).find? a.isReadFrom = some f) (hg : g ∈ a.neighbours e)
    (hread : a.isReadFrom g = true) :
    |(f.1 : ℚ) * 10 ^ f.2 - a.value| ≤ |(g.1 : ℚ) * 10 ^ g.2 - a.value| := by
  obtain ⟨near, other, below, hneighbours, hpair, -, -, hnear⟩ := a.exists_neighbours_eq e
  have hgrid : (0 : ℚ) < 10 ^ e := by positivity
  rw [hneighbours] at hf hg
  rw [List.find?_cons] at hf
  split at hf
  · obtain rfl := Option.some.inj hf
    rcases List.mem_pair.mp hg with rfl | rfl
    · exact le_rfl
    · -- the other one is a whole step away
      have hstep : (1 : ℚ) = |(near : ℚ) - other| := by
        rcases hpair with ⟨rfl, rfl⟩ | ⟨rfl, rfl⟩ <;> simp
      have htriangle := abs_sub_le (near : ℚ) (a.value / 10 ^ e) other
      rw [← hstep, abs_sub_comm (a.value / 10 ^ e)] at htriangle
      rw [abs_mul_sub hgrid, abs_mul_sub hgrid]
      refine mul_le_mul_of_nonneg_right ?_ hgrid.le
      show |(near : ℚ) - _| ≤ |(other : ℚ) - _|
      linarith
  · rename_i hnot
    rcases List.mem_pair.mp hg with rfl | rfl
    · rw [hread] at hnot
      cases hnot
    · rw [List.find?_cons, hread] at hf
      obtain rfl := Option.some.inj hf
      exact le_rfl

end Magnitude

namespace Digits

theorem value_toDecimal (d : Digits) : d.toDecimal.value = d.digits * 10 ^ d.exponent := by
  obtain ⟨c, k | k⟩ := d
  · show ((c * (10 ^ k : ℕ) : ℤ) : ℚ) / 10 ^ 0 = c * 10 ^ (k : ℤ)
    rw [pow_zero, div_one, zpow_natCast]
    push_cast
    rfl
  · show ((c : ℤ) : ℚ) / 10 ^ (k + 1) = c * 10 ^ Int.negSucc k
    rw [zpow_negSucc, Int.cast_natCast, div_eq_mul_inv]

theorem value_strip (fuel c : ℕ) (e : ℤ) : (strip fuel c e).toDecimal.value = c * 10 ^ e := by
  induction fuel generalizing c e with
  | zero => exact value_toDecimal _
  | succ fuel ih =>
    rw [strip]
    split
    · rename_i hzero
      have hc : c = c / 10 * 10 := (Nat.div_mul_cancel (Nat.dvd_of_mod_eq_zero hzero.2)).symm
      have hcast : (c : ℚ) = (c / 10 : ℕ) * 10 := by exact_mod_cast hc
      rw [ih, hcast, zpow_add_one₀ (by norm_num)]
      ring
    · exact value_toDecimal _

end Digits

/-- Zero needs no digits. -/
theorem Binary64.isShortest_zero : (finite false 0).IsShortest 0 := by
  have hvalue : (finite false 0).value = 0 := (value_finite_false 0).trans Magnitude.value_zero
  refine ⟨Magnitude.isReadFrom_of_abs_sub_le le_rfl ?_, 0, ⟨0, 0, by norm_num, by norm_num⟩,
    fun j w _ _ => ⟨Nat.zero_le j, fun _ => ?_⟩⟩
  · rw [Magnitude.value_zero, sub_zero, abs_zero, zero_div]
  · rw [hvalue, sub_zero, abs_zero]
    exact abs_nonneg _

/-- **The digits of a magnitude are a shortest decimal form of it.** -/
theorem Magnitude.isShortest_shortest (a : Magnitude) :
    (Binary64.finite false a).IsShortest a.shortest.toDecimal.value := by
  by_cases ha : a.significand = 0
  · have hzero : a = 0 := units_inj ((units_eq_zero_iff.mpr ha).trans rfl)
    have hvalue : a.shortest.toDecimal.value = 0 := by
      rw [shortest, if_pos ha, Digits.value_toDecimal, Nat.cast_zero, zero_mul]
    rw [hvalue, hzero]
    exact Binary64.isShortest_zero
  · obtain ⟨k, f, hshortest, hfind, hnone⟩ := exists_shortest_eq ha
    have hmem := List.mem_of_find?_eq_some hfind
    rw [hshortest, Digits.ofScientific, Digits.value_strip]
    refine ⟨isReadFrom_iff.mp (List.find?_some hfind), k + 1, hasDigits_of_mem_neighbours ha hmem,
      fun j w hw hread => ?_⟩
    obtain ⟨hj, g, hg, hgread, hbetween⟩ := exists_neighbour ha hw hread
    obtain ⟨i, rfl⟩ := Nat.exists_eq_add_of_le' hj
    refine ⟨?_, fun hik => ?_⟩
    · -- a grid with fewer digits would have been the first
      by_contra hlt
      exact hnone i (by omega) g hg hgread
    · obtain rfl : i = k := by omega
      rw [Binary64.value_finite_false]
      exact (abs_sub_le_of_find? hfind hg hgread).trans (Set.abs_sub_left_of_mem_uIcc hbetween)

namespace Binary64

/-- The two signs have the same digits. -/
theorem value_toDecimal_neg (x : Binary64) : x.neg.toDecimal.value = -x.toDecimal.value := by
  have hzero : (0 : Decimal).value = -(0 : Decimal).value := by rw [Decimal.value_zero, neg_zero]
  rcases x with - | - | ⟨negative, size⟩
  · exact hzero
  · exact hzero
  · have htrue : (finite true size).toDecimal.value = -size.shortest.toDecimal.value := by
      show ((-_ : ℤ) : ℚ) / _ = _
      rw [Int.cast_neg, neg_div]
      rfl
    cases negative with
    | false => exact htrue
    | true => exact (neg_eq_iff_eq_neg.mpr htrue).symm

/-- **The decimal of a finite number is a shortest form of it.** -/
theorem isShortest_toDecimal {x : Binary64} (hx : x.isFinite = true) :
    x.IsShortest x.toDecimal.value := by
  obtain ⟨negative, size, rfl⟩ := exists_eq_finite hx
  have h : (finite false size).IsShortest (finite false size).toDecimal.value :=
    size.isShortest_shortest
  cases negative with
  | false => exact h
  | true =>
    have hneg := h.neg
    rwa [← value_toDecimal_neg] at hneg

end Binary64

end CampusQuery
