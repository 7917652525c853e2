/-
CampusQuery/Proofs/Decimal/Value.lean

Decimals as rational numbers.

Every decimal has a value (`Decimal.value`), and the arithmetic of decimals is that of their values:
sums are exact (`value_sum`), also in any order (`sum_perm`), and rounding to places is
the rounding of rational numbers that takes a half away from zero (`halfAway`, `value_round`).  A
quotient is rounded as well, but to so many places that a hundred digits of it are kept
(`exists_value_quotient`).

Rounding to more places first makes a difference only to what is nearly, but not quite, a half of
the last place (`halfAway_halfAway`).
-/
import Mathlib.Algebra.Order.Round
import Mathlib.Data.Rat.Floor
import Mathlib.Tactic.FieldSimp
import Mathlib.Tactic.Linarith
import Mathlib.Tactic.Positivity
import Mathlib.Tactic.Ring
import CampusQuery.Decimal

namespace CampusQuery

/-! ### Rounding rational numbers -/

/-- The number of so many decimal places nearest to `v`; a half goes away from zero. -/
def halfAway (places : ℕ) (v : ℚ) : ℚ :=
  if v < 0 then -(round (-v * 10 ^ places) / 10 ^ places) else round (v * 10 ^ places) / 10 ^ places

section halfAway

variable {places : ℕ} {v : ℚ}

theorem halfAway_of_nonneg (hv : 0 ≤ v) :
    halfAway places v = round (v * 10 ^ places) / 10 ^ places := if_neg hv.not_gt

theorem halfAway_zero (places : ℕ) : halfAway places 0 = 0 := by
  rw [halfAway_of_nonneg le_rfl, zero_mul, round_zero, Int.cast_zero, zero_div]

/-- The two signs are rounded alike. -/
theorem halfAway_neg (places : ℕ) (v : ℚ) : halfAway places (-v) = -halfAway places v := by
  rcases lt_trichotomy v 0 with hv | rfl | hv
  · rw [halfAway_of_nonneg (neg_nonneg.mpr hv.le), halfAway, if_pos hv, neg_neg]
  · rw [neg_zero, halfAway_zero, neg_zero]
  · rw [halfAway, if_pos (neg_neg_of_pos hv), neg_neg, halfAway_of_nonneg hv.le]

theorem halfAway_nonneg (hv : 0 ≤ v) : 0 ≤ halfAway places v := by
  have hround : (0 : ℤ) ≤ round (v * 10 ^ places) := by
    rw [round_eq]
    exact Int.floor_nonneg.mpr (by positivity)
  rw [halfAway_of_nonneg hv]
  exact div_nonneg (Int.cast_nonneg hround) (by positivity)

/-- What has no more places is not changed. -/
theorem halfAway_eq_self {z : ℤ} (h : v * 10 ^ places = z) : halfAway places v = v := by
  have hv : v = z / 10 ^ places := by
    rw [← h]
    field_simp
  rcases le_or_gt 0 v with hpos | hneg
  · rw [halfAway_of_nonneg hpos, h, round_intCast, hv]
  · have hmul : -v * 10 ^ places = ((-z : ℤ) : ℚ) := by
      rw [Int.cast_neg, ← h, neg_mul]
    rw [halfAway, if_pos hneg, hmul, round_intCast, Int.cast_neg, neg_div, neg_neg, hv]

/-- Rounding moves by half a unit of the last place at most. -/
theorem abs_halfAway_sub_le (places : ℕ) (v : ℚ) :
    |halfAway places v - v| ≤ 1 / 2 / 10 ^ places := by
  have hnonneg {w : ℚ} (hw : 0 ≤ w) : |halfAway places w - w| ≤ 1 / 2 / 10 ^ places := by
    have hunit : (0 : ℚ) < 10 ^ places := by positivity
    have hsub : halfAway places w - w =
        -((w * 10 ^ places - round (w * 10 ^ places)) / 10 ^ places) := by
      rw [halfAway_of_nonneg hw]
      field_simp
      ring
    rw [hsub, abs_neg, abs_div, abs_of_pos hunit]
    exact div_le_div_of_nonneg_right (abs_sub_round _) hunit.le
  rcases le_total 0 v with hv | hv
  · exact hnonneg hv
  · have h := hnonneg (neg_nonneg.mpr hv)
    rwa [halfAway_neg, ← neg_sub_neg, neg_neg, neg_neg, abs_sub_comm] at h

end halfAway

/-! ### Rounding twice -/

/-- Halfway between two neighbours of so many places. -/
def IsHalf (places : ℕ) (t : ℚ) : Prop := ∃ z : ℤ, t * 10 ^ places = z + 1 / 2

section

variable {places more : ℕ} {v w t : ℚ}

theorem IsHalf.neg (h : IsHalf places t) : IsHalf places (-t) := by
  obtain ⟨z, hz⟩ := h
  refine ⟨-z - 1, ?_⟩
  rw [neg_mul, hz]
  push_cast
  ring

/-- With one place more the halves are whole. -/
theorem IsHalf.exists_eq (h : IsHalf places t) (hmore : places < more) :
    ∃ z : ℤ, t * 10 ^ more = z := by
  obtain ⟨z, hz⟩ := h
  obtain ⟨i, rfl⟩ := Nat.exists_eq_add_of_lt hmore
  refine ⟨(2 * z + 1) * (5 * 10 ^ i), ?_⟩
  have hsplit : t * 10 ^ (places + i + 1) = t * 10 ^ places * (10 * 10 ^ i) := by ring
  rw [hsplit, hz]
  push_cast
  ring

/-- Numbers on the same side of every half are rounded alike. -/
theorem halfAway_congr (hv : 0 ≤ v) (hw : 0 ≤ w)
    (h : ∀ t, IsHalf places t → (t ≤ v ↔ t ≤ w)) : halfAway places v = halfAway places w := by
  have hunit : (0 : ℚ) < 10 ^ places := by positivity
  have hside (z : ℤ) : z + 1 / 2 ≤ v * 10 ^ places ↔ z + 1 / 2 ≤ w * 10 ^ places := by
    rw [← div_le_iff₀ hunit, ← div_le_iff₀ hunit]
    exact h _ ⟨z, div_mul_cancel₀ _ hunit.ne'⟩
  have hround : round (v * 10 ^ places) = round (w * 10 ^ places) := by
    rw [round_eq, round_eq, Int.floor_eq_iff]
    have hbelow := hside (⌊w * 10 ^ places + 1 / 2⌋ - 1)
    have habove := hside ⌊w * 10 ^ places + 1 / 2⌋
    have hle := Int.floor_le (w * 10 ^ places + 1 / 2)
    have hlt := Int.lt_floor_add_one (w * 10 ^ places + 1 / 2)
    push_cast at hbelow
    constructor
    · have := hbelow.mpr (by linarith)
      linarith
    · by_contra hge
      have := habove.mp (by linarith)
      linarith
  rw [halfAway_of_nonneg hv, halfAway_of_nonneg hw, hround]

theorem halfAway_halfAway_of_nonneg (hmore : places < more) (hv : 0 ≤ v)
    (h : ∀ t, IsHalf places t → t ≠ v → 1 / 2 / 10 ^ more < |v - t|) :
    halfAway places (halfAway more v) = halfAway places v := by
  by_cases hhalf : IsHalf places v
  · obtain ⟨z, hz⟩ := hhalf.exists_eq hmore
    rw [halfAway_eq_self hz]
  · -- the first rounding does not go as far as the next half
    refine halfAway_congr (halfAway_nonneg hv) hv fun t ht => ?_
    have hfar := h t ht (by rintro rfl; exact hhalf ht)
    have hmoved := (abs_halfAway_sub_le more v).trans_lt hfar
    rcases abs_cases (v - t) with ⟨heq, hsign⟩ | ⟨heq, hsign⟩
    · rw [heq, abs_lt] at hmoved
      exact ⟨fun _ => by linarith, fun _ => by linarith⟩
    · rw [heq, abs_lt] at hmoved
      exact ⟨fun _ => by linarith, fun _ => by linarith⟩

/-- **Rounding to more places first does no harm** to what is a half or is farther from all of them
than that rounding goes. -/
theorem halfAway_halfAway (hmore : places < more)
    (h : ∀ t, IsHalf places t → t ≠ v → 1 / 2 / 10 ^ more < |v - t|) :
    halfAway places (halfAway more v) = halfAway places v := by
  rcases le_total 0 v with hv | hv
  · exact halfAway_halfAway_of_nonneg hmore hv h
  · refine neg_injective ?_
    rw [← halfAway_neg, ← halfAway_neg, ← halfAway_neg]
    refine halfAway_halfAway_of_nonneg hmore (neg_nonneg.mpr hv) fun t ht hne => ?_
    have hdist := h (-t) ht.neg (by rintro rfl; exact hne (neg_neg t).symm)
    rwa [sub_neg_eq_add, ← abs_neg, neg_add'] at hdist

/-- A fraction over `n * 10 ^ k` is farther from every half than from its own rounding to places
that are finer than that. -/
theorem lt_abs_sub_of_isHalf {n k : ℕ} {s : ℤ} (hn : 0 < n) (hk : places < k)
    (hv : v * (n * 10 ^ k) = s) (hfine : (n * 10 ^ k : ℚ) < 10 ^ more) (ht : IsHalf places t)
    (hne : t ≠ v) : 1 / 2 / 10 ^ more < |v - t| := by
  obtain ⟨z, hz⟩ := ht.exists_eq hk
  have hunit : (0 : ℚ) < n * 10 ^ k := mul_pos (Nat.cast_pos.mpr hn) (by positivity)
  have hsub : (v - t) * (n * 10 ^ k) = (s - n * z : ℤ) := by
    push_cast
    rw [sub_mul, hv, ← hz]
    ring
  have hwhole : (1 : ℚ) ≤ |v - t| * (n * 10 ^ k) := by
    have hne' : (s - n * z : ℤ) ≠ 0 := by
      intro hzero
      rw [hzero, Int.cast_zero, mul_eq_zero, sub_eq_zero] at hsub
      exact hsub.elim (fun h => hne h.symm) hunit.ne'
    rw [← abs_of_pos hunit, ← abs_mul, hsub]
    exact_mod_cast Int.one_le_abs hne'
  have hpos : (0 : ℚ) < 10 ^ more := by positivity
  calc (1 : ℚ) / 2 / 10 ^ more
      < 1 / 10 ^ more := div_lt_div_of_pos_right (by norm_num) hpos
    _ ≤ 1 / (n * 10 ^ k) := one_div_le_one_div_of_le hunit hfine.le
    _ ≤ |v - t| := (div_le_iff₀ hunit).mpr hwhole

end

/-! ### Quotients of natural numbers -/

theorem natCast_div_eq {d : ℕ} (hd : 0 < d) (n : ℕ) :
    (n : ℚ) / d = (n / d : ℕ) + (n % d : ℕ) / d := by
  have hn := Nat.div_add_mod n d
  have hpos : (0 : ℚ) < d := Nat.cast_pos.mpr hd
  generalize n / d = q at hn ⊢
  generalize n % d = r at hn ⊢
  rw [← hn, Nat.cast_add, Nat.cast_mul, add_div, mul_div_cancel_left₀ _ hpos.ne']

theorem natCast_div_lt_half_iff {r d : ℕ} (hd : 0 < d) : (r : ℚ) / d < 1 / 2 ↔ 2 * r < d := by
  rw [div_lt_div_iff₀ (Nat.cast_pos.mpr hd) two_pos, one_mul, mul_comm, ← Nat.cast_lt (α := ℚ),
    Nat.cast_mul, Nat.cast_two]

theorem half_lt_natCast_div_iff {r d : ℕ} (hd : 0 < d) : 1 / 2 < (r : ℚ) / d ↔ d < 2 * r := by
  rw [div_lt_div_iff₀ two_pos (Nat.cast_pos.mpr hd), one_mul, mul_comm, ← Nat.cast_lt (α := ℚ),
    Nat.cast_mul, Nat.cast_two]

/-- Rounding a quotient of natural numbers is rounding its value. -/
theorem round_natCast_div {d : ℕ} (hd : 0 < d) (n : ℕ) :
    round ((n : ℚ) / d) = (roundHalfUp n d : ℤ) := by
  have hlt : ((n % d : ℕ) : ℚ) / d < 1 :=
    (div_lt_one (Nat.cast_pos.mpr hd)).mpr (Nat.cast_lt.mpr (Nat.mod_lt n hd))
  have hnonneg : (0 : ℚ) ≤ (n % d : ℕ) / d := by positivity
  rw [round_eq, Int.floor_eq_iff, natCast_div_eq hd, roundHalfUp,
    if_congr (natCast_div_lt_half_iff hd).symm rfl rfl]
  generalize ((n % d : ℕ) : ℚ) / d = rest at hlt hnonneg ⊢
  generalize n / d = q
  split
  · push_cast
    constructor <;> linarith
  · push_cast
    constructor <;> linarith

theorem halfAway_eq_div {n d places : ℕ} (hd : 0 < d) {v : ℚ} (h : v * 10 ^ places = n / d) :
    halfAway places v = roundHalfUp n d / 10 ^ places := by
  have hunit : (0 : ℚ) < 10 ^ places := by positivity
  have hv : 0 ≤ v := nonneg_of_mul_nonneg_left (h ▸ by positivity) hunit
  rw [halfAway_of_nonneg hv, h, round_natCast_div hd, Int.cast_natCast]

namespace Decimal

/-! ### Values -/

/-- The number that a decimal is. -/
def value (a : Decimal) : ℚ := a.coefficient / 10 ^ a.scale

variable {a b : Decimal}

theorem value_zero : (0 : Decimal).value = 0 := zero_div _

theorem coefficient_eq (a : Decimal) : (a.coefficient : ℚ) = a.value * 10 ^ a.scale := by
  rw [value]
  field_simp

/-- Decimals of one scale are told apart by their values. -/
theorem ext_value (hscale : a.scale = b.scale) (hvalue : a.value = b.value) : a = b := by
  have hcoefficient : (a.coefficient : ℚ) = b.coefficient := by
    rw [coefficient_eq, coefficient_eq, hscale, hvalue]
  obtain ⟨c, s⟩ := a
  obtain ⟨d, t⟩ := b
  rw [Int.cast_inj] at hcoefficient
  cases hscale
  cases hcoefficient
  rfl

theorem abs_value (a : Decimal) : |a.value| = a.coefficient.natAbs / 10 ^ a.scale := by
  rw [value, abs_div, abs_of_pos (by positivity : (0 : ℚ) < 10 ^ a.scale), Nat.cast_natAbs,
    Int.cast_abs]

theorem value_neg_iff : a.value < 0 ↔ a.coefficient < 0 := by
  have hunit : (0 : ℚ) < 10 ^ a.scale := by positivity
  rw [value, div_lt_iff₀ hunit, zero_mul, Int.cast_lt_zero]

/-! ### Sums -/

theorem coefficientAt_eq {scale : ℕ} (h : a.scale ≤ scale) :
    (a.coefficientAt scale : ℚ) = a.value * 10 ^ scale := by
  have hsplit : (10 : ℚ) ^ scale = 10 ^ a.scale * 10 ^ (scale - a.scale) := by
    rw [← pow_add, Nat.add_sub_cancel' h]
  rw [coefficientAt, Nat.pow_eq, hsplit, ← mul_assoc, ← coefficient_eq]
  push_cast
  rfl

theorem value_add (a b : Decimal) : (a + b).value = a.value + b.value := by
  show ((a.coefficientAt _ + b.coefficientAt _ : ℤ) : ℚ) / 10 ^ max a.scale b.scale = _
  rw [Int.cast_add, coefficientAt_eq (le_max_left _ _), coefficientAt_eq (le_max_right _ _),
    ← add_mul, mul_div_cancel_right₀ _ (by positivity)]

theorem scale_add (a b : Decimal) : (a + b).scale = max a.scale b.scale := rfl

theorem value_foldl (l : List Decimal) (a : Decimal) :
    (l.foldl (· + ·) a).value = a.value + (l.map value).sum := by
  induction l generalizing a with
  | nil => rw [List.foldl_nil, List.map_nil, List.sum_nil, add_zero]
  | cons b l ih => rw [List.foldl_cons, ih, value_add, List.map_cons, List.sum_cons, add_assoc]

/-- **Sums are exact.** -/
theorem value_sum (l : List Decimal) : (sum l).value = (l.map value).sum := by
  rw [sum, value_foldl, value_zero, zero_add]

instance : RightCommutative fun a b : Decimal => a + b where
  right_comm a b c := by
    refine ext_value ?_ ?_
    · rw [scale_add, scale_add, scale_add, scale_add, max_right_comm]
    · rw [value_add, value_add, value_add, value_add, add_right_comm]

/-- **The order of the summands does not matter**, not even for the scale. -/
theorem sum_perm {l l' : List Decimal} (h : l.Perm l') : sum l = sum l' := h.foldl_eq 0

/-! ### Rounding -/

theorem scale_round (places : ℕ) (a : Decimal) : (a.round places).scale = places := by
  unfold round
  split <;> rfl

/-- A magnitude is rounded first and gets its sign afterwards. -/
theorem value_signed {c places : ℕ} {v : ℚ} (hsign : v < 0 ↔ a.coefficient < 0)
    (h : halfAway places |v| = c / 10 ^ places) :
    value ⟨if a.coefficient < 0 then -(c : ℤ) else c, places⟩ = halfAway places v := by
  unfold value
  by_cases hneg : a.coefficient < 0
  · rw [abs_of_neg (hsign.mpr hneg), halfAway_neg] at h
    rw [if_pos hneg, Int.cast_neg, Int.cast_natCast, neg_div, ← h, neg_neg]
  · rw [abs_of_nonneg (not_lt.mp (mt hsign.mp hneg))] at h
    rw [if_neg hneg, Int.cast_natCast, h]

/-- **Rounding to places is rounding the value.** -/
theorem value_round (places : ℕ) (a : Decimal) :
    (a.round places).value = halfAway places a.value := by
  unfold round
  split
  · rename_i hscale
    have hat := coefficientAt_eq hscale
    have hself : value ⟨a.coefficientAt places, places⟩ = a.value := by
      rw [value, hat, mul_div_cancel_right₀ _ (by positivity)]
    rw [hself, halfAway_eq_self hat.symm]
  · rename_i hscale
    have hsplit : (10 : ℚ) ^ a.scale = 10 ^ (a.scale - places) * 10 ^ places := by
      rw [← pow_add, Nat.sub_add_cancel (Nat.le_of_not_le hscale)]
    refine value_signed value_neg_iff (halfAway_eq_div (Nat.pow_pos (by decide)) ?_)
    rw [abs_value, hsplit]
    push_cast
    field_simp

/-- Decimals of one value are rounded alike. -/
theorem round_congr (h : a.value = b.value) (places : ℕ) : a.round places = b.round places :=
  ext_value ((scale_round places a).trans (scale_round places b).symm)
    (by rw [value_round, value_round, h])

/-! ### Quotients -/

theorem lt_pow_digitCount (n : ℕ) : n < 10 ^ digitCount n :=
  (Nat.length_toDigits_le_iff (b := 10) (by decide) Nat.length_toDigits_pos).mp le_rfl

theorem digitCount_le_iff {n k : ℕ} (hk : 0 < k) : digitCount n ≤ k ↔ n < 10 ^ k :=
  Nat.length_toDigits_le_iff (by decide) hk

theorem pow_digitCount_le {n : ℕ} (hn : n ≠ 0) : 10 ^ (digitCount n - 1) ≤ n := by
  by_contra hlt
  rcases Nat.eq_zero_or_pos (digitCount n - 1) with hzero | hpos
  · rw [hzero, pow_zero] at hlt
    exact hn (Nat.lt_one_iff.mp (Nat.not_le.mp hlt))
  · have hle := (digitCount_le_iff hpos).mpr (Nat.not_le.mp hlt)
    omega

theorem le_scaleToReach {d fuel n : ℕ} (h : d ≤ n * 10 ^ fuel) :
    d ≤ n * 10 ^ scaleToReach d fuel n := by
  induction fuel generalizing n with
  | zero => exact h
  | succ fuel ih =>
    rw [scaleToReach]
    split
    · rwa [pow_zero, mul_one]
    · have hstep (k : ℕ) : n * 10 ^ (k + 1) = n * 10 * 10 ^ k := by rw [pow_succ', mul_assoc]
      rw [hstep] at h ⊢
      exact ih h

/-- A quotient that is raised by the digits it lacks has all of them. -/
theorem le_mul_pow_of_digitCount {m d : ℕ} (hd : 0 < d) (hm : d ≤ m) :
    d * 10 ^ (quotientDigits - 1) ≤ m * 10 ^ (quotientDigits - digitCount (m / d)) := by
  have hne : m / d ≠ 0 := (Nat.div_pos hm hd).ne'
  have hdigits := pow_digitCount_le hne
  generalize digitCount (m / d) = k at hdigits ⊢
  calc d * 10 ^ (quotientDigits - 1)
      ≤ d * 10 ^ ((k - 1) + (quotientDigits - k)) :=
        Nat.mul_le_mul_left _ (Nat.pow_le_pow_right (by decide) (by omega))
    _ = d * 10 ^ (k - 1) * 10 ^ (quotientDigits - k) := by rw [pow_add, mul_assoc]
    _ ≤ d * (m / d) * 10 ^ (quotientDigits - k) :=
        Nat.mul_le_mul_right _ (Nat.mul_le_mul_left _ hdigits)
    _ ≤ m * 10 ^ (quotientDigits - k) := Nat.mul_le_mul_right _ (Nat.mul_div_le m d)

/-- **A quotient is rounded to some places**, and keeps all its significant digits up to the
hundredth. -/
theorem exists_value_quotient (a : Decimal) {count : ℕ} (hcount : 0 < count) :
    ∃ places, (a.quotient count).value = halfAway places (a.value / count) ∧
      (a.value ≠ 0 → 10 ^ (quotientDigits - 1) ≤ |a.value / count| * 10 ^ places) := by
  have hpos : (0 : ℚ) < count := Nat.cast_pos.mpr hcount
  have habs : |a.value / count| = a.coefficient.natAbs / 10 ^ a.scale / count := by
    rw [abs_div, abs_of_pos hpos, abs_value]
  have hsign : a.value / count < 0 ↔ a.coefficient < 0 := by
    rw [div_lt_iff₀ hpos, zero_mul, value_neg_iff]
  unfold quotient quotientMagnitude
  by_cases hzero : a.coefficient.natAbs = 0
  · have hvalue : a.value = 0 := by
      rw [← abs_eq_zero, abs_value, hzero, Nat.cast_zero, zero_div]
    refine ⟨0, ?_, fun h => absurd hvalue h⟩
    rw [if_pos hzero]
    refine value_signed hsign ?_
    rw [hvalue, zero_div, abs_zero, halfAway_zero, Nat.cast_zero, zero_div]
  · rw [if_neg hzero]
    have hfuel : count ≤ a.coefficient.natAbs * 10 ^ digitCount count :=
      (lt_pow_digitCount count).le.trans (Nat.le_mul_of_pos_left _ (Nat.pos_of_ne_zero hzero))
    have hraised := le_scaleToReach hfuel
    have hdigits := le_mul_pow_of_digitCount hcount hraised
    simp only [Nat.pow_eq]
    generalize scaleToReach count (digitCount count) a.coefficient.natAbs = lift at hdigits ⊢
    generalize quotientDigits - digitCount _ = extra at hdigits ⊢
    -- over all these places the quotient has the digits that were added to it
    have hplaces : |a.value / count| * 10 ^ (a.scale + lift + extra) =
        ((a.coefficient.natAbs * 10 ^ lift * 10 ^ extra : ℕ) : ℚ) / count := by
      rw [habs]
      push_cast
      field_simp
      ring
    refine ⟨a.scale + lift + extra, value_signed hsign (halfAway_eq_div hcount hplaces),
      fun _ => ?_⟩
    rw [hplaces, le_div_iff₀ hpos, mul_comm]
    exact_mod_cast hdigits

end Decimal

end CampusQuery
