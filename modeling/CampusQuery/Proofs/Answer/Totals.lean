/-
CampusQuery/Proofs/Answer/Totals.lean

Sums and means are those of the decimal forms.

The sum of numbers is the number nearest to the exact sum of their shortest decimal forms, rounded
to two places (`Aggregate.sum_isNearest`).  So it depends neither on their order nor on pairs of
opposite numbers, and it changes its sign with them.

A mean is rounded twice: first to a hundred significant digits, then to two places
(`Aggregate.mean_isNearest`).  That can give another result than to round once
(`Aggregate.mean_rounded_twice`), but only where the first rounding comes to or over a half of the
last place.  It does not for sums of less than a hundred digits, since a mean of these is either
such a half or farther from it than the first rounding goes (`lt_abs_sub_of_isHalf`).
-/
import CampusQuery.Answer.Aggregate
import CampusQuery.Proofs.Decimal.Fewest

namespace CampusQuery

/-! ### Opposites -/

/-- The opposite of a number; texts stay as they are. -/
def Scalar.neg : Scalar → Scalar
  | .number x => .number x.neg
  | .text s => .text s

theorem Scalar.number?_neg (v : Scalar) : v.neg.number? = v.number?.map Binary64.neg := by
  cases v <;> rfl

namespace Aggregate

variable {values values' : List Scalar} {x : Binary64}

/-! ### Exact sums -/

/-- The numbers among the values. -/
def numbersOf (values : List Scalar) : List Binary64 := values.filterMap Scalar.number?

/-- The exact sum of the decimal forms of the numbers. -/
def exactSum (values : List Scalar) : ℚ := ((numbersOf values).map (·.toDecimal.value)).sum

/-- The exact mean of the decimal forms of the numbers. -/
def exactMean (values : List Scalar) : ℚ := exactSum values / (numbersOf values).length

theorem mem_numbersOf : x ∈ numbersOf values ↔ .number x ∈ values := by
  rw [numbersOf, List.mem_filterMap]
  constructor
  · rintro ⟨_ | _, hv, h⟩
    · obtain rfl := Option.some.inj h
      exact hv
    · cases h
  · exact fun h => ⟨_, h, rfl⟩

theorem isFinite_of_mem (h : ∀ x ∈ numbersOf values, x.isFinite = true) (x : Binary64)
    (hx : .number x ∈ values) : x.isFinite = true := h x (mem_numbersOf.mpr hx)

theorem numbersOf_perm (h : values'.Perm values) : (numbersOf values').Perm (numbersOf values) :=
  h.filterMap _

theorem numbersOf_neg (values : List Scalar) :
    numbersOf (values.map Scalar.neg) = (numbersOf values).map Binary64.neg := by
  rw [numbersOf, List.filterMap_map, numbersOf, List.map_filterMap]
  exact List.filterMap_congr fun v _ => v.number?_neg

theorem exactSum_perm (h : values'.Perm values) : exactSum values' = exactSum values :=
  ((numbersOf_perm h).map _).sum_eq

/-- Opposite numbers cancel out. -/
theorem exactSum_cons_neg (x : Binary64) (values : List Scalar) :
    exactSum (.number x :: .number x.neg :: values) = exactSum values := by
  show x.toDecimal.value + (x.neg.toDecimal.value + exactSum values) = exactSum values
  rw [Binary64.value_toDecimal_neg, add_neg_cancel_left]

theorem exactSum_neg (values : List Scalar) :
    exactSum (values.map Scalar.neg) = -exactSum values := by
  rw [exactSum, numbersOf_neg, List.map_map, exactSum, List.sum_neg, List.map_map]
  exact congrArg List.sum (List.map_congr_left fun x _ => x.value_toDecimal_neg)

theorem value_decimalSum (values : List Scalar) :
    (decimalSum (numbersOf values)).value = exactSum values := by
  rw [decimalSum, Decimal.value_sum, List.map_map]
  rfl

theorem decimalSum_perm {numbers numbers' : List Binary64} (h : numbers'.Perm numbers) :
    decimalSum numbers' = decimalSum numbers := Decimal.sum_perm (h.map _)

/-! ### Sums -/

theorem apply_sum (values : List Scalar) :
    Aggregate.sum.apply values = .number (sumOf (numbersOf values)) := rfl

/-- Values of one exact sum have one sum. -/
theorem apply_sum_congr (h : exactSum values' = exactSum values) :
    Aggregate.sum.apply values' = Aggregate.sum.apply values := by
  have hvalue : (decimalSum (numbersOf values')).value = (decimalSum (numbersOf values)).value := by
    rw [value_decimalSum, value_decimalSum, h]
  rw [apply_sum, apply_sum, sumOf, sumOf, Decimal.round_congr hvalue]

/-- Sums are finite as long as they are within the range of the format. -/
theorem isFinite_sumOf_iff : (sumOf (numbersOf values)).isFinite = true ↔
    |halfAway places (exactSum values)| < Magnitude.overflow := by
  rw [isFinite_sumOf, Decimal.overflows_iff, not_le, Decimal.value_round, value_decimalSum]

theorem isNearest_sumOf (h : |halfAway places (exactSum values)| < Magnitude.overflow) :
    (sumOf (numbersOf values)).IsNearest (halfAway places (exactSum values)) := by
  have hnearest := Decimal.isNearest_toBinary64 (isFinite_sumOf.mp (isFinite_sumOf_iff.mpr h))
  rwa [Decimal.value_round, value_decimalSum] at hnearest

/-- **A sum is exact**: it is the number nearest to the exact sum of the shortest decimal forms,
rounded to two places with a half away from zero, if that is within the range of the format.  It is
the same for every order of the values, and with a number and its opposite anywhere among them; and
the sum of the opposites is the opposite. -/
theorem sum_isNearest (hfinite : ∀ x, .number x ∈ values → x.isFinite = true)
    (hrange : |halfAway places (exactSum values)| < Magnitude.overflow) :
    (∀ x, .number x ∈ values → x.IsShortest x.toDecimal.value) ∧
      ∃ r, Aggregate.sum.apply values = .number r ∧
        r.IsNearest (halfAway places (exactSum values)) ∧
        (∀ values' : List Scalar, values'.Perm values → Aggregate.sum.apply values' = .number r) ∧
        (∀ (x : Binary64) (values' : List Scalar), x.isFinite = true →
          values'.Perm (.number x :: .number x.neg :: values) →
          Aggregate.sum.apply values' = .number r) ∧
        (Aggregate.sum.apply (values.map Scalar.neg)).Same (.number r.neg) := by
  have hnearest := isNearest_sumOf hrange
  refine ⟨fun x hx => Binary64.isShortest_toDecimal (hfinite x hx), _, apply_sum values, hnearest,
    fun values' h => apply_sum_congr (exactSum_perm h), fun x values' _ h => ?_, ?_⟩
  · exact apply_sum_congr ((exactSum_perm h).trans (exactSum_cons_neg x values))
  · have hneg : halfAway places (exactSum (values.map Scalar.neg)) =
        -halfAway places (exactSum values) := by
      rw [exactSum_neg, halfAway_neg]
    have hrange' : |halfAway places (exactSum (values.map Scalar.neg))| < Magnitude.overflow := by
      rwa [hneg, abs_neg]
    have hopposite := isNearest_sumOf hrange'
    rw [hneg] at hopposite
    exact (Binary64.eq_iff_value hopposite.isFinite hnearest.neg.isFinite).mpr
      (hopposite.value_eq hnearest.neg)

/-- One, a text and half a hundredth; the nearest binary numbers of the two add up to less. -/
def sampleSummands : List Scalar :=
  [.number (.ofInt 1), .text "cpsc", .number (.ofScientific false 5 (-3))]

theorem sum_isNearest_sample :
    (∀ x, .number x ∈ sampleSummands → x.isFinite = true) ∧
      |halfAway places (exactSum sampleSummands)| < Magnitude.overflow ∧
      (Binary64.ofScientific false 101 (-2)).IsNearest
        (halfAway places (exactSum sampleSummands)) := by
  have hfinite : ∀ x, .number x ∈ sampleSummands → x.isFinite = true :=
    isFinite_of_mem (by decide +kernel)
  have hrange := isFinite_sumOf_iff.mp
    (by decide +kernel : (sumOf (numbersOf sampleSummands)).isFinite = true)
  have hsum : Aggregate.sum.apply sampleSummands =
      .number (.ofScientific false 101 (-2)) := by decide +kernel
  obtain ⟨-, r, hr, hnearest, -⟩ := sum_isNearest hfinite hrange
  obtain rfl := Scalar.number.inj (hsum.symm.trans hr)
  exact ⟨hfinite, hrange, hnearest⟩

/-! ### Means -/

theorem apply_avg (values : List Scalar) :
    Aggregate.avg.apply values = .number (meanOf (numbersOf values)) := rfl

theorem meanOf_eq {numbers : List Binary64} (hne : numbers ≠ []) : meanOf numbers =
    (((decimalSum numbers).quotient numbers.length).round places).toBinary64 := by
  rw [meanOf, if_neg (mt List.isEmpty_iff.mp hne)]

theorem meanOf_perm {numbers numbers' : List Binary64} (h : numbers'.Perm numbers) :
    meanOf numbers' = meanOf numbers := by
  rw [meanOf, meanOf, decimalSum_perm h, h.length_eq, h.isEmpty_eq]

/-- A mean is nearest to what the exact one is rounded to, twice. -/
theorem exists_isNearest_meanOf (hne : numbersOf values ≠ []) : ∃ more : ℕ,
    (meanOf (numbersOf values)).IsNearest
        (halfAway places (halfAway more (exactMean values))) ∧
      (exactSum values ≠ 0 → 10 ^ 99 ≤ |exactMean values| * 10 ^ more) := by
  have hcount : 0 < (numbersOf values).length := List.length_pos_iff.mpr hne
  have hfinite := isFinite_meanOf (numbersOf values)
  rw [meanOf_eq hne, Decimal.isFinite_toBinary64] at hfinite
  have hnearest := Decimal.isNearest_toBinary64 hfinite
  obtain ⟨more, hquotient, hdigits⟩ :=
    Decimal.exists_value_quotient (decimalSum (numbersOf values)) hcount
  rw [Decimal.value_round, hquotient, value_decimalSum, ← meanOf_eq hne] at hnearest
  rw [value_decimalSum] at hdigits
  exact ⟨more, hnearest, hdigits⟩

/-- If a sum has less than a hundred digits, its mean is over a unit that is coarser than the
hundredth digit of the mean. -/
theorem lt_pow_of_abs_lt {n k more : ℕ} {s : ℤ} {v : ℚ} (hn : 0 < n) (hv : v * (n * 10 ^ k) = s)
    (hs : |s| < 10 ^ 99) (hdigits : 10 ^ 99 ≤ |v| * 10 ^ more) : (n * 10 ^ k : ℚ) < 10 ^ more := by
  have hunit : (0 : ℚ) < n * 10 ^ k := mul_pos (Nat.cast_pos.mpr hn) (by positivity)
  have hs' : |v| * (n * 10 ^ k) < 10 ^ 99 := by
    rw [← abs_of_pos hunit, ← abs_mul, hv]
    exact_mod_cast hs
  have hpos : 0 < |v| := by
    refine abs_pos.mpr ?_
    rintro rfl
    rw [abs_zero, zero_mul] at hdigits
    exact absurd hdigits (by norm_num)
  exact lt_of_mul_lt_mul_left (hs'.trans_le hdigits) hpos.le

/-- Means of sums with less than a hundred digits are rounded as if once. -/
theorem halfAway_exactMean {k more : ℕ} {s : ℤ} (hne : numbersOf values ≠ []) (hk : places < k)
    (hs : exactSum values * 10 ^ k = s) (hlt : |s| < 10 ^ 99)
    (hdigits : exactSum values ≠ 0 → 10 ^ 99 ≤ |exactMean values| * 10 ^ more) :
    halfAway places (halfAway more (exactMean values)) = halfAway places (exactMean values) := by
  have hcount : 0 < (numbersOf values).length := List.length_pos_iff.mpr hne
  by_cases hzero : exactSum values = 0
  · rw [exactMean, hzero, zero_div, halfAway_zero]
  · have hv : exactMean values * ((numbersOf values).length * 10 ^ k) = s := by
      rw [exactMean, ← mul_assoc, div_mul_cancel₀ _ (Nat.cast_pos.mpr hcount).ne', hs]
    have hfine := lt_pow_of_abs_lt hcount hv hlt (hdigits hzero)
    have hmore : k < more := by
      have hle : (10 : ℚ) ^ k ≤ (numbersOf values).length * 10 ^ k :=
        le_mul_of_one_le_left (by positivity) (Nat.one_le_cast.mpr hcount)
      exact (pow_lt_pow_iff_right₀ (by norm_num)).mp (hle.trans_lt hfine)
    exact halfAway_halfAway (hk.trans hmore) fun t ht hne =>
      lt_abs_sub_of_isHalf hcount hk hv hfine ht hne

/-- **What a mean is.**  It is the number nearest to the exact mean of the shortest decimal forms,
rounded first to a hundred significant digits or more and then to two places, a half away from zero;
texts do not count.  It is the same for every order of the values.

So it is nearest to the exact mean rounded to two places, unless these digits end at or across
both a half of the last place that the mean itself is not and a point halfway between two binary
numbers.  If the sum has less than a hundred digits, it always is. -/
theorem mean_isNearest (hne : ∃ x, .number x ∈ values)
    (hfinite : ∀ x, .number x ∈ values → x.isFinite = true) :
    (∀ x, .number x ∈ values → x.IsShortest x.toDecimal.value) ∧
      ∃ r more, (∀ values' : List Scalar, values'.Perm values →
          Aggregate.avg.apply values' = .number r) ∧
        r.IsNearest (halfAway places (halfAway more (exactMean values))) ∧
        (exactSum values ≠ 0 → 10 ^ 99 ≤ |exactMean values| * 10 ^ more) ∧
        (¬ r.IsNearest (halfAway places (exactMean values)) →
          (places < more → ∃ t, IsHalf places t ∧ t ≠ exactMean values ∧
            |exactMean values - t| ≤ 1 / 2 / 10 ^ more) ∧
          ∃ t, Binary64.IsHalfway t ∧ t ∈ Set.uIcc (halfAway places (exactMean values))
            (halfAway places (halfAway more (exactMean values)))) ∧
        ∀ (k : ℕ) (s : ℤ), places < k → exactSum values * 10 ^ k = s → |s| < 10 ^ 99 →
          r.IsNearest (halfAway places (exactMean values)) := by
  obtain ⟨x, hx⟩ := hne
  have hnumbers : numbersOf values ≠ [] := List.ne_nil_of_mem (mem_numbersOf.mpr hx)
  obtain ⟨more, hnearest, hdigits⟩ := exists_isNearest_meanOf hnumbers
  refine ⟨fun x hx => Binary64.isShortest_toDecimal (hfinite x hx), meanOf (numbersOf values), more,
    fun values' h => ?_, hnearest, hdigits, fun hnot => ⟨fun hmore => ?_, ?_⟩,
    fun k s hk hs hlt => ?_⟩
  · rw [apply_avg, meanOf_perm (numbersOf_perm h)]
  · by_contra hnone
    refine hnot ?_
    rwa [halfAway_halfAway hmore] at hnearest
    intro t ht hne
    by_contra hle
    exact hnone ⟨t, ht, hne, not_lt.mp hle⟩
  · by_contra hnone
    exact hnot (hnearest.of_not_isHalfway fun t ht hmem => hnone ⟨t, ht, hmem⟩)
  · rwa [halfAway_exactMean hnumbers hk hs hlt hdigits] at hnearest

/-- Numbers with the mean 1.666…, and a text among them. -/
def sampleMarks : List Scalar :=
  [.number (.ofInt 1), .text "cpsc", .number (.ofInt 2), .number (.ofInt 2)]

theorem mean_isNearest_sample :
    (∃ x, .number x ∈ sampleMarks) ∧ (∀ x, .number x ∈ sampleMarks → x.isFinite = true) ∧
      exactMean sampleMarks = 5 / 3 ∧
      (Binary64.ofScientific false 167 (-2)).IsNearest
        (halfAway places (exactMean sampleMarks)) := by
  have hne : ∃ x, .number x ∈ sampleMarks := ⟨.ofInt 1, List.mem_cons_self⟩
  have hfinite : ∀ x, .number x ∈ sampleMarks → x.isFinite = true :=
    isFinite_of_mem (by decide +kernel)
  have hsum : exactSum sampleMarks = 5 := by
    have hdecimal : decimalSum (numbersOf sampleMarks) = ⟨5, 0⟩ := by decide +kernel
    rw [← value_decimalSum, hdecimal]
    norm_num [Decimal.value]
  have hcount : (numbersOf sampleMarks).length = 3 := rfl
  have havg : Aggregate.avg.apply sampleMarks = .number (.ofScientific false 167 (-2)) := by
    decide +kernel
  obtain ⟨-, r, more, hr, -, -, -, hnearest⟩ := mean_isNearest hne hfinite
  obtain rfl := Scalar.number.inj (havg.symm.trans (hr sampleMarks (.refl _)))
  exact ⟨hne, hfinite, by rw [exactMean, hsum, hcount, Nat.cast_ofNat],
    hnearest 3 5000 (by decide) (by rw [hsum]; norm_num) (by norm_num)⟩

/-- A hundredth, and a number below zero that is too small for the hundred digits of their mean. -/
def sampleTiny : List Scalar :=
  [.number (.ofScientific false 1 (-2)), .number (.ofScientific true 1 (-200))]

/-- A mean just below half a hundredth is rounded to that half first, and then up. -/
theorem mean_rounded_twice :
    (∀ x, .number x ∈ sampleTiny → x.isFinite = true) ∧
      exactMean sampleTiny = (1 / 10 ^ 2 - 1 / 10 ^ 200) / 2 ∧
      halfAway places (exactMean sampleTiny) = 0 ∧
      Aggregate.avg.apply sampleTiny = .number (.ofScientific false 1 (-2)) ∧
      ¬ (Binary64.ofScientific false 1 (-2)).IsNearest
        (halfAway places (exactMean sampleTiny)) := by
  have hsum : exactSum sampleTiny = 1 / 10 ^ 2 - 1 / 10 ^ 200 := by
    have hdecimal : decimalSum (numbersOf sampleTiny) = ⟨10 ^ 198 - 1, 200⟩ := by decide +kernel
    rw [← value_decimalSum, hdecimal]
    norm_num [Decimal.value]
  have hcount : (numbersOf sampleTiny).length = 2 := rfl
  have hmean : exactMean sampleTiny = (1 / 10 ^ 2 - 1 / 10 ^ 200) / 2 := by
    rw [exactMean, hsum, hcount, Nat.cast_ofNat]
  have hzero : halfAway places (exactMean sampleTiny) = 0 := by
    have hround : round (exactMean sampleTiny * 10 ^ places) = 0 := by
      rw [round_eq_zero_iff, hmean, places]
      constructor <;> norm_num
    rw [halfAway_of_nonneg (by rw [hmean]; norm_num), hround, Int.cast_zero, zero_div]
  refine ⟨isFinite_of_mem (by decide +kernel), hmean, hzero, by decide +kernel, fun h => ?_⟩
  -- zero is nearer to zero
  have hclosest := h.closest 0 rfl
  have hvalue : (0 : Binary64).value = 0 :=
    (Binary64.value_finite_false 0).trans Magnitude.value_zero
  rw [hzero, sub_zero, sub_zero, hvalue, abs_zero, abs_nonpos_iff, ← hvalue,
    Binary64.value_inj] at hclosest
  exact absurd hclosest (by decide +kernel)

end Aggregate

end CampusQuery
