/-
CampusQuery/Proofs/Decimal/Rounding.lean

How far rounding goes.

Rounding to a natural number keeps the order (`roundHalfEven_mono`) and every integer bound
(`roundHalfUp_le`).  Rounding to a magnitude is studied without the largest one first:
`Magnitude.rounded` is the number of units that a quotient is rounded to in a format whose shifts
have no end.  It keeps the order as well (`rounded_mono`), and the magnitude nearest to a quotient
has that many units if there is one (`units_of_nearest?`).  There is none from `Magnitude.overflow`
upwards, the point halfway between the largest magnitude and what would be the next
(`nearest?_eq_none_iff`).
-/
import CampusQuery.Proofs.Decimal.Reading
import Mathlib.Data.Nat.Log

namespace CampusQuery

/-! ### Rounding to a natural number -/

theorem le_roundHalfEven (n d : Nat) : n / d ≤ roundHalfEven n d := by
  unfold roundHalfEven
  simp only
  split
  · exact Nat.le_refl _
  · split
    · exact Nat.le_succ _
    · split
      · exact Nat.le_refl _
      · exact Nat.le_succ _

theorem roundHalfEven_le_succ (n d : Nat) : roundHalfEven n d ≤ n / d + 1 := by
  unfold roundHalfEven
  simp only
  split
  · exact Nat.le_succ _
  · split
    · exact Nat.le_refl _
    · split
      · exact Nat.le_succ _
      · exact Nat.le_refl _

/-- Less than halfway to the next number is not rounded up to it. -/
theorem roundHalfEven_le {n d q : Nat} (h : 2 * n < (2 * q + 1) * d) : roundHalfEven n d ≤ q := by
  have hd : 0 < d := Nat.pos_of_mul_pos_left (Nat.zero_lt_of_lt h)
  have hn : d * (n / d) + n % d = n := Nat.div_add_mod n d
  have hdiv : n / d ≤ q := by
    rw [← Nat.lt_succ_iff, Nat.div_lt_iff_lt_mul hd, Nat.succ_mul]
    rw [Nat.add_mul, Nat.mul_assoc] at h
    omega
  rcases Nat.lt_or_eq_of_le hdiv with hlt | heq
  · exact (roundHalfEven_le_succ n d).trans hlt
  · -- the quotient is the bound, and its remainder is less than half
    have hrest : 2 * (n % d) < d := by
      rw [heq] at hn
      rw [Nat.add_mul, Nat.mul_assoc, Nat.mul_comm q] at h
      omega
    rw [roundHalfEven, if_pos hrest, heq]

theorem roundHalfEven_mono {n n' : Nat} (h : n ≤ n') (d : Nat) :
    roundHalfEven n d ≤ roundHalfEven n' d := by
  rcases Nat.lt_or_eq_of_le (Nat.div_le_div_right h : n / d ≤ n' / d) with hlt | heq
  · calc roundHalfEven n d
        ≤ n / d + 1 := roundHalfEven_le_succ n d
      _ ≤ n' / d := hlt
      _ ≤ roundHalfEven n' d := le_roundHalfEven n' d
  · -- over the same quotient the remainders are in order
    have hrest : n % d ≤ n' % d := by
      have hn := Nat.div_add_mod n d
      have hn' := Nat.div_add_mod n' d
      rw [← heq] at hn'
      omega
    unfold roundHalfEven
    simp only [heq]
    split_ifs <;> omega

/-- What is within an integer bound stays within it. -/
theorem roundHalfUp_le {n d m : Nat} (hd : 0 < d) (h : n ≤ d * m) : roundHalfUp n d ≤ m := by
  have hdiv : n / d ≤ m := Nat.div_le_of_le_mul h
  unfold roundHalfUp
  split
  · exact hdiv
  · rename_i hhalf
    rcases Nat.lt_or_eq_of_le hdiv with hlt | heq
    · exact hlt
    · -- at the bound there is no remainder
      have hn := Nat.div_add_mod n d
      rw [heq] at hn
      omega

namespace Magnitude

/-! ### Rounding without a largest magnitude -/

/-- The shift of the magnitude nearest to `n / d` units, before a carry. -/
def roundingShift (n d : Nat) : Nat := Nat.log2 (n / d) - 52

/-- The units that `n / d` is rounded to, if shifts have no end. -/
def rounded (n d : Nat) : Nat :=
  roundHalfEven n (d * 2 ^ roundingShift n d) * 2 ^ roundingShift n d

variable {n n' d : Nat}

theorem div_lt_roundingShift (n d : Nat) : n / d < 2 ^ (53 + roundingShift n d) := by
  refine Nat.lt_log2_self.trans_le (Nat.pow_le_pow_right Nat.two_pos ?_)
  rw [roundingShift]
  omega

theorem lt_roundingShift (hd : 0 < d) (n : Nat) :
    n < 2 ^ 53 * (d * 2 ^ roundingShift n d) := by
  have h := (Nat.div_lt_iff_lt_mul hd).mp (div_lt_roundingShift n d)
  rw [Nat.pow_add] at h
  calc n
      < 2 ^ 53 * 2 ^ roundingShift n d * d := h
    _ = 2 ^ 53 * (d * 2 ^ roundingShift n d) := by ring

/-- The significand found has at most 53 bits, or is the power of two after these. -/
theorem roundHalfEven_le_roundingShift (hd : 0 < d) (n : Nat) :
    roundHalfEven n (d * 2 ^ roundingShift n d) ≤ 2 ^ 53 := by
  have hpos : 0 < d * 2 ^ roundingShift n d := Nat.mul_pos hd (Nat.two_pow_pos _)
  have hdiv := (Nat.div_lt_iff_lt_mul hpos).mpr (lt_roundingShift hd n)
  exact (roundHalfEven_le_succ _ _).trans hdiv

/-- With a shift there are at least 53 bits to be rounded. -/
theorem le_of_roundingShift (hd : 0 < d) (hshift : roundingShift n d ≠ 0) :
    2 ^ 52 * (d * 2 ^ roundingShift n d) ≤ n := by
  have hlog : Nat.log2 (n / d) = 52 + roundingShift n d := by
    rw [roundingShift] at hshift ⊢
    omega
  have hne : n / d ≠ 0 := by
    intro h
    rw [h, Nat.log2_zero] at hlog
    omega
  have hbits : 2 ^ (52 + roundingShift n d) ≤ n / d := by
    rw [← hlog]
    exact Nat.log2_self_le hne
  calc 2 ^ 52 * (d * 2 ^ roundingShift n d)
      = 2 ^ (52 + roundingShift n d) * d := by rw [Nat.pow_add]; ring
    _ ≤ n := (Nat.le_div_iff_mul_le hd).mp hbits

/-- With a shift it has 53 bits. -/
theorem le_roundHalfEven_roundingShift (hd : 0 < d) (hshift : roundingShift n d ≠ 0) :
    2 ^ 52 ≤ roundHalfEven n (d * 2 ^ roundingShift n d) := by
  have hpos : 0 < d * 2 ^ roundingShift n d := Nat.mul_pos hd (Nat.two_pow_pos _)
  exact ((Nat.le_div_iff_mul_le hpos).mpr (le_of_roundingShift hd hshift)).trans
    (le_roundHalfEven _ _)

theorem roundingShift_mono (h : n ≤ n') : roundingShift n d ≤ roundingShift n' d := by
  have hdiv : n / d ≤ n' / d := Nat.div_le_div_right h
  have hlog : Nat.log2 (n / d) ≤ Nat.log2 (n' / d) := by
    rw [Nat.log2_eq_log_two, Nat.log2_eq_log_two]
    exact Nat.log_mono_right hdiv
  rw [roundingShift, roundingShift]
  omega

/-- **Rounding keeps the order.** -/
theorem rounded_mono (hd : 0 < d) (h : n ≤ n') : rounded n d ≤ rounded n' d := by
  rcases Nat.lt_or_eq_of_le (roundingShift_mono (d := d) h) with hlt | heq
  · -- below a greater shift all is at most a power of two
    have hnormal : 2 ^ 52 ≤ roundHalfEven n' (d * 2 ^ roundingShift n' d) :=
      le_roundHalfEven_roundingShift hd (by omega)
    calc rounded n d
        ≤ 2 ^ 53 * 2 ^ roundingShift n d :=
          Nat.mul_le_mul_right _ (roundHalfEven_le_roundingShift hd n)
      _ = 2 ^ 52 * 2 ^ (roundingShift n d + 1) := by ring
      _ ≤ 2 ^ 52 * 2 ^ roundingShift n' d :=
          Nat.mul_le_mul_left _ (Nat.pow_le_pow_right Nat.two_pos hlt)
      _ ≤ rounded n' d := Nat.mul_le_mul_right _ hnormal
  · rw [rounded, rounded, heq]
    exact Nat.mul_le_mul_right _ (roundHalfEven_mono h _)

/-! ### The largest magnitude -/

/-- There are two ways to round: with a carry into the next power of two, and without. -/
theorem nearest?_eq (n d : Nat) :
    (roundHalfEven n (d * 2 ^ roundingShift n d) = 2 ^ 53 ∧ nearest? n d =
      if h : Canonical (2 ^ 52) (roundingShift n d + 1) then some ⟨_, _, h⟩ else none) ∨
    (roundHalfEven n (d * 2 ^ roundingShift n d) ≠ 2 ^ 53 ∧ nearest? n d =
      if h : Canonical (roundHalfEven n (d * 2 ^ roundingShift n d)) (roundingShift n d) then
        some ⟨_, _, h⟩ else none) := by
  unfold nearest?
  simp only [Nat.shiftLeft_eq, ← roundingShift.eq_1]
  by_cases hcarry : roundHalfEven n (d * 2 ^ roundingShift n d) = 2 ^ 53
  · refine .inl ⟨hcarry, ?_⟩
    have hcarry' : roundHalfEven n (d * 2 ^ roundingShift n d) = Nat.pow 2 53 := hcarry
    simp only [if_pos hcarry']
    rfl
  · refine .inr ⟨hcarry, ?_⟩
    have hcarry' : roundHalfEven n (d * 2 ^ roundingShift n d) ≠ Nat.pow 2 53 := hcarry
    simp only [if_neg hcarry']

/-- **The nearest magnitude has the units that the quotient is rounded to.** -/
theorem units_of_nearest? {a : Magnitude} (h : nearest? n d = some a) :
    a.units = rounded n d := by
  rw [units_eq, rounded]
  rcases nearest?_eq n d with ⟨hcarry, heq⟩ | ⟨-, heq⟩
  · rw [heq] at h
    obtain ⟨hcanonical, h⟩ := Option.dite_none_right_eq_some.mp h
    obtain rfl := Option.some.inj h
    rw [hcarry]
    show 2 ^ 52 * 2 ^ (roundingShift n d + 1) = 2 ^ 53 * 2 ^ roundingShift n d
    ring
  · rw [heq] at h
    obtain ⟨hcanonical, h⟩ := Option.dite_none_right_eq_some.mp h
    obtain rfl := Option.some.inj h
    rfl

/-- The greatest shift of a magnitude.  Powers of it are not to be computed. -/
@[irreducible] def maxShift : Nat := 2045

theorem canonical_iff {c s : Nat} :
    Canonical c s ↔ c < 2 ^ 53 ∧ s ≤ maxShift ∧ (s = 0 ∨ 2 ^ 52 ≤ c) := by
  rw [maxShift]
  exact Iff.rfl

/-- There is no nearest magnitude where rounding leads to the power of two after the largest. -/
theorem nearest?_eq_none_iff_rounded (hd : 0 < d) :
    nearest? n d = none ↔ 2 ^ (53 + maxShift) ≤ rounded n d := by
  have hbits := roundHalfEven_le_roundingShift hd n
  have hnormal := or_iff_not_imp_left.mpr (le_roundHalfEven_roundingShift hd (n := n))
  rw [rounded, Nat.pow_add]
  rcases nearest?_eq n d with ⟨hcarry, heq⟩ | ⟨hcarry, heq⟩
  · have hiff : Canonical (2 ^ 52) (roundingShift n d + 1) ↔ roundingShift n d < maxShift := by
      rw [canonical_iff]
      exact ⟨fun h => h.2.1, fun h => ⟨by decide, h, .inr (Nat.le_refl _)⟩⟩
    rw [heq, dite_eq_right_iff, hcarry, Nat.mul_le_mul_left_iff (Nat.two_pow_pos _),
      Nat.pow_le_pow_iff_right Nat.one_lt_two, ← Nat.not_lt, ← hiff]
    exact ⟨fun h hc => Option.some_ne_none _ (h hc), fun h hc => absurd hc h⟩
  · have hlt : roundHalfEven n (d * 2 ^ roundingShift n d) < 2 ^ 53 := by omega
    have hiff : Canonical (roundHalfEven n (d * 2 ^ roundingShift n d)) (roundingShift n d) ↔
        roundingShift n d ≤ maxShift := by
      rw [canonical_iff]
      exact ⟨fun h => h.2.1, fun h => ⟨hlt, h, hnormal⟩⟩
    rw [heq, dite_eq_right_iff]
    constructor
    · intro h
      have hshift : maxShift < roundingShift n d := by
        by_contra hle
        exact Option.some_ne_none _ (h (hiff.mpr (Nat.not_lt.mp hle)))
      calc 2 ^ 53 * 2 ^ maxShift
          = 2 ^ 52 * 2 ^ (maxShift + 1) := by ring
        _ ≤ _ := Nat.mul_le_mul (hnormal.resolve_left (by omega))
            (Nat.pow_le_pow_right Nat.two_pos hshift)
    · intro h hc
      have hshift := Nat.pow_le_pow_right Nat.two_pos (hiff.mp hc)
      refine absurd h (Nat.not_le.mpr ?_)
      exact (Nat.mul_le_mul_left _ hshift).trans_lt'
        (Nat.mul_lt_mul_of_pos_right hlt (Nat.two_pow_pos _))

/-- The least number beyond all magnitudes: halfway from the largest to the next power of two. -/
@[irreducible] def overflow : Nat := (2 ^ 54 - 1) * 2 ^ 970

theorem exists_overflow_eq : ∃ k, k = 970 ∧ overflow = (2 ^ 54 - 1) * 2 ^ k := by
  unfold overflow
  generalize 970 = k
  exact ⟨k, rfl, rfl⟩

theorem overflow_mul_unitsPerOne :
    overflow * unitsPerOne = (2 ^ 54 - 1) * 2 ^ (maxShift - 1) := by
  obtain ⟨m, hm, hunits⟩ := exists_unitsPerOne_eq
  obtain ⟨k, hk, hoverflow⟩ := exists_overflow_eq
  have hshift : maxShift - 1 = k + m := by
    rw [maxShift]
    omega
  rw [hunits, hoverflow, hshift, Nat.mul_assoc, Nat.pow_add]

/-- Half of the last unit is rounded up, as the largest significand is odd. -/
theorem rounded_overflow (hd : 0 < d) (p : Nat) :
    rounded (d * ((2 ^ 54 - 1) * 2 ^ p)) d = 2 ^ (53 + (p + 1)) := by
  have hlog : Nat.log2 ((2 ^ 54 - 1) * 2 ^ p) = 53 + p := by
    rw [Nat.log2_eq_iff (Nat.mul_ne_zero (by decide) (Nat.two_pow_pos p).ne'), Nat.add_right_comm,
      Nat.pow_add, Nat.pow_add]
    exact ⟨Nat.mul_le_mul_right _ (by decide),
      Nat.mul_lt_mul_of_pos_right (by decide) (Nat.two_pow_pos p)⟩
  have hshift : roundingShift (d * ((2 ^ 54 - 1) * 2 ^ p)) d = p + 1 := by
    rw [roundingShift, Nat.mul_div_cancel_left _ hd, hlog]
    omega
  have hpow : d * 2 ^ (p + 1) = 2 * (2 ^ p * d) := by ring
  have hunits : d * ((2 ^ 54 - 1) * 2 ^ p) = (2 ^ 54 - 1) * (2 ^ p * d) := by ring
  have hhalf : roundHalfEven (2 ^ 54 - 1) 2 = 2 ^ 53 := by decide
  rw [rounded, hshift, hpow, hunits, roundHalfEven_mul (Nat.mul_pos (Nat.two_pow_pos p) hd),
    hhalf, ← Nat.pow_add]

theorem rounded_lt_of_lt (hd : 0 < d) {p : Nat} (h : n < d * ((2 ^ 54 - 1) * 2 ^ p)) :
    rounded n d < 2 ^ (53 + (p + 1)) := by
  have hdiv : n / d < 2 ^ (54 + p) := by
    rw [Nat.div_lt_iff_lt_mul hd, Nat.pow_add, Nat.mul_comm]
    exact h.trans_le (Nat.mul_le_mul_left _ (Nat.mul_le_mul_right _ (by decide)))
  have hshift : roundingShift n d ≤ p + 1 := by
    rcases Nat.eq_zero_or_pos (n / d) with hzero | hpos
    · rw [roundingShift, hzero, Nat.log2_zero]
      exact Nat.zero_le _
    · have hlog : Nat.log2 (n / d) < 54 + p := (Nat.log2_lt hpos.ne').mpr hdiv
      rw [roundingShift]
      omega
  rw [Nat.pow_add, rounded]
  rcases Nat.lt_or_eq_of_le hshift with hlt | heq
  · calc roundHalfEven n (d * 2 ^ roundingShift n d) * 2 ^ roundingShift n d
        ≤ 2 ^ 53 * 2 ^ roundingShift n d :=
          Nat.mul_le_mul_right _ (roundHalfEven_le_roundingShift hd n)
      _ < 2 ^ 53 * 2 ^ (p + 1) :=
          Nat.mul_lt_mul_of_pos_left (Nat.pow_lt_pow_right Nat.one_lt_two hlt) (by decide)
  · -- under the greatest shift it matters that the last half is not reached
    have hround : roundHalfEven n (d * 2 ^ roundingShift n d) ≤ 2 ^ 53 - 1 := by
      refine roundHalfEven_le ?_
      rw [heq]
      calc 2 * n
          < 2 * (d * ((2 ^ 54 - 1) * 2 ^ p)) := Nat.mul_lt_mul_of_pos_left h Nat.two_pos
        _ = (2 * (2 ^ 53 - 1) + 1) * (d * 2 ^ (p + 1)) := by ring
    rw [heq] at hround ⊢
    exact Nat.mul_lt_mul_of_pos_right (Nat.lt_of_le_pred (by decide) hround) (Nat.two_pow_pos _)

/-- **A quotient has a nearest magnitude exactly below the point of overflow.** -/
theorem nearest?_eq_none_iff (hd : 0 < d) :
    nearest? n d = none ↔ d * (overflow * unitsPerOne) ≤ n := by
  have hshift : maxShift = maxShift - 1 + 1 := by rw [maxShift]
  rw [nearest?_eq_none_iff_rounded hd, overflow_mul_unitsPerOne, hshift]
  generalize maxShift - 1 = p
  rw [Nat.add_sub_cancel]
  constructor
  · intro h
    by_contra hlt
    exact absurd h (Nat.not_le.mpr (rounded_lt_of_lt hd (Nat.not_le.mp hlt)))
  · intro h
    rw [← rounded_overflow hd]
    exact rounded_mono hd h

end Magnitude

end CampusQuery
