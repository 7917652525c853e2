/-
CampusQuery/Proofs/Decimal/Reading.lean

What reading a decimal depends on.

A decimal is read as the magnitude nearest to it, and that depends on nothing but its
value: neither on how the quotient is written (`nearest?_mul`) nor on zeros that are
moved between digits and exponent (`ofScientific?_mul_pow`).  Powers that are decided
without being computed are decided as the rounding would (`ofScientific?_eq`).

A magnitude is read from its own units (`nearest?_units`), so from its expansion, so from
its shortest digits (`ofScientific?_shortest`).
-/
import CampusQuery.Decimal.Shortest
import CampusQuery.Proofs.Dataset.Scalar

namespace CampusQuery

/-! ### Quotients -/

theorem roundHalfEven_mul {m : Nat} (hm : 0 < m) (n d : Nat) :
    roundHalfEven (n * m) (d * m) = roundHalfEven n d := by
  have hq : n * m / (d * m) = n / d := Nat.mul_div_mul_right n d hm
  have hr : n * m % (d * m) = n % d * m := Nat.mul_mod_mul_right m n d
  rw [roundHalfEven, roundHalfEven, hq, hr]
  have hlt : 2 * (n % d * m) < d * m ↔ 2 * (n % d) < d := by
    rw [← Nat.mul_assoc]
    exact Nat.mul_lt_mul_right hm
  have hgt : d * m < 2 * (n % d * m) ↔ d < 2 * (n % d) := by
    rw [← Nat.mul_assoc]
    exact Nat.mul_lt_mul_right hm
  simp only [hlt, hgt]

theorem roundHalfEven_one (n : Nat) : roundHalfEven n 1 = n := by
  simp [roundHalfEven, Nat.mod_one]

/-- A multiple is rounded to its factor. -/
theorem roundHalfEven_mul_self {d : Nat} (hd : 0 < d) (n : Nat) : roundHalfEven (n * d) d = n := by
  have h := roundHalfEven_mul hd n 1
  rwa [Nat.one_mul, roundHalfEven_one] at h

theorem roundHalfEven_eq_zero {n d : Nat} (h : 2 * n < d) : roundHalfEven n d = 0 := by
  have hlt : n < d := by omega
  rw [roundHalfEven, Nat.div_eq_of_lt hlt, Nat.mod_eq_of_lt hlt]
  exact if_pos h

namespace Magnitude

/-- Only the value of the quotient counts. -/
theorem nearest?_mul {m : Nat} (hm : 0 < m) (n d : Nat) :
    nearest? (n * m) (d * m) = nearest? n d := by
  have hq : n * m / (d * m) = n / d := Nat.mul_div_mul_right n d hm
  have hshift (k : Nat) : (d * m) <<< k = (d <<< k) * m := by
    rw [Nat.shiftLeft_eq, Nat.shiftLeft_eq, Nat.mul_right_comm]
  simp only [nearest?, hq, hshift, roundHalfEven_mul hm]

theorem nearest?_eq_zero {n d : Nat} (h : 2 * n < d) : nearest? n d = some 0 := by
  have hdiv : n / d = 0 := Nat.div_eq_of_lt (by omega)
  have hround : roundHalfEven n (d <<< 0) = 0 := roundHalfEven_eq_zero h
  simp only [nearest?, hdiv, Nat.log2_zero, Nat.zero_sub, hround]
  rfl

/-- What is too large is no magnitude. -/
theorem nearest?_eq_none {n k : Nat} (hk : 2100 ≤ k) (h : 2 ^ k ≤ n) : nearest? n 1 = none := by
  have hne : n ≠ 0 := by
    rintro rfl
    exact absurd h (Nat.not_le.mpr (Nat.two_pow_pos _))
  have hlog : k ≤ Nat.log2 n := (Nat.le_log2 hne).mpr h
  unfold nearest?
  simp only [Nat.div_one]
  rw [dif_neg]
  intro hcanonical
  have hshift := hcanonical.2.1
  split at hshift <;> omega

/-- The shift of a magnitude is found from its units. -/
theorem log2_units (a : Magnitude) : Nat.log2 a.units - 52 = a.shift := by
  have hbound : a.significand < 2 ^ 53 := a.canonical.1
  rw [units_eq]
  rcases Nat.eq_zero_or_pos a.shift with hzero | hpos
  · -- without a shift the significand may have fewer digits
    rw [hzero, Nat.pow_zero, Nat.mul_one]
    by_cases hne : a.significand = 0
    · rw [hne]
      rfl
    · have hlog : Nat.log2 a.significand < 53 := (Nat.log2_lt hne).mpr hbound
      omega
  · have hnormal : 2 ^ 52 ≤ a.significand := a.canonical.2.2.resolve_left (by omega)
    have hne : a.significand * 2 ^ a.shift ≠ 0 :=
      Nat.mul_ne_zero (by omega) (Nat.two_pow_pos _).ne'
    have hlog : Nat.log2 (a.significand * 2 ^ a.shift) = 52 + a.shift := by
      rw [Nat.log2_eq_iff hne, Nat.pow_add, Nat.add_right_comm, Nat.pow_add]
      exact ⟨Nat.mul_le_mul_right _ hnormal, Nat.mul_lt_mul_of_pos_right hbound (Nat.two_pow_pos _)⟩
    omega

/-- **A magnitude is nearest to itself.** -/
theorem nearest?_units (a : Magnitude) : nearest? a.units 1 = some a := by
  have hround : roundHalfEven a.units (1 <<< a.shift) = a.significand := by
    rw [units_eq, Nat.shiftLeft_eq, Nat.one_mul]
    exact roundHalfEven_mul_self (Nat.two_pow_pos _) _
  have hcarried : a.significand ≠ Nat.pow 2 53 := Nat.ne_of_lt a.canonical.1
  simp only [nearest?, Nat.div_one, log2_units, hround, if_neg hcarried, dif_pos a.canonical]

/-! ### Digits and exponent -/

/-- The magnitude nearest to `c * 10 ^ e`, always computed. -/
def nearestScientific? (c : Nat) : Int → Option Magnitude
  | .ofNat k => nearest? (c * 10 ^ k * unitsPerOne) 1
  | .negSucc k => nearest? (c * unitsPerOne) (10 ^ (k + 1))

theorem nearestScientific?_natCast (c k : Nat) :
    nearestScientific? c (k : Int) = nearest? (c * 10 ^ k * unitsPerOne) 1 := rfl

theorem nearestScientific?_negSucc (c k : Nat) :
    nearestScientific? c (Int.negSucc k) = nearest? (c * unitsPerOne) (10 ^ (k + 1)) := rfl

/-- Powers of two lie below the powers of ten with a third of the exponent. -/
theorem two_pow_le_ten_pow {m k : Nat} (h : m ≤ 3 * k) : 2 ^ m ≤ 10 ^ k :=
  calc 2 ^ m
      ≤ 2 ^ (3 * k) := Nat.pow_le_pow_right Nat.two_pos h
    _ = 8 ^ k := Nat.pow_mul 2 3 k
    _ ≤ 10 ^ k := Nat.pow_le_pow_left (by omega) k

/-- The units of one are a power of two; its exponent is kept apart, as the power is not
to be computed. -/
theorem exists_unitsPerOne_eq : ∃ m, m = 1074 ∧ unitsPerOne = 2 ^ m := by
  have hpow (b k : Nat) : ∃ m, m = k ∧ Nat.pow b k = b ^ m := ⟨k, rfl, rfl⟩
  unfold unitsPerOne
  generalize 1074 = k
  exact hpow 2 k

/-- **What is decided without being computed is decided right.** -/
theorem ofScientific?_eq {c : Nat} (hc : c ≠ 0) (e : Int) :
    ofScientific? c e = nearestScientific? c e := by
  obtain ⟨m, hm, hunits⟩ := exists_unitsPerOne_eq
  unfold ofScientific?
  rw [if_neg hc]
  by_cases hlarge : 400 < e
  · -- the number is beyond all magnitudes
    rw [if_pos hlarge]
    obtain ⟨k, rfl⟩ := Int.eq_ofNat_of_zero_le (by omega : 0 ≤ e)
    have hbig : 2 ^ (3 * k + m) ≤ c * 10 ^ k * unitsPerOne := by
      rw [hunits, Nat.pow_add]
      refine Nat.mul_le_mul_right _ ?_
      calc 2 ^ (3 * k)
          ≤ 10 ^ k := two_pow_le_ten_pow (Nat.le_refl _)
        _ ≤ c * 10 ^ k := Nat.le_mul_of_pos_left _ (Nat.pos_of_ne_zero hc)
    exact (nearest?_eq_none (by omega) hbig).symm
  · rw [if_neg hlarge]
    by_cases hsmall : e + (Nat.log2 c + 1 : Nat) < -400
    · -- the number is less than half a unit
      rw [if_pos hsmall]
      obtain ⟨k, rfl⟩ : ∃ k, e = Int.negSucc k := ⟨(-e - 1).toNat, by omega⟩
      obtain ⟨j, hj, hk⟩ : ∃ j, 400 ≤ j ∧ k + 1 = Nat.log2 c + 1 + j :=
        ⟨k - Nat.log2 c, by omega, by omega⟩
      have hone : 2 * unitsPerOne ≤ 10 ^ j := by
        rw [hunits, ← Nat.pow_succ']
        exact two_pow_le_ten_pow (by omega)
      have hdigits : c < 10 ^ (Nat.log2 c + 1) :=
        Nat.lt_log2_self.trans_le (two_pow_le_ten_pow (by omega))
      refine (nearest?_eq_zero ?_).symm
      calc 2 * (c * unitsPerOne)
          = c * (2 * unitsPerOne) := Nat.mul_left_comm _ _ _
        _ ≤ c * 10 ^ j := Nat.mul_le_mul_left _ hone
        _ < 10 ^ (Nat.log2 c + 1) * 10 ^ j :=
          Nat.mul_lt_mul_of_pos_right hdigits (Nat.pow_pos (by omega))
        _ = 10 ^ (k + 1) := by rw [hk, Nat.pow_add 10 (Nat.log2 c + 1)]
    · rw [if_neg hsmall]
      cases e <;> rfl

theorem nearestScientific?_mul_pow (c k : Nat) (e : Int) :
    nearestScientific? (c * 10 ^ k) e = nearestScientific? c (e + k) := by
  have hten (j : Nat) : 0 < 10 ^ j := Nat.pow_pos (by omega)
  rcases e with j | j
  · have hsum : Int.ofNat j + (k : Int) = ((k + j : Nat) : Int) := by
      rw [Nat.add_comm]
      rfl
    rw [hsum, nearestScientific?_natCast, Nat.pow_add, ← Nat.mul_assoc]
    rfl
  · rcases Nat.lt_or_ge j k with hlt | hge
    · -- the power of ten that is left over stands above
      obtain ⟨i, rfl⟩ := Nat.exists_eq_add_of_lt hlt
      have hsum : Int.negSucc j + ((j + i + 1 : Nat) : Int) = (i : Int) := by omega
      rw [hsum, nearestScientific?_natCast, nearestScientific?_negSucc]
      generalize unitsPerOne = units
      have hdigits : c * 10 ^ (j + i + 1) * units = c * 10 ^ i * units * 10 ^ (j + 1) := by ring
      rw [← nearest?_mul (hten (j + 1)) (c * 10 ^ i * units) 1, Nat.one_mul, hdigits]
    · -- or below
      obtain ⟨i, rfl⟩ := Nat.exists_eq_add_of_le hge
      have hsum : Int.negSucc (k + i) + (k : Int) = Int.negSucc i := by omega
      rw [hsum, nearestScientific?_negSucc, nearestScientific?_negSucc]
      generalize unitsPerOne = units
      have hdigits : c * 10 ^ k * units = c * units * 10 ^ k := by ring
      have hpower : 10 ^ (k + i + 1) = 10 ^ (i + 1) * 10 ^ k := by ring
      rw [← nearest?_mul (hten k) (c * units) (10 ^ (i + 1)), hdigits, hpower]

/-- **Zeros may move between the digits and the exponent.** -/
theorem ofScientific?_mul_pow (c k : Nat) (e : Int) :
    ofScientific? (c * 10 ^ k) e = ofScientific? c (e + k) := by
  by_cases hc : c = 0
  · rw [hc, Nat.zero_mul]
    rfl
  · have hne : c * 10 ^ k ≠ 0 := Nat.mul_ne_zero hc (Nat.pow_pos (by omega)).ne'
    rw [ofScientific?_eq hc, ofScientific?_eq hne, nearestScientific?_mul_pow]

/-! ### Shortest digits -/

theorem significand_ne_zero {a : Magnitude} (h : a ≠ 0) : a.significand ≠ 0 := by
  intro hzero
  have hshift : a.shift = 0 := by
    rcases a.canonical.2.2 with hshift | hnormal
    · exact hshift
    · rw [hzero] at hnormal
      exact absurd hnormal (by decide)
  exact h (ext hzero hshift)

theorem ofScientific?_expansion {a : Magnitude} (ha : a.significand ≠ 0) :
    ofScientific? a.expansion.1 a.expansion.2 = some a := by
  obtain ⟨m, hm, hunits⟩ := exists_unitsPerOne_eq
  rw [← nearest?_units a, units_eq, expansion, ← hm]
  by_cases hshift : m ≤ a.shift
  · obtain ⟨i, hi⟩ := Nat.exists_eq_add_of_le hshift
    have hne : a.significand * 2 ^ i ≠ 0 := Nat.mul_ne_zero ha (Nat.two_pow_pos _).ne'
    have hread : nearestScientific? (a.significand * 2 ^ i) ((0 : Nat) : Int) =
        nearest? (a.significand * 2 ^ (m + i)) 1 := by
      rw [nearestScientific?_natCast, Nat.pow_zero, Nat.mul_one, hunits, Nat.mul_assoc,
        ← Nat.pow_add, Nat.add_comm i]
    rw [if_pos hshift, hi, Nat.add_sub_cancel_left, Nat.shiftLeft_eq, ← hread]
    exact ofScientific?_eq hne _
  · obtain ⟨i, hi⟩ := Nat.exists_eq_add_of_lt (Nat.not_le.mp hshift)
    have hne : a.significand * 5 ^ (i + 1) ≠ 0 :=
      Nat.mul_ne_zero ha (Nat.pow_pos (by omega)).ne'
    have hsub : m - a.shift = i + 1 := by omega
    have hexp : (a.shift : Int) - 1074 = Int.negSucc i := by omega
    -- the fives make up the power of ten with the twos of the unit
    have hread : nearestScientific? (a.significand * 5 ^ (i + 1)) (Int.negSucc i) =
        nearest? (a.significand * 2 ^ a.shift) 1 := by
      have hten : 5 ^ (i + 1) * 2 ^ (i + 1) = 10 ^ (i + 1) := (Nat.mul_pow 5 2 (i + 1)).symm
      have hsplit : unitsPerOne = 2 ^ a.shift * 2 ^ (i + 1) := by
        rw [hunits, ← Nat.pow_add, hi, Nat.add_assoc]
      have hdigits : a.significand * 5 ^ (i + 1) * (2 ^ a.shift * 2 ^ (i + 1)) =
          a.significand * 2 ^ a.shift * (5 ^ (i + 1) * 2 ^ (i + 1)) := by ring
      rw [nearestScientific?_negSucc, hsplit, hdigits, hten,
        ← nearest?_mul (Nat.pow_pos (by omega) : 0 < 10 ^ (i + 1)) _ 1, Nat.one_mul]
    rw [if_neg hshift, hsub, hexp, ← hread]
    exact ofScientific?_eq hne _

/-- Reading is the same after zeros were moved into the exponent. -/
theorem ofScientific?_strip (fuel c : Nat) (e : Int) :
    ofScientific? (Digits.strip fuel c e).digits (Digits.strip fuel c e).exponent =
      ofScientific? c e := by
  induction fuel generalizing c e with
  | zero => rfl
  | succ fuel ih =>
    rw [Digits.strip]
    split
    · rename_i h
      rw [ih]
      have hc : c / 10 * 10 ^ 1 = c := by omega
      have hmove := ofScientific?_mul_pow (c / 10) 1 e
      rw [hc] at hmove
      exact hmove.symm
    · rfl

/-- **The shortest digits read back.** -/
theorem ofScientific?_shortest (a : Magnitude) :
    ofScientific? a.shortest.digits a.shortest.exponent = some a := by
  unfold shortest
  split
  · rename_i hzero
    have ha : a = 0 := by
      by_contra hne
      exact significand_ne_zero hne hzero
    rw [ha]
    rfl
  · rename_i hne
    simp only [Digits.ofScientific, ofScientific?_strip]
    -- a candidate was tried, and the expansion needs no trial
    rcases hfind : a.candidates.find? a.isReadFrom with - | c
    · exact ofScientific?_expansion hne
    · have hread : a.isReadFrom c = true := List.find?_some hfind
      simpa [isReadFrom] using hread

end Magnitude

end CampusQuery
