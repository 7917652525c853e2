/-
CampusQuery/Proofs/Decimal/Range.lean

Which results of decimal arithmetic are within the range of binary numbers.

Bounds are whole numbers here (`Decimal.Within`), since rounding keeps these: a sum of `n` decimals
within a bound is within `n` times the bound (`within_sum`), and its quotient by `n` is within the
bound again (`within_quotient`).  The shortest digits of a binary number may denote more than the
number, but they stay a whole unit below the point of overflow (`Binary64.within_toDecimal`).  So a
mean of finite numbers is finite (`Aggregate.isFinite_meanOf`), and their sum is, unless it reaches
that point (`Decimal.isFinite_toBinary64`).
-/
import CampusQuery.Answer.Aggregate
import CampusQuery.Proofs.Decimal.Rounding
import Mathlib.Data.List.Basic

namespace CampusQuery

/-! ### Decimals within a bound -/

namespace Decimal

/-- The absolute value is at most `m`. -/
def Within (m : Nat) (a : Decimal) : Prop := a.coefficient.natAbs ≤ m * 10 ^ a.scale

/-- The absolute value is beyond all binary numbers. -/
def Overflows (a : Decimal) : Prop := Magnitude.overflow * 10 ^ a.scale ≤ a.coefficient.natAbs

variable {m k : Nat} {a b : Decimal}

theorem within_zero : Within m 0 := Nat.zero_le _

theorem natAbs_coefficientAt_le (h : a.Within m) {scale : Nat} (hscale : a.scale ≤ scale) :
    (a.coefficientAt scale).natAbs ≤ m * 10 ^ scale := by
  have hsplit : 10 ^ scale = 10 ^ a.scale * 10 ^ (scale - a.scale) := by
    rw [← Nat.pow_add, Nat.add_sub_cancel' hscale]
  rw [coefficientAt, Int.natAbs_mul, Int.natAbs_natCast, hsplit, ← Nat.mul_assoc]
  exact Nat.mul_le_mul_right _ h

theorem within_add (ha : a.Within m) (hb : b.Within k) : (a + b).Within (m + k) := by
  show (a.coefficientAt _ + b.coefficientAt _).natAbs ≤ (m + k) * 10 ^ max a.scale b.scale
  rw [Nat.add_mul]
  exact (Int.natAbs_add_le _ _).trans (Nat.add_le_add
    (natAbs_coefficientAt_le ha (Nat.le_max_left _ _))
    (natAbs_coefficientAt_le hb (Nat.le_max_right _ _)))

theorem within_foldl {l : List Decimal} (hl : ∀ x ∈ l, x.Within m) (ha : a.Within k) :
    (l.foldl (· + ·) a).Within (k + l.length * m) := by
  induction l generalizing a k with
  | nil => simpa using ha
  | cons x l ih =>
    obtain ⟨hx, hl⟩ := List.forall_mem_cons.mp hl
    have hlength : k + (x :: l).length * m = k + m + l.length * m := by
      rw [List.length_cons]
      ring
    rw [List.foldl_cons, hlength]
    exact ih hl (within_add ha hx)

/-- A sum is within as many times the bound as it has summands. -/
theorem within_sum {l : List Decimal} (hl : ∀ x ∈ l, x.Within m) :
    (sum l).Within (l.length * m) := by
  have h := within_foldl hl (within_zero (m := 0))
  rwa [Nat.zero_add] at h

theorem natAbs_signed (negative : Prop) [Decidable negative] (c : Nat) :
    (if negative then -(c : Int) else c).natAbs = c := by
  split
  · rw [Int.natAbs_neg, Int.natAbs_natCast]
  · exact Int.natAbs_natCast c

/-- A quotient by a count is within the bound that its dividend is within so many times. -/
theorem within_quotient {count : Nat} (hcount : 0 < count) (h : a.Within (count * m)) :
    (a.quotient count).Within m := by
  unfold quotient quotientMagnitude Within
  simp only [natAbs_signed]
  split
  · exact Nat.zero_le _
  · refine roundHalfUp_le hcount ?_
    show a.coefficient.natAbs * 10 ^ _ * 10 ^ _ ≤ _
    calc a.coefficient.natAbs * 10 ^ _ * 10 ^ _
        ≤ count * m * 10 ^ a.scale * 10 ^ _ * 10 ^ _ :=
          Nat.mul_le_mul_right _ (Nat.mul_le_mul_right _ h)
      _ = count * (m * 10 ^ (a.scale + _ + _)) := by
          rw [Nat.pow_add, Nat.pow_add]
          ring

theorem within_round (h : a.Within m) (places : Nat) : (a.round places).Within m := by
  unfold round
  split
  · exact natAbs_coefficientAt_le h ‹_›
  · rename_i hscale
    have hsplit : 10 ^ a.scale = 10 ^ (a.scale - places) * 10 ^ places := by
      rw [← Nat.pow_add, Nat.sub_add_cancel (Nat.le_of_not_le hscale)]
    show Int.natAbs (if a.coefficient < 0 then -_ else _) ≤ m * 10 ^ places
    rw [natAbs_signed]
    refine roundHalfUp_le (Nat.pow_pos (by decide)) (h.trans_eq ?_)
    rw [hsplit]
    show m * _ = 10 ^ (a.scale - places) * _
    ring

end Decimal

/-! ### Reading decimals -/

namespace Magnitude

theorem unitsPerOne_pos : 0 < unitsPerOne := by
  obtain ⟨m, -, hunits⟩ := exists_unitsPerOne_eq
  rw [hunits]
  exact Nat.two_pow_pos m

theorem overflow_pos : 0 < overflow := by
  obtain ⟨k, -, hoverflow⟩ := exists_overflow_eq
  rw [hoverflow]
  exact Nat.mul_pos (by decide) (Nat.two_pow_pos k)

theorem nearestScientific?_neg (c scale : Nat) :
    nearestScientific? c (-(scale : Int)) = nearest? (c * unitsPerOne) (10 ^ scale) := by
  cases scale with
  | zero =>
    show nearest? (c * 10 ^ 0 * unitsPerOne) 1 = _
    rw [Nat.pow_zero, Nat.mul_one]
  | succ k => rfl

/-- Digits over a power of ten cannot be read exactly if they overflow. -/
theorem ofScientific?_eq_none_iff (c scale : Nat) :
    ofScientific? c (-(scale : Int)) = none ↔ overflow * 10 ^ scale ≤ c := by
  by_cases hc : c = 0
  · have hread : ofScientific? 0 (-(scale : Int)) = some 0 := rfl
    have hpos : 0 < overflow * 10 ^ scale := Nat.mul_pos overflow_pos (Nat.pow_pos (by decide))
    rw [hc, hread]
    exact ⟨nofun, fun h => absurd h (Nat.not_le.mpr hpos)⟩
  · rw [ofScientific?_eq hc, nearestScientific?_neg,
      nearest?_eq_none_iff (Nat.pow_pos (by decide)), ← Nat.mul_assoc, Nat.mul_comm (10 ^ scale),
      Nat.mul_le_mul_right_iff unitsPerOne_pos]

end Magnitude

/-- **A decimal is read as a finite number unless it overflows.** -/
theorem Decimal.isFinite_toBinary64 {a : Decimal} :
    a.toBinary64.isFinite = true ↔ ¬ a.Overflows := by
  rw [Overflows, ← Magnitude.ofScientific?_eq_none_iff, toBinary64, Binary64.ofScientific]
  rcases Magnitude.ofScientific? a.coefficient.natAbs (-(a.scale : Int)) with - | size
  · exact ⟨nofun, fun h => absurd rfl h⟩
  · exact ⟨fun _ => nofun, fun _ => rfl⟩

theorem Decimal.not_overflows {a : Decimal} (h : a.Within (Magnitude.overflow - 1)) :
    ¬ a.Overflows := by
  have hlt : Magnitude.overflow - 1 < Magnitude.overflow :=
    Nat.sub_lt Magnitude.overflow_pos Nat.one_pos
  exact Nat.not_le.mpr (h.trans_lt (Nat.mul_lt_mul_of_pos_right hlt (Nat.pow_pos (by decide))))

/-! ### Integers -/

theorem Magnitude.nearest?_mul_unitsPerOne_eq_none_iff (n : Nat) :
    nearest? (n * unitsPerOne) 1 = none ↔ overflow ≤ n := by
  rw [nearest?_eq_none_iff Nat.one_pos, Nat.one_mul, Nat.mul_le_mul_right_iff unitsPerOne_pos]

theorem Magnitude.two_pow_lt_overflow : 2 ^ 64 < overflow := by
  obtain ⟨k, hk, hoverflow⟩ := exists_overflow_eq
  calc 2 ^ 64
      < (2 ^ 54 - 1) * 2 ^ 11 := by decide
    _ ≤ (2 ^ 54 - 1) * 2 ^ k :=
      Nat.mul_le_mul_left _ (Nat.pow_le_pow_right Nat.two_pos (by omega))
    _ = overflow := hoverflow.symm

/-- Integers of 64 bits are in the range of the format. -/
theorem Magnitude.exists_nearest?_eq {n : Nat} (h : n ≤ 2 ^ 64) :
    ∃ size, nearest? (n * unitsPerOne) 1 = some size := by
  rw [← Option.ne_none_iff_exists', ne_eq, nearest?_mul_unitsPerOne_eq_none_iff, Nat.not_le]
  exact h.trans_lt two_pow_lt_overflow

theorem Binary64.isFinite_nearest (negative : Bool) (n d : Nat) :
    (nearest negative n d).isFinite = true ↔ Magnitude.nearest? n d ≠ none := by
  unfold nearest
  generalize Magnitude.nearest? n d = found
  cases found with
  | none => exact ⟨nofun, fun h => absurd rfl h⟩
  | some size => exact ⟨fun _ => nofun, fun _ => rfl⟩

/-- Integers have a finite nearest number below the point of overflow. -/
theorem Binary64.isFinite_ofInt {i : Int} :
    (ofInt i).isFinite = true ↔ i.natAbs < Magnitude.overflow := by
  rw [ofInt, isFinite_nearest, ← Nat.not_le, ← Magnitude.nearest?_mul_unitsPerOne_eq_none_iff]

theorem Binary64.isFinite_ofInt_of_le {i : Int} (h : i.natAbs ≤ 2 ^ 64) :
    (ofInt i).isFinite = true := isFinite_ofInt.mpr (h.trans_lt Magnitude.two_pow_lt_overflow)

/-! ### Shortest digits -/

namespace Magnitude

variable {a : Magnitude} {c : Nat} {e : Int}

/-- The largest magnitude lies half of its last unit below the point of overflow. -/
theorem units_le_largest (a : Magnitude) : a.units ≤ (2 ^ 54 - 2) * 2 ^ (maxShift - 1) := by
  obtain ⟨hsignificand, hshift, -⟩ := canonical_iff.mp a.canonical
  have hmax : maxShift = maxShift - 1 + 1 := by rw [maxShift]
  calc a.units
      = a.significand * 2 ^ a.shift := units_eq a
    _ ≤ (2 ^ 53 - 1) * 2 ^ maxShift :=
      Nat.mul_le_mul (Nat.le_pred_of_lt hsignificand) (Nat.pow_le_pow_right Nat.two_pos hshift)
    _ = (2 ^ 54 - 2) * 2 ^ (maxShift - 1) := by rw [hmax, Nat.add_sub_cancel, Nat.pow_succ]; ring

/-- A whole unit below the point of overflow there is room for the largest magnitude and one
more. -/
theorem units_add_le (a : Magnitude) : a.units + unitsPerOne ≤ (overflow - 1) * unitsPerOne := by
  obtain ⟨m, hm, hunits⟩ := exists_unitsPerOne_eq
  have hroom : 2 ^ (m + 1) ≤ 2 ^ (maxShift - 1) := by
    refine Nat.pow_le_pow_right Nat.two_pos ?_
    rw [maxShift]
    omega
  have hlargest := units_le_largest a
  rw [Nat.sub_mul, overflow_mul_unitsPerOne, Nat.one_mul, hunits]
  rw [Nat.pow_succ] at hroom
  generalize 2 ^ (maxShift - 1) = p at hlargest hroom ⊢
  omega

/-- What is read as a magnitude is within the bound if it is whole. -/
theorem within_of_whole {k : Nat} (h : ofScientific? c (k : Int) = some a) :
    c * 10 ^ k ≤ overflow - 1 := by
  have hmove := ofScientific?_mul_pow c k 0
  rw [Int.zero_add, h] at hmove
  have hlt : ¬ overflow * 10 ^ 0 ≤ c * 10 ^ k := by
    rw [← ofScientific?_eq_none_iff]
    intro hnone
    exact Option.some_ne_none a (hmove.symm.trans hnone)
  rw [Nat.pow_zero, Nat.mul_one] at hlt
  exact Nat.le_pred_of_lt (Nat.not_le.mp hlt)

/-- With places it is, if it lies less than one unit of its last place beyond the magnitude. -/
theorem within_of_places {k : Nat}
    (h : c * unitsPerOne ≤ a.units * 10 ^ (k + 1) + unitsPerOne) :
    c ≤ (overflow - 1) * 10 ^ (k + 1) := by
  refine Nat.le_of_mul_le_mul_right ?_ unitsPerOne_pos
  calc c * unitsPerOne
      ≤ a.units * 10 ^ (k + 1) + unitsPerOne := h
    _ ≤ a.units * 10 ^ (k + 1) + unitsPerOne * 10 ^ (k + 1) :=
      Nat.add_le_add_left (Nat.le_mul_of_pos_right _ (Nat.pow_pos (by decide))) _
    _ = (a.units + unitsPerOne) * 10 ^ (k + 1) := (Nat.add_mul _ _ _).symm
    _ ≤ (overflow - 1) * unitsPerOne * 10 ^ (k + 1) := Nat.mul_le_mul_right _ (units_add_le a)
    _ = (overflow - 1) * 10 ^ (k + 1) * unitsPerOne := Nat.mul_right_comm _ _ _

theorem within_natCast {k : Nat} :
    (Digits.mk c (k : Int)).toDecimal.Within (overflow - 1) ↔ c * 10 ^ k ≤ overflow - 1 := by
  show Int.natAbs (c * (10 ^ k : Nat)) ≤ (overflow - 1) * 10 ^ 0 ↔ _
  rw [Int.natAbs_mul, Int.natAbs_natCast, Int.natAbs_natCast, Nat.pow_zero, Nat.mul_one]

theorem within_negSucc {k : Nat} : (Digits.mk c (Int.negSucc k)).toDecimal.Within (overflow - 1) ↔
    c ≤ (overflow - 1) * 10 ^ (k + 1) := by
  show Int.natAbs (c : Int) ≤ (overflow - 1) * 10 ^ (k + 1) ↔ _
  rw [Int.natAbs_natCast]

theorem ratioOver_negSucc (a : Magnitude) (k : Nat) :
    a.ratioOver (Int.negSucc k) = (a.units * 10 ^ (k + 1), unitsPerOne) := rfl

theorem of_mem_neighbours {p : Nat × Int} (h : p ∈ a.neighbours e) :
    p.2 = e ∧ p.1 ≤ (a.ratioOver e).1 / (a.ratioOver e).2 + 1 := by
  unfold neighbours at h
  generalize a.ratioOver e = r at h ⊢
  obtain ⟨n, d⟩ := r
  rcases List.mem_pair.mp h with rfl | rfl
  · exact ⟨rfl, roundHalfEven_le_succ n d⟩
  · refine ⟨rfl, ?_⟩
    show (if roundHalfEven n d = n / d then n / d + 1 else n / d) ≤ n / d + 1
    split
    · exact Nat.le_refl _
    · exact Nat.le_succ _

/-- A candidate that reads back is within the bound. -/
theorem within_of_mem_candidates {p : Nat × Int} (h : p ∈ a.candidates)
    (hread : a.isReadFrom p = true) : (Digits.mk p.1 p.2).toDecimal.Within (overflow - 1) := by
  obtain ⟨c, e⟩ := p
  obtain ⟨k, -, hmem⟩ := List.mem_flatMap.mp h
  obtain ⟨he, hle⟩ := of_mem_neighbours hmem
  rw [← he] at hle
  have hread' : ofScientific? c e = some a := by simpa [isReadFrom] using hread
  rcases e with k | k
  · exact within_natCast.mpr (within_of_whole hread')
  · -- below the point, a neighbour on the grid is less than one beyond the magnitude
    refine within_negSucc.mpr (within_of_places (a := a) ?_)
    simp only [ratioOver_negSucc] at hle
    generalize unitsPerOne = units at hle ⊢
    calc c * units
        ≤ (a.units * 10 ^ (k + 1) / units + 1) * units := Nat.mul_le_mul_right _ hle
      _ ≤ a.units * 10 ^ (k + 1) + units := by
        rw [Nat.succ_mul]
        exact Nat.add_le_add_right (Nat.div_mul_le_self _ _) _

theorem within_expansion (ha : a.significand ≠ 0) :
    (Digits.mk a.expansion.1 a.expansion.2).toDecimal.Within (overflow - 1) := by
  have hread := ofScientific?_expansion ha
  obtain ⟨m, hm, hunits⟩ := exists_unitsPerOne_eq
  rcases he : a.expansion.2 with k | k
  · rw [he] at hread
    exact within_natCast.mpr (within_of_whole hread)
  · refine within_negSucc.mpr (within_of_places (a := a) ?_)
    unfold expansion at he ⊢
    rw [← hm] at he ⊢
    split at he
    · cases he
    · rename_i hshift
      have hk : m - a.shift = k + 1 := by omega
      have hsplit : unitsPerOne = 2 ^ a.shift * 2 ^ (k + 1) := by
        rw [hunits, ← Nat.pow_add, ← hk, Nat.add_sub_cancel' (Nat.le_of_not_le hshift)]
      have hten : 10 ^ (k + 1) = 5 ^ (k + 1) * 2 ^ (k + 1) := Nat.mul_pow 5 2 (k + 1)
      rw [if_neg hshift, hk]
      refine Nat.le_add_right_of_le (Nat.le_of_eq ?_)
      show a.significand * 5 ^ (k + 1) * unitsPerOne = _
      rw [hsplit, units_eq, hten]
      ring

/-- Moving zeros into the exponent does not change the decimal. -/
theorem within_strip {fuel : Nat} (h : (Digits.mk c e).toDecimal.Within (overflow - 1)) :
    (Digits.strip fuel c e).toDecimal.Within (overflow - 1) := by
  induction fuel generalizing c e with
  | zero => exact h
  | succ fuel ih =>
    rw [Digits.strip]
    split
    · rename_i hzero
      have hc : c = c / 10 * 10 := by omega
      refine ih ?_
      rw [hc] at h
      rcases e with k | k
      · refine within_natCast.mpr ((Nat.le_of_eq ?_).trans (within_natCast.mp h))
        ring
      · have hle := within_negSucc.mp h
        rw [Nat.pow_succ, ← Nat.mul_assoc, Nat.mul_le_mul_right_iff (by decide)] at hle
        cases k with
        | zero => exact within_natCast.mpr (by rwa [Nat.pow_zero, Nat.mul_one] at hle ⊢)
        | succ k => exact within_negSucc.mpr hle
    · exact h

theorem within_shortest (a : Magnitude) : a.shortest.toDecimal.Within (overflow - 1) := by
  unfold shortest
  split
  · exact Nat.zero_le _
  · rename_i ha
    refine within_strip ?_
    rcases hfind : a.candidates.find? a.isReadFrom with - | p
    · exact within_expansion ha
    · exact within_of_mem_candidates (List.mem_of_find?_eq_some hfind) (List.find?_some hfind)

end Magnitude

/-- **The decimal of a number stays a whole unit below the point of overflow.** -/
theorem Binary64.within_toDecimal (x : Binary64) : x.toDecimal.Within (Magnitude.overflow - 1) := by
  rcases x with - | - | ⟨negative, size⟩
  · exact Decimal.within_zero
  · exact Decimal.within_zero
  · have h := size.within_shortest
    cases negative
    · exact h
    · show Int.natAbs (-_) ≤ _
      rw [Int.natAbs_neg]
      exact h

/-! ### Aggregates -/

namespace Aggregate

theorem within_decimalSum (numbers : List Binary64) :
    (decimalSum numbers).Within (numbers.length * (Magnitude.overflow - 1)) := by
  have h : ∀ a ∈ numbers.map Binary64.toDecimal, a.Within (Magnitude.overflow - 1) := by
    intro a ha
    obtain ⟨x, -, rfl⟩ := List.mem_map.mp ha
    exact x.within_toDecimal
  rw [← List.length_map Binary64.toDecimal]
  exact Decimal.within_sum h

/-- **A mean is finite**, also where the sum is not. -/
theorem isFinite_meanOf (numbers : List Binary64) : (meanOf numbers).isFinite = true := by
  unfold meanOf
  split
  · rfl
  · rename_i hne
    have hpos : 0 < numbers.length := by
      rw [List.length_pos_iff]
      rintro rfl
      exact hne rfl
    refine Decimal.isFinite_toBinary64.mpr (Decimal.not_overflows ?_)
    exact Decimal.within_round (Decimal.within_quotient hpos (within_decimalSum numbers)) places

/-- A sum is finite unless it overflows when it is rounded. -/
theorem isFinite_sumOf {numbers : List Binary64} :
    (sumOf numbers).isFinite = true ↔ ¬ ((decimalSum numbers).round places).Overflows :=
  Decimal.isFinite_toBinary64

/-- A fold that always picks one of two gives one of all. -/
theorem foldl_mem {pick : Binary64 → Binary64 → Binary64} (h : ∀ x y, pick x y = x ∨ pick x y = y)
    (x : Binary64) (numbers : List Binary64) : numbers.foldl pick x ∈ x :: numbers := by
  induction numbers generalizing x with
  | nil => exact List.mem_singleton_self x
  | cons y numbers ih =>
    rw [List.foldl_cons]
    rcases List.mem_cons.mp (ih (pick x y)) with heq | hmem
    · rw [heq]
      rcases h x y with hx | hy
      · rw [hx]
        exact List.mem_cons_self
      · rw [hy]
        exact List.mem_cons_of_mem _ List.mem_cons_self
    · exact List.mem_cons_of_mem _ (List.mem_cons_of_mem _ hmem)

theorem larger_eq (x y : Binary64) : x.larger y = x ∨ x.larger y = y := by
  unfold Binary64.larger
  split
  · exact .inl rfl
  · exact .inr rfl
  · split
    · exact .inl rfl
    · exact .inr rfl

theorem smaller_eq (x y : Binary64) : x.smaller y = x ∨ x.smaller y = y := by
  unfold Binary64.smaller
  split
  · exact .inl rfl
  · exact .inr rfl
  · split
    · exact .inl rfl
    · exact .inr rfl

/-- The start of the fold gives way to the first number. -/
theorem larger_bottom {y : Binary64} (hy : y ≠ .notANumber) : Binary64.bottom.larger y = y := by
  rcases y with - | negative | ⟨negative, size⟩
  · exact absurd rfl hy
  · cases negative <;> rfl
  · rfl

theorem smaller_top {y : Binary64} (hy : y ≠ .notANumber) : Binary64.top.smaller y = y := by
  rcases y with - | negative | ⟨negative, size⟩
  · exact absurd rfl hy
  · cases negative <;> rfl
  · rfl

/-- **The extremes of some numbers are among them.** -/
theorem foldl_larger_mem {numbers : List Binary64} (hne : numbers ≠ [])
    (h : ∀ x ∈ numbers, x ≠ .notANumber) :
    numbers.foldl Binary64.larger Binary64.bottom ∈ numbers := by
  obtain ⟨x, numbers, rfl⟩ := List.exists_cons_of_ne_nil hne
  rw [List.foldl_cons, larger_bottom (h x List.mem_cons_self)]
  exact foldl_mem larger_eq x numbers

theorem foldl_smaller_mem {numbers : List Binary64} (hne : numbers ≠ [])
    (h : ∀ x ∈ numbers, x ≠ .notANumber) :
    numbers.foldl Binary64.smaller Binary64.top ∈ numbers := by
  obtain ⟨x, numbers, rfl⟩ := List.exists_cons_of_ne_nil hne
  rw [List.foldl_cons, smaller_top (h x List.mem_cons_self)]
  exact foldl_mem smaller_eq x numbers

end Aggregate

end CampusQuery
