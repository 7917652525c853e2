/-
CampusQuery/Proofs/Decimal/Truncation.lean

Integers of 64 bits that numbers are cut to.

Cutting a finite number takes its value towards zero, and to the nearer end of the range if it lies
beyond (`truncate_eq`).  A number of a document is taken as the nearest binary number first.  That
changes nothing where a binary number has its value (`Number.IsHeld`), as one has every whole number
up to the power of two after the significands (`isHeld_integer`), nor where it is beyond the range
anyway (`Number.truncate_toBinary64`).
-/
import CampusQuery.Proofs.Decimal.Whole
import CampusQuery.Proofs.Json.Numbers

namespace CampusQuery

open Magnitude (unitsPerOne cast_unitsPerOne_pos)

variable {x : Binary64} {v : ℚ} {i : ℤ}

/-! ### Cutting -/

/-- The number without its fraction. -/
def towardZero (v : ℚ) : ℤ := if 0 ≤ v then ⌊v⌋ else ⌈v⌉

/-- The nearest integer of 64 bits. -/
def clampInt64 (i : ℤ) : ℤ := max Binary64.minInt64 (min Binary64.maxInt64 i)

theorem towardZero_neg (v : ℚ) : towardZero (-v) = -towardZero v := by
  unfold towardZero
  rcases lt_trichotomy v 0 with hv | rfl | hv
  · rw [if_pos (neg_nonneg.mpr hv.le), if_neg hv.not_ge, Int.floor_neg]
  · rfl
  · rw [if_neg (neg_neg_iff_pos.mpr hv).not_ge, if_pos hv.le, Int.ceil_neg]

theorem towardZero_intCast (i : ℤ) : towardZero i = i := by
  unfold towardZero
  split
  · exact Int.floor_intCast i
  · exact Int.ceil_intCast i

theorem towardZero_le_towardZero {v w : ℚ} (hvw : v ≤ w) : towardZero v ≤ towardZero w := by
  unfold towardZero
  split
  · rename_i hv
    rw [if_pos (hv.trans hvw)]
    exact Int.floor_mono hvw
  · rename_i hv
    split
    · rename_i hw
      exact (Int.ceil_le.mpr (by simpa using (not_le.mp hv).le)).trans (Int.floor_nonneg.mpr hw)
    · exact Int.ceil_mono hvw

theorem clampInt64_of_lt (h : Binary64.maxInt64 < i) : clampInt64 i = Binary64.maxInt64 := by
  rw [clampInt64, min_eq_left h.le]
  exact max_eq_right (by decide)

/-- A whole number in the range is cut to itself. -/
theorem clampInt64_of_natAbs_le (hi : i.natAbs ≤ 2 ^ 53) : clampInt64 i = i := by
  have hmin : Binary64.minInt64 = -(2 ^ 63 : ℕ) := rfl
  have hmax : Binary64.maxInt64 = (2 ^ 63 : ℕ) - 1 := rfl
  unfold clampInt64
  omega

theorem towardZero_value (size : Magnitude) :
    towardZero size.value = (size.units / unitsPerOne : ℕ) := by
  have hfloor := Rat.floor_intCast_div_natCast size.units unitsPerOne
  rw [towardZero, if_pos size.value_nonneg, Magnitude.value]
  rwa [Int.cast_natCast] at hfloor

/-- **Cutting a number takes it towards zero**, within the range of the integers. -/
theorem Binary64.truncate_eq (hx : x.isFinite = true) :
    x.truncate = clampInt64 (towardZero x.value) := by
  obtain ⟨negative, size, rfl⟩ := exists_eq_finite hx
  cases negative
  · rw [value_finite_false, towardZero_value]
    rfl
  · rw [value_finite_true, towardZero_neg, towardZero_value]
    rfl

/-! ### Numbers of documents -/

namespace Json.Number

variable {n : Number}

/-- The number that a number of a document is. -/
def value : Number → ℚ
  | .integer i => i
  | .float x => x.value

/-- The number is finite, and a binary number has its value. -/
def IsHeld : Number → Prop
  | .integer i => ∃ y : Binary64, y.isFinite = true ∧ y.value = i
  | .float x => x.isFinite = true

theorem isHeld_integer (hi : i.natAbs ≤ 2 ^ 53) : (Number.integer i).IsHeld :=
  Binary64.exists_value_eq hi

theorem natAbs_le_of_storable (h : (Number.integer i).Storable) : i.natAbs ≤ 2 ^ 64 := by
  obtain ⟨hleast, hgreatest⟩ := h
  have hmin : Binary64.minInt64 = -(2 ^ 63 : ℕ) := rfl
  have hmax : (Nat.pow 2 64 : ℕ) = 2 ^ 64 := rfl
  omega

/-- The binary number that is taken for a number is nearest to it. -/
theorem isNearest_toBinary64 (h : n.Storable) : n.toBinary64.IsNearest n.value := by
  cases n with
  | integer i => exact Binary64.isNearest_ofInt (natAbs_le_of_storable h)
  | float x => exact Binary64.isNearest_self h

/-- **Cutting the number of a document** is cutting what it says, unless no binary number has its
value and it is in the range of the integers. -/
theorem truncate_toBinary64 (h : n.Storable)
    (hn : n.IsHeld ∨ ∃ k, n = .integer k ∧ Binary64.maxInt64 < k) :
    n.toBinary64.truncate = clampInt64 (towardZero n.value) := by
  have hnearest := isNearest_toBinary64 h
  rw [Binary64.truncate_eq hnearest.isFinite]
  rcases hn with hheld | ⟨k, rfl, hbeyond⟩
  · cases n with
    | integer i => rw [hnearest.value_eq_of_exists hheld]
    | float x => rfl
  · -- the power of two after the range is a binary number, and at most the integer
    have hcut : ∀ v : ℚ, (2 ^ 63 : ℤ) ≤ v → clampInt64 (towardZero v) = Binary64.maxInt64 := by
      intro v hv
      refine clampInt64_of_lt (lt_of_lt_of_le (by decide : _ < (2 ^ 63 : ℤ)) ?_)
      rw [← towardZero_intCast (2 ^ 63)]
      exact towardZero_le_towardZero hv
    have hvalue : ((2 ^ 63 : ℤ) : ℚ) ≤ (Number.integer k).value := Int.cast_le.mpr hbeyond
    rw [← Binary64.value_twoPow63] at hvalue
    have hle := hnearest.le_value rfl hvalue
    rw [Binary64.value_twoPow63] at hvalue hle
    rw [hcut _ hle, hcut _ hvalue]

/-- The integer is the number without its fraction, and an end of the range if the number lies
beyond.  The number is taken as the nearest binary number, which may have another value. -/
structure Truncates (n : Number) (i : ℤ) : Prop where
  held : (n.IsHeld ∨ ∃ k, n = .integer k ∧ Binary64.maxInt64 < k) →
    i = clampInt64 (towardZero n.value)
  small : ∀ k, n = .integer k → k.natAbs ≤ 2 ^ 53 → i = k
  nearest : n.toBinary64.isFinite = true →
    ∃ x : Binary64, x.IsNearest n.value ∧ i = clampInt64 (towardZero x.value)
  notANumber : n = .float .notANumber → i = 0
  infinite : ∀ negative, n = .float (.infinite negative) →
    i = if negative then Binary64.minInt64 else Binary64.maxInt64

theorem truncates_of_storable (h : n.Storable) : n.Truncates n.toBinary64.truncate where
  held := truncate_toBinary64 h
  small k hk hsmall := by
    subst hk
    rw [truncate_toBinary64 h (.inl (isHeld_integer hsmall)), value, towardZero_intCast,
      clampInt64_of_natAbs_le hsmall]
  nearest hfinite := ⟨_, isNearest_toBinary64 h, Binary64.truncate_eq hfinite⟩
  notANumber hn := by rw [hn]; rfl
  infinite negative hn := by rw [hn]; rfl

theorem truncates_float (x : Binary64) : (Number.float x).Truncates x.truncate := by
  by_cases hx : x.isFinite = true
  · exact truncates_of_storable (n := .float x) hx
  · refine ⟨fun hn => ?_, nofun, fun hfinite => absurd hfinite hx, fun hn => ?_, fun m hn => ?_⟩
    · rcases hn with hheld | ⟨k, hk, -⟩
      · exact absurd hheld hx
      · cases hk
    · cases hn
      rfl
    · cases hn
      rfl

end Json.Number

end CampusQuery
