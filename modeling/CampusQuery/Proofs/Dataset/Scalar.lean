/-
CampusQuery/Proofs/Dataset/Scalar.lean

What it means that values are the same, and that one is less than another.

Values are compared as values: numbers numerically, texts by code points (`Scalar.Less`,
`Scalar.Same`).  The order of scalars and their identities agree with that for all
that is a number (`order_eq_lt`, `order_eq_eq`, `identity_eq_iff`).  The latter rests on
canonical forms: two magnitudes of the same number of units are one (`units_inj`).
-/
import CampusQuery.Dataset.Scalar
import Mathlib.Algebra.Order.Ring.Nat
import Mathlib.Tactic.Ring

namespace CampusQuery

/-! ### Meaning -/

namespace Scalar

/-- The same value: of two numbers numerically, of two texts exactly. -/
def Same : Scalar → Scalar → Prop
  | .number x, .number y => x.eq y = true
  | .text s, .text t => s = t
  | _, _ => False

/-- The lesser value; a number is less than any text. -/
def Less : Scalar → Scalar → Prop
  | .number x, .number y => x.lt y = true
  | .text s, .text t => s < t
  | .number _, .text _ => True
  | .text _, .number _ => False

/-! ### Order -/

theorem order_eq_lt {a b : Scalar} : a.order b = .lt ↔ a.Less b := by
  rcases a with x | s <;> rcases b with y | t
  · rw [order, Less, Binary64.lt, beq_iff_eq]
    rcases x.compare? y with - | o
    · decide
    · simp
  · simp [order, Less]
  · simp [order, Less]
  · exact compareOfLessAndEq_eq_lt

theorem order_eq_eq {a b : Scalar} (ha : a ≠ .number .notANumber) (hb : b ≠ .number .notANumber) :
    a.order b = .eq ↔ a.Same b := by
  rcases a with x | s <;> rcases b with y | t
  · rw [order, Same, Binary64.eq, beq_iff_eq]
    rcases x with - | nx | ⟨nx, sx⟩
    · exact absurd rfl ha
    all_goals rcases y with - | ny | ⟨ny, sy⟩
    all_goals first | exact absurd rfl hb | simp [Binary64.compare?]
  · simp [order, Same]
  · simp [order, Same]
  · simp [order, Same]

end Scalar

/-! ### Identity -/

namespace Magnitude

theorem ext {a b : Magnitude} (hsignificand : a.significand = b.significand)
    (hshift : a.shift = b.shift) : a = b := by
  obtain ⟨s, k, hs⟩ := a
  obtain ⟨t, l, ht⟩ := b
  cases hsignificand
  cases hshift
  rfl

theorem units_eq (a : Magnitude) : a.units = a.significand * 2 ^ a.shift := by
  rw [units, Nat.shiftLeft_eq]

theorem units_eq_zero_iff {a : Magnitude} : a.units = 0 ↔ a.significand = 0 := by
  rw [units_eq, Nat.mul_eq_zero]
  exact or_iff_left (Nat.two_pow_pos _).ne'

/-- A magnitude with the greater shift has more units. -/
theorem units_lt_of_shift_lt {a b : Magnitude} (h : a.shift < b.shift) : a.units < b.units := by
  have hbound : a.significand < 2 ^ 53 := a.canonical.1
  have hnormal : 2 ^ 52 ≤ b.significand := b.canonical.2.2.resolve_left (by omega)
  rw [units_eq, units_eq]
  calc a.significand * 2 ^ a.shift
      < 2 ^ 53 * 2 ^ a.shift := Nat.mul_lt_mul_of_pos_right hbound (Nat.two_pow_pos _)
    _ = 2 ^ 52 * 2 ^ (a.shift + 1) := by ring
    _ ≤ b.significand * 2 ^ b.shift :=
      Nat.mul_le_mul hnormal (Nat.pow_le_pow_right Nat.two_pos h)

/-- **The units tell magnitudes apart.** -/
theorem units_inj {a b : Magnitude} (h : a.units = b.units) : a = b := by
  have hshift : a.shift = b.shift := by
    rcases Nat.lt_trichotomy a.shift b.shift with hlt | heq | hgt
    · exact absurd h (units_lt_of_shift_lt hlt).ne
    · exact heq
    · exact absurd h (units_lt_of_shift_lt hgt).ne'
  have hsignificand : a.significand = b.significand := by
    rw [units_eq, units_eq, hshift] at h
    exact Nat.eq_of_mul_eq_mul_right (Nat.two_pow_pos _) h
  exact ext hsignificand hshift

end Magnitude

namespace Binary64

theorem eq_finite_iff {m n : Bool} {a b : Magnitude} :
    (finite m a).eq (finite n b) = true ↔
      (if m then -(a.units : Int) else a.units) = if n then -(b.units : Int) else b.units := by
  rw [eq, beq_iff_eq, compare?, Option.some.injEq, Std.LawfulEqOrd.compare_eq_iff_eq]
  rfl

theorem foldZero_eq_iff {x y : Binary64} (hx : x ≠ .notANumber) (hy : y ≠ .notANumber) :
    x.foldZero = y.foldZero ↔ x.eq y = true := by
  rcases x with - | m | ⟨m, a⟩
  · exact absurd rfl hx
  · rcases y with - | n | ⟨n, b⟩
    · exact absurd rfl hy
    · cases m <;> cases n <;> decide
    · cases m <;> simp [foldZero, eq, compare?]
  · rcases y with - | n | ⟨n, b⟩
    · exact absurd rfl hy
    · cases n <;> simp [foldZero, eq, compare?]
    · rw [eq_finite_iff, foldZero, foldZero, finite.injEq]
      constructor
      · rintro ⟨hsign, rfl⟩
        by_cases hzero : a.significand = 0
        · simp [Magnitude.units_eq_zero_iff.mpr hzero]
        · have hne : (a.significand != 0) = true := bne_iff_ne.mpr hzero
          rw [hne, Bool.and_true, Bool.and_true] at hsign
          rw [hsign]
      · intro h
        have hunits : a.units = b.units := by
          cases m <;> cases n <;> simp at h <;> omega
        obtain rfl := Magnitude.units_inj hunits
        refine ⟨?_, rfl⟩
        -- opposite signs leave only zero
        by_cases hzero : a.significand = 0
        · simp [hzero]
        · have hpos : a.units ≠ 0 := fun e => hzero (Magnitude.units_eq_zero_iff.mp e)
          cases m <;> cases n <;> simp at h ⊢ <;> omega

end Binary64

/-- **Values have one identity if and only if they are the same.** -/
theorem Scalar.identity_eq_iff {a b : Scalar} (ha : a ≠ .number .notANumber)
    (hb : b ≠ .number .notANumber) : a.identity = b.identity ↔ a.Same b := by
  rcases a with x | s <;> rcases b with y | t
  · rw [identity, identity, number.injEq, Same]
    exact Binary64.foldZero_eq_iff (by rintro rfl; exact ha rfl) (by rintro rfl; exact hb rfl)
  · simp [identity, Same]
  · simp [identity, Same]
  · simp [identity, Same]

end CampusQuery
