/-
CampusQuery/Binary64.lean

Binary floating-point numbers of double precision, held exactly.

Every finite number of this format is a whole multiple of the smallest positive
one, 2^-1074.  A `Magnitude` is such a multiple, `significand * 2 ^ shift`, in its
one canonical form; a `Binary64` adds a sign, the two infinities and "not a
number".  Comparison therefore is comparison of integers (`Binary64.toUnits?`), and
two numbers other than the zeros are equal exactly when they are the same value.

Rounding takes any fraction of the unit to the nearest magnitude, and to the one
with the even significand when two are equally near (`Magnitude.nearest?`).
-/

namespace CampusQuery

/-! ### Rounding a quotient to a natural number -/

/-- The natural number nearest to `n / d`; halfway it is the even neighbour. -/
def roundHalfEven (n d : Nat) : Nat :=
  let q := n / d
  let r := n % d
  if 2 * r < d then q
  else if d < 2 * r then q + 1
  else if q % 2 = 0 then q else q + 1

/-- The natural number nearest to `n / d`; halfway it is the greater neighbour. -/
def roundHalfUp (n d : Nat) : Nat :=
  if 2 * (n % d) < d then n / d else n / d + 1

/-! ### Magnitudes -/

/-- The canonical form: at most 53 bits, the shift within the format's range, and
no smaller shift possible unless the shift is zero. -/
abbrev Magnitude.Canonical (significand shift : Nat) : Prop :=
  significand < Nat.pow 2 53 ∧ shift ≤ 2045 ∧ (shift = 0 ∨ Nat.pow 2 52 ≤ significand)

/-- The absolute value of a finite number: `significand * 2 ^ shift` units, where
the unit is 2^-1074. -/
structure Magnitude where
  significand : Nat
  shift : Nat
  canonical : Magnitude.Canonical significand shift
deriving DecidableEq

namespace Magnitude

instance : Hashable Magnitude := ⟨fun a => mixHash (hash a.significand) (hash a.shift)⟩

/-- One is this many units. -/
def unitsPerOne : Nat := Nat.pow 2 1074

/-- The number of units. -/
def units (a : Magnitude) : Nat := a.significand <<< a.shift

instance : Zero Magnitude := ⟨⟨0, 0, by decide⟩⟩

/-- The magnitude nearest to `n / d` units, the even one of two equally near;
`none` when that would be beyond the largest. -/
def nearest? (n d : Nat) : Option Magnitude :=
  let shift := Nat.log2 (n / d) - 52
  let rounded := roundHalfEven n (d <<< shift)
  let carried := rounded = Nat.pow 2 53
  let significand := if carried then Nat.pow 2 52 else rounded
  let shift := if carried then shift + 1 else shift
  if h : Canonical significand shift then some ⟨significand, shift, h⟩ else none

end Magnitude

/-! ### Numbers -/

/-- A double-precision number. -/
inductive Binary64 where
  | notANumber
  | infinite (negative : Bool)
  | finite (negative : Bool) (size : Magnitude)
deriving DecidableEq, Hashable

namespace Binary64

instance : Zero Binary64 := ⟨.finite false 0⟩

/-- Negative infinity, below every other number. -/
def bottom : Binary64 := .infinite true

/-- Positive infinity, above every other number. -/
def top : Binary64 := .infinite false

/-- The signed number of units of a finite number; both zeros give 0. -/
def toUnits? : Binary64 → Option Int
  | .finite negative size => some (if negative then -(size.units : Int) else size.units)
  | _ => none

/-- Neither an infinity nor "not a number". -/
def isFinite : Binary64 → Bool
  | .finite _ _ => true
  | _ => false

/-- The number of the given sign nearest to `n / d` units. -/
def nearest (negative : Bool) (n d : Nat) : Binary64 :=
  match Magnitude.nearest? n d with
  | some size => .finite negative size
  | none => .infinite negative

/-- The number nearest to an integer. -/
def ofInt (i : Int) : Binary64 :=
  nearest (i < 0) (i.natAbs * Magnitude.unitsPerOne) 1

/-- The same number with the sign of zero forgotten. -/
def foldZero : Binary64 → Binary64
  | .finite negative size => .finite (negative && size.significand != 0) size
  | x => x

/-! ### Order -/

/-- The numerical comparison; `none` when either side is not a number. -/
def compare? : Binary64 → Binary64 → Option Ordering
  | .notANumber, _ => none
  | _, .notANumber => none
  | .infinite a, .infinite b => some (compare (!a).toNat (!b).toNat)
  | .infinite a, .finite _ _ => some (if a then .lt else .gt)
  | .finite _ _, .infinite b => some (if b then .gt else .lt)
  | x@(.finite _ _), y@(.finite _ _) => some (compare (x.toUnits?.getD 0) (y.toUnits?.getD 0))

/-- Numerically less. -/
def lt (x y : Binary64) : Bool := x.compare? y == some .lt

/-- Numerically equal: the two zeros are, and nothing equals "not a number". -/
def eq (x y : Binary64) : Bool := x.compare? y == some .eq

/-- The greater of two numbers, the second of two equal ones; a value that is not
a number gives way to the other. -/
def larger (x y : Binary64) : Binary64 :=
  match x.compare? y with
  | some .gt => x
  | some _ => y
  | none => if y = .notANumber then x else y

/-- The smaller of two numbers, the second of two equal ones; a value that is not
a number gives way to the other. -/
def smaller (x y : Binary64) : Binary64 :=
  match x.compare? y with
  | some .lt => x
  | some _ => y
  | none => if y = .notANumber then x else y

/-! ### Integers -/

/-- The least integer of 64 bits. -/
def minInt64 : Int := -(Nat.pow 2 63 : Nat)

/-- The greatest integer of 64 bits. -/
def maxInt64 : Int := (Nat.pow 2 63 : Nat) - 1

/-- The integer of 64 bits reached by dropping the fraction; what lies beyond the
range goes to its nearer end, and "not a number" to zero. -/
def truncate : Binary64 → Int
  | .notANumber => 0
  | .infinite negative => if negative then minInt64 else maxInt64
  | .finite negative size =>
    let whole : Int := (size.units / Magnitude.unitsPerOne : Nat)
    max minInt64 (min maxInt64 (if negative then -whole else whole))

/-- The integer that a finite number without fraction is. -/
def whole? : Binary64 → Option Int
  | .finite negative size =>
    if size.units % Magnitude.unitsPerOne = 0 then
      let whole : Int := (size.units / Magnitude.unitsPerOne : Nat)
      some (if negative then -whole else whole)
    else none
  | _ => none

end Binary64

end CampusQuery
