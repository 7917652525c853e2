/-
CampusQuery/Decimal.lean

Exact decimal fractions: an integer over a power of ten.  Sums are exact.  A
quotient by a count keeps 100 significant digits and rounds the last one; rounding
to fewer places takes a half away from zero.  Reading a decimal as a binary number
gives the nearest one (`Decimal.toBinary64`).
-/
import CampusQuery.Binary64

namespace CampusQuery

/-- The number `coefficient / 10 ^ scale`. -/
structure Decimal where
  coefficient : Int
  scale : Nat
deriving DecidableEq

/-! ### From decimal to binary -/

/-- The magnitude nearest to `c * 10 ^ e`, or `none` beyond the largest.  Powers far
outside the range of the format are decided without being computed: ten to the
400th exceeds it, and ten to the -400th is below half of its unit. -/
def Magnitude.ofScientific? (c : Nat) (e : Int) : Option Magnitude :=
  if c = 0 then some 0
  else if 400 < e then none
  else if e + (Nat.log2 c + 1 : Nat) < -400 then some 0
  else match e with
    | .ofNat k => nearest? (c * Nat.pow 10 k * unitsPerOne) 1
    | .negSucc k => nearest? (c * unitsPerOne) (Nat.pow 10 (k + 1))

/-- The number of the given sign nearest to `c * 10 ^ e`. -/
def Binary64.ofScientific (negative : Bool) (c : Nat) (e : Int) : Binary64 :=
  match Magnitude.ofScientific? c e with
  | some size => .finite negative size
  | none => .infinite negative

namespace Decimal

instance : Zero Decimal := ⟨⟨0, 0⟩⟩

/-- The coefficient that the same number has over the greater power `10 ^ scale`. -/
def coefficientAt (a : Decimal) (scale : Nat) : Int := a.coefficient * Nat.pow 10 (scale - a.scale)

/-- The exact sum. -/
def add (a b : Decimal) : Decimal :=
  let scale := max a.scale b.scale
  ⟨a.coefficientAt scale + b.coefficientAt scale, scale⟩

instance : Add Decimal := ⟨add⟩

/-- The exact sum of a list. -/
def sum (l : List Decimal) : Decimal := l.foldl (· + ·) 0

/-! ### Quotients -/

/-- The significant digits that a quotient keeps. -/
def quotientDigits : Nat := 100

/-- The number of decimal digits of a natural number; zero has one. -/
def digitCount (n : Nat) : Nat := (Nat.toDigits 10 n).length

/-- The least `k` with `d ≤ n * 10 ^ k`, found within `fuel` steps. -/
def scaleToReach (d : Nat) : Nat → Nat → Nat
  | 0, _ => 0
  | fuel + 1, n => if d ≤ n then 0 else scaleToReach d fuel (n * 10) + 1

/-- The quotient by a positive count, as coefficient and scale of a magnitude.  It
is exact when it has at most `quotientDigits` significant digits; otherwise the
digits beyond are rounded into the last one, a half upwards.  A quotient whose
whole part is already longer is rounded at its unit. -/
def quotientMagnitude (n scale d : Nat) : Nat × Nat :=
  if n = 0 then (0, 0)
  else
    let lift := scaleToReach d (digitCount d) n
    let raised := n * Nat.pow 10 lift
    let extra := quotientDigits - digitCount (raised / d)
    (roundHalfUp (raised * Nat.pow 10 extra) d, scale + lift + extra)

/-- The quotient by a count to `quotientDigits` significant digits. -/
def quotient (a : Decimal) (count : Nat) : Decimal :=
  let (c, scale) := quotientMagnitude a.coefficient.natAbs a.scale count
  ⟨if a.coefficient < 0 then -c else c, scale⟩

/-! ### Rounding to places -/

/-- The number with `places` decimal places nearest to `a`; a half goes away from
zero. -/
def round (places : Nat) (a : Decimal) : Decimal :=
  if a.scale ≤ places then ⟨a.coefficientAt places, places⟩
  else
    let c : Int := roundHalfUp a.coefficient.natAbs (Nat.pow 10 (a.scale - places))
    ⟨if a.coefficient < 0 then -c else c, places⟩

/-- The nearest binary number; a decimal zero gives the positive zero. -/
def toBinary64 (a : Decimal) : Binary64 :=
  Binary64.ofScientific (a.coefficient < 0) a.coefficient.natAbs (-(a.scale : Int))

end Decimal

end CampusQuery
