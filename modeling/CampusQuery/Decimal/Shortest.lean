/-
CampusQuery/Decimal/Shortest.lean

The shortest decimal that reads back as a given binary number.

For one digit, two digits and so on up to seventeen, the number's two neighbours on
the grid of decimals with that many digits are tried, the nearer one first.  The
first that reads back is taken, so the result reads back by construction.  Every
number is found by seventeen digits; the exact expansion stands behind the search.
-/
import CampusQuery.Decimal

namespace CampusQuery

/-- A positive decimal written as digits times a power of ten, without a zero at the
end of the digits. -/
structure Digits where
  digits : Nat
  exponent : Int
deriving DecidableEq

namespace Digits

/-- Moves zeros at the end of the digits into the exponent. -/
def strip : Nat → Nat → Int → Digits
  | 0, c, e => ⟨c, e⟩
  | fuel + 1, c, e => if c ≠ 0 ∧ c % 10 = 0 then strip fuel (c / 10) (e + 1) else ⟨c, e⟩

/-- The digits of `c * 10 ^ e` without zeros at the end. -/
def ofScientific (c : Nat) (e : Int) : Digits := strip (Nat.log2 c) c e

/-- The same number as an exact decimal. -/
def toDecimal (d : Digits) : Decimal :=
  match d.exponent with
  | .ofNat k => ⟨d.digits * Nat.pow 10 k, 0⟩
  | .negSucc k => ⟨d.digits, k + 1⟩

end Digits

namespace Magnitude

/-- How many zeros follow the point of `n / d < 1` before its first digit. -/
def leadingZeros (d : Nat) : Nat → Nat → Nat
  | 0, _ => 0
  | fuel + 1, n => if d ≤ n * 10 then 0 else leadingZeros d fuel (n * 10) + 1

/-- The position of the point before the first digit: a positive magnitude lies
from `10 ^ (pointPosition - 1)` up to, not including, `10 ^ pointPosition`. -/
def pointPosition (a : Magnitude) : Int :=
  let whole := a.units / unitsPerOne
  if whole = 0 then -(leadingZeros unitsPerOne 330 a.units : Int)
  else Decimal.digitCount whole

/-- The numerator and denominator of the magnitude divided by `10 ^ e`. -/
def ratioOver (a : Magnitude) : Int → Nat × Nat
  | .ofNat k => (a.units, unitsPerOne * Nat.pow 10 k)
  | .negSucc k => (a.units * Nat.pow 10 (k + 1), unitsPerOne)

/-- The two neighbours on the grid of multiples of `10 ^ e`, nearer first, and of two
equally near the even one first. -/
def neighbours (a : Magnitude) (e : Int) : List (Nat × Int) :=
  let (n, d) := a.ratioOver e
  let below := n / d
  let near := roundHalfEven n d
  [(near, e), (if near = below then below + 1 else below, e)]

/-- Reading `c * 10 ^ e` gives this magnitude. -/
def isReadFrom (a : Magnitude) (c : Nat × Int) : Bool := ofScientific? c.1 c.2 == some a

/-- The candidates in the order of preference: fewer digits first. -/
def candidates (a : Magnitude) : List (Nat × Int) :=
  (List.range 17).flatMap fun k => a.neighbours (a.pointPosition - (k + 1 : Nat))

/-- The magnitude written out in full. -/
def expansion (a : Magnitude) : Nat × Int :=
  if 1074 ≤ a.shift then (a.significand <<< (a.shift - 1074), 0)
  else (a.significand * Nat.pow 5 (1074 - a.shift), (a.shift : Int) - 1074)

/-- The shortest digits that read back; zero has the single digit 0. -/
def shortest (a : Magnitude) : Digits :=
  if a.significand = 0 then ⟨0, 0⟩
  else
    let (c, e) := (a.candidates.find? a.isReadFrom).getD a.expansion
    Digits.ofScientific c e

end Magnitude

/-- The exact decimal with the shortest digits of a number; what is not finite
counts as zero. -/
def Binary64.toDecimal : Binary64 → Decimal
  | .finite negative size =>
    let d := size.shortest.toDecimal
    ⟨if negative then -d.coefficient else d.coefficient, d.scale⟩
  | _ => 0

end CampusQuery
