/-
CampusQuery/Decimal/Scaling.lean

The quick reading of decimal literals.

The digits of a literal are gathered, from the left, into a number of 64 bits; those
that do not fit are dropped, with one more power of ten for each that stood before the
point.  That number is rounded to floating point and multiplied or divided by the power
of ten.  Every step rounds, so the result can be a neighbour of the nearest number:
0.99999999999999994 is read as 1, although a number between the two exists.
-/
import CampusQuery.Decimal.Reader

namespace CampusQuery

namespace Magnitude

/-- The product, rounded; `none` beyond the range. -/
def times? (a b : Magnitude) : Option Magnitude := nearest? (a.units * b.units) unitsPerOne

/-- The quotient, rounded; `none` beyond the range. -/
def over? (a b : Magnitude) : Option Magnitude := nearest? (a.units * unitsPerOne) b.units

/-- The number nearest to a natural number; `none` beyond the range. -/
def ofNat? (n : Nat) : Option Magnitude := nearest? (n * unitsPerOne) 1

/-- The greatest power of ten that is a number. -/
def maxPowerOfTen : Nat := 308

/-- The power of ten, rounded; `none` beyond the range. -/
def tenPow? (k : Nat) : Option Magnitude := ofNat? (Nat.pow 10 k)

/-- Divides `n` times by the greatest power of ten, or until nothing is left. -/
def shrink? : Nat → Magnitude → Option Magnitude
  | 0, a => some a
  | n + 1, a => do
    if a = 0 then return a
    shrink? n (← a.over? (← tenPow? maxPowerOfTen))

/-- The number times a power of ten, one rounding for each factor. -/
def scale? (a : Magnitude) : Int → Option Magnitude
  | .ofNat k => do
    if a = 0 then return 0
    if k ≤ maxPowerOfTen then a.times? (← tenPow? k) else none
  | .negSucc k => do
    -- the divisors are `k / 308` greatest powers of ten and one power for the rest
    let a ← shrink? (k / maxPowerOfTen) a
    a.over? (← tenPow? (k % maxPowerOfTen + 1))

end Magnitude

namespace FloatReader

/-- Appends digits to a number as long as it stays below `2 ^ 64`; the digits that are
left. -/
def gather (significand : Nat) : List Char → Nat × List Char
  | [] => (significand, [])
  | d :: ds =>
    let longer := significand * 10 + (d.toNat - '0'.toNat)
    if longer < Nat.pow 2 64 then gather longer ds else (significand, d :: ds)

/-- The number of a literal, from the digits that fit into 64 bits. -/
def readScaled (literal : List Char) : Binary64 :=
  let (negative, cs) := Numeral.takeSign literal
  let (whole, cs) := Numeral.takeDigits cs
  let (places, cs) := match cs with
    | '.' :: cs => Numeral.takeDigits cs
    | cs => ([], cs)
  let exponent := match Numeral.takeExponent cs with
    | some (some e, _) => e
    | _ => 0
  let (significand, dropped) := gather 0 whole
  let (significand, unread) := gather significand places
  let power := exponent + dropped.length - (places.length - unread.length : Nat)
  match Magnitude.ofNat? significand >>= (·.scale? power) with
  | some size => .finite negative size
  | none => .infinite negative

/-- The reader of the programs. -/
instance scaling : FloatReader := ⟨readScaled⟩

/-- It is not exact: there are numbers whose text it takes for a neighbour. -/
theorem not_exact_scaling : ¬ @Exact scaling := by
  intro hexact
  let x : Binary64 := .ofScientific false 9103389830508475 (-14)
  have hread : scaling.read x.documentText = x := hexact.read_documentText x (by decide +kernel)
  exact absurd hread (by decide +kernel)

end FloatReader

end CampusQuery
