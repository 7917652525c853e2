/-
CampusQuery/Decimal/Numeral.lean

Numbers written in decimal, and their reading.

Two grammars are read into one `Numeral`.  That of JSON (`Numeral.scan`) has no plus
sign, no leading zeros and digits on both sides of a point.  The liberal one
(`Binary64.ofLiberalText?`) also takes a sign of either kind, a missing digit run on
one side of the point, and names for infinity and for what is not a number.
-/
import CampusQuery.Decimal

namespace CampusQuery

/-- A decimal literal: `digits * 10 ^ exponent` with a sign, and whether it was
written as a bare integer. -/
structure Numeral where
  negative : Bool
  digits : Nat
  exponent : Int
  bare : Bool
deriving DecidableEq

namespace Numeral

/-- The nearest number. -/
def toBinary64 (n : Numeral) : Binary64 := .ofScientific n.negative n.digits n.exponent

/-- The digits at the start, and what follows them. -/
def takeDigits (cs : List Char) : List Char × List Char :=
  (cs.takeWhile Char.isDigit, cs.dropWhile Char.isDigit)

/-- The value of a run of digits. -/
def valueOf (ds : List Char) : Nat := Nat.ofDigitChars 10 ds 0

/-- A sign at the start, plus or minus. -/
def takeSign : List Char → Bool × List Char
  | '-' :: cs => (true, cs)
  | '+' :: cs => (false, cs)
  | cs => (false, cs)

/-- An exponent at the start, `some 0` where there is none; `none` for a letter `e`
without digits. -/
def takeExponent : List Char → Option (Option Int × List Char)
  | c :: cs =>
    if c = 'e' ∨ c = 'E' then
      let (negative, cs) := takeSign cs
      let (ds, rest) := takeDigits cs
      if ds.isEmpty then none
      else some (some (if negative then -(valueOf ds : Int) else valueOf ds), rest)
    else some (none, c :: cs)
  | [] => some (none, [])

/-- The digits after a point at the start: `some none` where there is no point,
`none` for a point without digits. -/
def takeFraction : List Char → Option (Option (List Char) × List Char)
  | '.' :: cs =>
    let (ds, rest) := takeDigits cs
    if ds.isEmpty then none else some (some ds, rest)
  | cs => some (none, cs)

/-- The digits before the point: a zero alone, or a run that starts with another
digit. -/
def takeWhole (cs : List Char) : Option (List Char × List Char) :=
  match takeDigits cs with
  | ([], _) => none
  | ('0' :: _ :: _, _) => none
  | (ds, rest) => some (ds, rest)

/-- A number as JSON writes it, and what follows it. -/
def scan (cs : List Char) : Option (Numeral × List Char) := do
  let (negative, cs) := match cs with
    | '-' :: rest => (true, rest)
    | _ => (false, cs)
  let (whole, cs) ← takeWhole cs
  let (fraction, cs) ← takeFraction cs
  let (exponent, cs) ← takeExponent cs
  let places := fraction.getD []
  return (⟨negative, valueOf (whole ++ places), exponent.getD 0 - places.length,
    fraction.isNone && exponent.isNone⟩, cs)

end Numeral

namespace Binary64

/-- The names of numbers that have no digits, in lower case. -/
def ofName? (negative : Bool) : List Char → Option Binary64
  | ['i', 'n', 'f'] => some (.infinite negative)
  | ['i', 'n', 'f', 'i', 'n', 'i', 't', 'y'] => some (.infinite negative)
  | ['n', 'a', 'n'] => some .notANumber
  | _ => none

/-- The number a text denotes in the liberal notation: an optional sign, then a name
in any case or digits with an optional point and exponent. -/
def ofLiberalText? (cs : List Char) : Option Binary64 :=
  let (negative, cs) := Numeral.takeSign cs
  match ofName? negative (cs.map Char.toLower) with
  | some x => some x
  | none =>
    let (whole, rest) := Numeral.takeDigits cs
    let (places, rest) := match rest with
      | '.' :: rest => Numeral.takeDigits rest
      | rest => ([], rest)
    if whole.isEmpty && places.isEmpty then none
    else match Numeral.takeExponent rest with
      | some (exponent, []) =>
        some (.ofScientific negative (Numeral.valueOf (whole ++ places))
          (exponent.getD 0 - places.length))
      | _ => none

end Binary64

end CampusQuery
