/-
CampusQuery/Decimal/Layout.lean

How the shortest digits of a number are laid out as text.

There are two layouts.  `Binary64.plainText` never uses an exponent and writes no
point after a whole number.  `Binary64.documentText` is the one of JSON documents:
decimal exponents from -5 to 15 are written out and keep a point, others take the
form `1.5e+20`; what is not finite has no text there.
-/
import CampusQuery.Decimal.Shortest

namespace CampusQuery

namespace Digits

/-- The digits as characters. -/
def chars (d : Digits) : List Char := Nat.toDigits 10 d.digits

/-- Where the point stands, counted from the first digit. -/
def point (d : Digits) : Int := d.chars.length + d.exponent

/-- The digits written out around the point.  `tail` follows a number that has no
digit after the point. -/
def spread (d : Digits) (tail : List Char) : List Char :=
  let cs := d.chars
  match d.point with
  | .ofNat 0 => '0' :: '.' :: cs
  | .ofNat k =>
    if cs.length ≤ k then cs ++ List.replicate (k - cs.length) '0' ++ tail
    else cs.take k ++ '.' :: cs.drop k
  | .negSucc k => '0' :: '.' :: List.replicate (k + 1) '0' ++ cs

/-- One digit before the point and an exponent with its sign. -/
def scientific (d : Digits) : List Char :=
  let mantissa := match d.chars with
    | [] => []
    | [c] => [c]
    | c :: rest => c :: '.' :: rest
  let e := d.point - 1
  mantissa ++ 'e' :: (if e < 0 then '-' else '+') :: Nat.toDigits 10 e.natAbs

end Digits

/-- Puts a minus sign before the text of a negative number. -/
def signed (negative : Bool) (text : List Char) : List Char :=
  if negative then '-' :: text else text

namespace Binary64

/-- The shortest digits without any exponent; a whole number has no point. -/
def plainText : Binary64 → List Char
  | .notANumber => ['N', 'a', 'N']
  | .infinite negative => signed negative ['i', 'n', 'f']
  | .finite negative size => signed negative (size.shortest.spread [])

/-- The number as a JSON document writes it: always with a point or an exponent, and
`null` for what is not finite. -/
def documentText : Binary64 → List Char
  | .finite negative size =>
    let d := size.shortest
    signed negative <|
      if size.significand = 0 then ['0', '.', '0']
      else if -4 ≤ d.point ∧ d.point ≤ 16 then d.spread ['.', '0']
      else d.scientific
  | _ => ['n', 'u', 'l', 'l']

end Binary64

end CampusQuery
