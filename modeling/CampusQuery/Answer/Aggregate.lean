/-
CampusQuery/Answer/Aggregate.lean

One value out of many.

The greatest and the smallest number are taken as they are.  Sums and means are
computed in exact decimals from the shortest digits of the numbers and rounded to
two places, a half away from zero.  Counting counts different values.  Texts count
for nothing but the count.
-/
import Std.Data.HashSet
import CampusQuery.Decimal.Shortest
import CampusQuery.Query.Basic

namespace CampusQuery.Aggregate

/-- The places that sums and means are rounded to. -/
def places : Nat := 2

/-- The exact sum of the decimal forms of numbers. -/
def decimalSum (numbers : List Binary64) : Decimal := .sum (numbers.map Binary64.toDecimal)

/-- The rounded sum. -/
def sumOf (numbers : List Binary64) : Binary64 := ((decimalSum numbers).round places).toBinary64

/-- The rounded mean; that of no numbers is zero. -/
def meanOf (numbers : List Binary64) : Binary64 :=
  if numbers.isEmpty then 0
  else (((decimalSum numbers).quotient numbers.length).round places).toBinary64

/-- The number of different values. -/
def countDistinct (values : List Scalar) : Nat :=
  (Std.HashSet.ofList (values.map Scalar.identity)).size

/-- The aggregate of a list of values. -/
def apply (a : Aggregate) (values : List Scalar) : Scalar :=
  let numbers := values.filterMap Scalar.number?
  .number <| match a with
    | .max => numbers.foldl Binary64.larger Binary64.bottom
    | .min => numbers.foldl Binary64.smaller Binary64.top
    | .sum => sumOf numbers
    | .avg => meanOf numbers
    | .count => .ofInt (countDistinct values)

end CampusQuery.Aggregate
