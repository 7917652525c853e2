/-
CampusQuery/Decimal/Reader.lean

How documents read their fractions.

A literal with a fraction or an exponent denotes an exact decimal number, and a program
keeps some floating-point number near it.  Which one is a parameter, `FloatReader`: the
grammar and the integers of a document do not depend on it.  `FloatReader.nearest`
rounds correctly.  `CampusQuery.Decimal.Scaling` has the reader that the programs run
with, which is quicker and can miss the nearest number by a little.
-/
import CampusQuery.Decimal.Layout
import CampusQuery.Decimal.Numeral

namespace CampusQuery

/-- The reading of the literals of documents that are no integers of 64 bits. -/
class FloatReader where
  /-- The number that a literal gives, infinite when it is beyond the range. -/
  read : List Char → Binary64

namespace FloatReader

/-- The reader takes back every finite number that was written. -/
class Exact [FloatReader] : Prop where
  read_documentText : ∀ x : Binary64, x.isFinite → read x.documentText = x

/-- The reader that rounds a literal to the nearest number. -/
@[reducible]
def nearest : FloatReader where
  read literal :=
    match Numeral.scan literal with
    | some (n, _) => n.toBinary64
    | none => .notANumber

end FloatReader

end CampusQuery
