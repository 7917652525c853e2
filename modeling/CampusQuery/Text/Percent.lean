/-
CampusQuery/Text/Percent.lean

Percent encoding: `%` and two hexadecimal digits stand for a byte.  A `%` without
two such digits stands for itself.
-/
import CampusQuery.Json.Tree

namespace CampusQuery.Text

/-- The value of a byte that is a hexadecimal digit. -/
def hexByte? (b : UInt8) : Option UInt8 :=
  (Json.hexDigit? (Char.ofNat b.toNat)).map Nat.toUInt8

/-- The bytes that are encoded. -/
def percentDecodeBytes : List UInt8 → List UInt8
  | 0x25 :: high :: low :: rest =>
    match hexByte? high, hexByte? low with
    | some h, some l => (h * 16 + l) :: percentDecodeBytes rest
    | _, _ => 0x25 :: percentDecodeBytes (high :: low :: rest)
  | b :: rest => b :: percentDecodeBytes rest
  | [] => []

/-- The text that is encoded, unless the bytes are not UTF-8. -/
def percentDecode? (s : String) : Option String :=
  String.fromUTF8? ⟨(percentDecodeBytes s.toUTF8.toList).toArray⟩

end CampusQuery.Text
