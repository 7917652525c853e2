/-
CampusQuery/Proofs/Text/Bytes.lean

Texts in the order of their bytes.

Texts are compared character by character.  A character with a larger number has larger
bytes in UTF-8, at the first byte in which the two differ, so comparing the bytes gives
the same order (`bytes_lt`).
-/
import Mathlib.Data.List.Basic
import Mathlib.Data.String.Basic

namespace CampusQuery.Text

open String (utf8EncodeChar)

/-- Of two numbers the one with the smaller digit is smaller, at the first digit of the base 64 in
which they differ. -/
theorem digits_lt {v v' : Nat} (h : v < v') :
    v / 262144 < v' / 262144 ∨ v / 262144 = v' / 262144 ∧
      (v / 4096 % 64 < v' / 4096 % 64 ∨ v / 4096 % 64 = v' / 4096 % 64 ∧
        (v / 64 % 64 < v' / 64 % 64 ∨ v / 64 % 64 = v' / 64 % 64 ∧ v % 64 < v' % 64)) := by
  omega

/-- The bytes of characters differ in their order, whatever follows. -/
theorem utf8EncodeChar_append_lt {c c' : Char} (h : c < c') (rest rest' : List UInt8) :
    utf8EncodeChar c ++ rest < utf8EncodeChar c' ++ rest' := by
  have hlt : c.val.toNat < c'.val.toNat := h
  have hvalid : c'.val.toNat < 0x110000 := by
    rcases c'.valid with hsmall | ⟨-, hlarge⟩
    · exact Nat.lt_trans hsmall (by decide)
    · exact hlarge
  -- by the number of bytes of the two characters
  unfold utf8EncodeChar
  dsimp only
  repeat' split
  all_goals try omega
  all_goals
    simp only [List.cons_append, List.nil_append, List.cons_lt_cons_iff,
      UInt8.lt_iff_toNat_lt, ← UInt8.toNat_inj, UInt8.toNat_ofNat']
  case isFalse.isFalse.isFalse.isFalse.isFalse.isFalse =>
    -- four bytes each
    rcases digits_lt hlt with hd | ⟨he, hd | ⟨he', hd | ⟨he'', hd⟩⟩⟩
    all_goals omega
  all_goals omega

theorem flatMap_utf8EncodeChar_lt {l l' : List Char} (h : l < l') :
    l.flatMap utf8EncodeChar < l'.flatMap utf8EncodeChar := by
  induction l generalizing l' with
  | nil =>
    rcases l' with - | ⟨c', l'⟩
    · exact absurd h (List.not_lt_nil _)
    · rw [List.flatMap_nil, List.flatMap_cons]
      rcases hc : utf8EncodeChar c' with - | ⟨b, bs⟩
      · exact absurd hc String.utf8EncodeChar_ne_nil
      · exact List.nil_lt_cons _ _
  | cons c l ih =>
    rcases l' with - | ⟨c', l'⟩
    · exact absurd h (List.not_lt_nil _)
    · rw [List.flatMap_cons, List.flatMap_cons]
      rcases List.cons_lt_cons_iff.mp h with hc | ⟨rfl, hl⟩
      · exact utf8EncodeChar_append_lt hc _ _
      · exact List.append_left_lt (ih hl)

/-- The bytes of a text in UTF-8. -/
def bytes (s : String) : List UInt8 := s.toUTF8.data.toList

theorem bytes_eq (s : String) : bytes s = s.toList.flatMap utf8EncodeChar := by
  have hs : s.toUTF8 = (String.ofList s.toList).toByteArray := by
    rw [String.ofList_toList]
    rfl
  rw [bytes, hs, String.toByteArray_ofList, List.utf8Encode, List.data_toByteArray]

/-- **A smaller text has smaller bytes.** -/
theorem bytes_lt {a b : String} (h : a < b) : bytes a < bytes b := by
  rw [bytes_eq, bytes_eq]
  exact flatMap_utf8EncodeChar_lt (String.lt_iff_toList_lt.mp h)

end CampusQuery.Text
