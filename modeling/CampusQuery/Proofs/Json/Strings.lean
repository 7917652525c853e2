/-
CampusQuery/Proofs/Json/Strings.lean

Strings in a document are read as they were written.

A writer of strings writes every character as itself or as an escape.  Where scanning what was
written for a character gives one piece, and the piece spells the character (`Escapes`), a string is
read back from what stands between its quotes (`Escapes.isQuoted`).  Compact documents are written
so (`escapes_escape`); which characters a writer escapes does not matter.
-/
import CampusQuery.Json.Tree
import CampusQuery.Json.Write
import Mathlib.Data.List.Basic

namespace CampusQuery.Json

open Text (Source)

/-- The character is written as the code of an escape. -/
def IsCoded (c : Char) : Prop :=
  c < ' ' ∧ c ≠ '\n' ∧ c ≠ '\r' ∧ c ≠ '\t' ∧ c ≠ '\x08' ∧ c ≠ '\x0c'

instance (c : Char) : Decidable (IsCoded c) := inferInstanceAs (Decidable (_ ∧ _))

/-- The piece that a character is written as. -/
def pieceOf (c : Char) : Piece := if IsCoded c then .code c.toNat else .char c

theorem hexCode?_hexByte {n : Nat} (h : n < 256) :
    hexCode? '0' '0' (Nat.digitChar (n / 16 % 16)) (Nat.digitChar (n % 16)) = some n := by
  revert n
  decide +kernel

theorem newline_not_mem_hexByte (n : Nat) : '\n' ∉ hexByte n := by
  have hdigit : ∀ k, '\n' ≠ Nat.digitChar (k % 16) := by
    intro k
    have hdigits : ∀ digit < 16, '\n' ≠ Nat.digitChar digit := by decide
    exact hdigits _ (Nat.mod_lt k (by decide))
  simp [hexByte, hdigit]

/-! ### Scanning -/

theorem toNat_lt_of_lt_space {c : Char} (h : c < ' ') : c.toNat < 32 := h

theorem scanPieces_plain {c : Char} (acc : List Piece) (rest : Source) (hquote : c ≠ '"')
    (hslash : c ≠ '\\') (hspace : ¬ c < ' ') :
    scanPieces acc (some c :: rest) = scanPieces (.char c :: acc) rest := by
  have hplain : ¬ (c < ' ' ∨ c = '\\') := not_or.mpr ⟨hspace, hslash⟩
  conv => lhs; unfold scanPieces
  split
  · rename_i e
    cases e
  · rename_i e
    cases e
    exact absurd rfl hquote
  · rename_i e
    cases e
    exact absurd rfl hslash
  · rename_i e
    cases e
    exact absurd rfl hslash
  · rename_i e
    cases e
    exact if_neg hplain
  · rename_i e
    cases e

/-- The code of a character below the hexadecimal hundred is scanned as one piece. -/
theorem scanPieces_code {n : Nat} (acc : List Piece) (rest : Source) (hn : n < 256) :
    scanPieces acc (Source.ofChars (['\\', 'u', '0', '0'] ++ hexByte n) ++ rest) =
      scanPieces (.code n :: acc) rest := by
  simp [Source.ofChars, hexByte, scanPieces, hexCode?_hexByte hn]

/-- What was written for a character is scanned as one piece. -/
theorem scanPieces_escape (acc : List Piece) (c : Char) (rest : Source) :
    scanPieces acc (Source.ofChars (escape c) ++ rest) = scanPieces (pieceOf c :: acc) rest := by
  unfold escape
  split
  case h_8 h₁ h₂ h₃ h₄ h₅ h₆ h₇ =>
    -- none of the characters with an escape of their own
    split
    · rename_i hlt
      have hcoded : IsCoded c := ⟨hlt, h₃, h₄, h₅, h₆, h₇⟩
      have hcode : c.toNat < 256 := Nat.lt_trans (toNat_lt_of_lt_space hlt) (by decide)
      rw [pieceOf, if_pos hcoded]
      exact scanPieces_code acc rest hcode
    · rename_i hge
      have hcoded : ¬ IsCoded c := fun h => hge h.1
      rw [pieceOf, if_neg hcoded]
      exact scanPieces_plain acc rest h₁ h₂ hge
  all_goals
    simp [Source.ofChars, scanPieces, shortEscape?, pieceOf, IsCoded]

/-! ### Spelling -/

/-- A code below the halves of surrogate pairs spells its character. -/
theorem spell_code_cons {n : Nat} (hn : n < 0xD800) (rest : List Piece) :
    spell (.code n :: rest) = (spell rest).map (Char.ofNat n :: ·) := by
  have hhigh : ¬ (0xD800 ≤ n ∧ n < 0xDC00) := by omega
  have hlow : ¬ (0xDC00 ≤ n ∧ n < 0xE000) := by omega
  have hhalf : ¬ (0xD800 ≤ n ∧ n < 0xE000) := by omega
  rcases rest with - | ⟨c | m | -, rest⟩ <;> simp [spell, hhigh, hlow, hhalf]

/-- The piece of a character spells it, as a code or as it stands. -/
theorem spell_piece_cons {c : Char} {p : Prop} [Decidable p] (hcode : p → c.toNat < 0xD800)
    (rest : List Piece) :
    spell ((if p then .code c.toNat else .char c) :: rest) = (spell rest).map (c :: ·) := by
  split
  · rename_i hp
    rw [spell_code_cons (hcode hp), Char.ofNat_toNat]
  · rw [spell]

/-! ### Strings -/

/-- Every character is written so that it is scanned as one piece, which spells the character. -/
structure Escapes (esc : Char → List Char) (piece : Char → Piece) : Prop where
  scan : ∀ acc c rest,
    scanPieces acc (Source.ofChars (esc c) ++ rest) = scanPieces (piece c :: acc) rest
  spell : ∀ c rest, Json.spell (piece c :: rest) = (Json.spell rest).map (c :: ·)

/-- The text is a string between quotes, and is read as the string. -/
def IsQuoted (s : String) (text : List Char) : Prop :=
  ∃ body, text = '"' :: body ++ ['"'] ∧
    ∀ rest, scanString (Source.ofChars body ++ some '"' :: rest) = some (some s, rest)

namespace Escapes

variable {esc : Char → List Char} {piece : Char → Piece}

theorem scanPieces_flatMap (h : Escapes esc piece) (acc : List Piece) (cs : List Char)
    (rest : Source) : scanPieces acc (Source.ofChars (cs.flatMap esc) ++ some '"' :: rest) =
      some (acc.reverse ++ cs.map piece, rest) := by
  induction cs generalizing acc with
  | nil => simp [Source.ofChars, scanPieces]
  | cons c cs ih =>
    rw [List.flatMap_cons, Source.ofChars, List.map_append, List.append_assoc]
    rw [← Source.ofChars, h.scan, ← Source.ofChars, ih, List.reverse_cons, List.append_assoc,
      List.map_cons]
    rfl

/-- The pieces spell the characters. -/
theorem spell_map (h : Escapes esc piece) (cs : List Char) :
    Json.spell (cs.map piece) = some cs := by
  induction cs with
  | nil => rfl
  | cons c cs ih => rw [List.map_cons, h.spell, ih, Option.map_some]

/-- **A string is read back** from what stands between its quotes. -/
theorem isQuoted (h : Escapes esc piece) (s : String) :
    IsQuoted s ('"' :: s.toList.flatMap esc ++ ['"']) := by
  refine ⟨_, rfl, fun rest => ?_⟩
  rw [scanString, h.scanPieces_flatMap, Option.map_some, List.reverse_nil, List.nil_append]
  simp only [h.spell_map, Option.map_some, String.ofList_toList]

end Escapes

/-- Compact documents write strings that are read back. -/
theorem escapes_escape : Escapes escape pieceOf where
  scan := scanPieces_escape
  spell _ := spell_piece_cons fun hcoded =>
    Nat.lt_trans (toNat_lt_of_lt_space hcoded.1) (by decide)

theorem isQuoted_quote (s : String) : IsQuoted s (quote s) := escapes_escape.isQuoted s

end CampusQuery.Json
