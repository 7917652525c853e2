/-
CampusQuery/Proofs/Journal/Reading.lean

A line of the journal read as JSON.

The journal writes its strings itself, and escapes all control characters, also those that a
document may hold as they are.  Each escape is one that documents know (`escapes_escape`), so every
string is read back, whatever it holds (`isQuoted_quote`).  The line of an entry is then the text of
an object with the event, the severity and the fields in the order of their keys (`scans_chars`):
no value ends its string or its line early (`Entry.line_reads`).
-/
import CampusQuery.Proofs.Journal.Lines
import CampusQuery.Proofs.Json.Canonical
import CampusQuery.Proofs.Json.Scans
import CampusQuery.Proofs.Text.Sorted

namespace CampusQuery.Journal

open Json (Escapes IsQuoted Piece Tree)
open Json.Tree (Scans ScansMembers)
open Text (Source)

variable {e : Entry}

/-! ### Strings -/

/-- The character is written as the code of an escape. -/
def IsCoded (c : Char) : Prop := isControl c = true ∧ c ≠ '\n' ∧ c ≠ '\r' ∧ c ≠ '\t'

instance (c : Char) : Decidable (IsCoded c) := inferInstanceAs (Decidable (_ ∧ _))

/-- The piece that a character is written as. -/
def pieceOf (c : Char) : Piece := if IsCoded c then .code c.toNat else .char c

/-- Control characters are among the first of all characters. -/
theorem toNat_lt_of_isControl {c : Char} (h : isControl c = true) : c.toNat < 256 := by
  simp only [isControl, Bool.or_eq_true, Bool.and_eq_true, decide_eq_true_eq] at h
  omega

theorem not_lt_space_of_not_isControl {c : Char} (h : isControl c ≠ true) : ¬ c < ' ' := by
  intro hlt
  refine h (Bool.or_eq_true_iff.mpr (.inl (decide_eq_true ?_)))
  exact Json.toNat_lt_of_lt_space hlt

/-- What was written for a character is scanned as one piece. -/
theorem scanPieces_escape (acc : List Piece) (c : Char) (rest : Source) :
    Json.scanPieces acc (Source.ofChars (escape c) ++ rest) =
      Json.scanPieces (pieceOf c :: acc) rest := by
  unfold escape
  split
  case h_6 h₁ h₂ h₃ h₄ h₅ =>
    -- none of the characters with an escape of their own
    split
    · rename_i hcontrol
      rw [pieceOf, if_pos ⟨hcontrol, h₃, h₄, h₅⟩]
      exact Json.scanPieces_code acc rest (toNat_lt_of_isControl hcontrol)
    · rename_i hcontrol
      rw [pieceOf, if_neg fun hcoded => hcontrol hcoded.1]
      exact Json.scanPieces_plain acc rest h₁ h₂ (not_lt_space_of_not_isControl hcontrol)
  all_goals
    simp [Source.ofChars, Json.scanPieces, Json.shortEscape?, pieceOf, IsCoded, isControl]

/-- **The journal writes strings that are read back.** -/
theorem escapes_escape : Escapes escape pieceOf where
  scan := scanPieces_escape
  spell _ := Json.spell_piece_cons fun hcoded =>
    Nat.lt_trans (toNat_lt_of_isControl hcoded.1) (by decide)

theorem isQuoted_quote (s : String) : IsQuoted s (quote s) := escapes_escape.isQuoted s

/-! ### Members -/

/-- A field as a member of an object. -/
def member (field : String × String) : String × Json := (field.1, .text field.2)

namespace Entry

/-- The members of an entry in the order of its line. -/
def members (e : Entry) : List (String × Json) :=
  (("event", e.event) :: ("severity", e.severity.name) :: sortFields e.fields).map member

theorem perm_members (e : Entry) : e.members.Perm (member ("event", e.event) ::
    member ("severity", e.severity.name) :: e.fields.map member) :=
  (((List.mergeSort_perm _ _).map member).cons _).cons _

end Entry

section Reader

variable [FloatReader]

/-- Fields that follow each other are members that follow each other. -/
theorem scansMembers_fields (first : String × String) (fields : Fields) :
    ScansMembers ((first :: fields).map member)
      ((fieldChars first).tail ++ fields.flatMap fieldChars) := by
  have hvalue : ∀ s : String, Scans (.text s) (quote s) := fun s =>
    Json.Tree.scans_text (isQuoted_quote s)
  induction fields generalizing first with
  | nil =>
    have hmember := Json.Tree.scansMembers_singleton (isQuoted_quote first.1) (hvalue first.2)
      Json.blank_nil Json.blank_nil
    exact hmember
  | cons next fields ih =>
    have hmembers := Json.Tree.scansMembers_cons (isQuoted_quote first.1) (hvalue first.2)
      Json.blank_nil (ih next)
    exact hmembers

namespace Entry

theorem scans_chars (e : Entry) : Scans (.object e.members) e.chars := by
  have hmembers := scansMembers_fields ("event", e.event)
    (("severity", e.severity.name) :: sortFields e.fields)
  have hobject := Json.Tree.scans_object hmembers
  have hchars : e.chars = '\x7b' :: ((fieldChars ("event", e.event)).tail ++
      (("severity", e.severity.name) :: sortFields e.fields).flatMap fieldChars) ++ ['\x7d'] := by
    simp [chars, fieldChars]
  rw [hchars]
  exact hobject

theorem read_line (e : Entry) :
    Tree.read (.ofText e.line) = (Tree.ofJson (.object e.members), true) := by
  have hbreak : Json.Tree.Blank ['\n'] := by
    intro c hc
    rw [List.mem_singleton.mp hc]
    rfl
  rw [Source.ofText, line, String.toList_ofList]
  exact Json.read_of_scans_append e.scans_chars hbreak

theorem read?_line (e : Entry) :
    Json.read? e.line.toList = some (.object (Json.sortMembers e.members)) := by
  -- all members are texts, so brackets are one deep
  have htext : ∀ m ∈ e.members, Json.Tree.toJson? 126 (Tree.ofJson m.2) = some m.2 := by
    intro m hm
    obtain ⟨field, -, rfl⟩ := List.mem_map.mp hm
    rfl
  have hread := e.read_line
  rw [Source.ofText] at hread
  rw [Json.read?, hread]
  show (Tree.ofJson (.object e.members)).toJson? (126 + 1) = _
  rw [Tree.ofJson, Json.Tree.toJson?, Json.membersToJson?_ofMembers htext, Option.map_some]

/-- **A line of the journal is one line, and reads as its entry**: an object with the event, the
severity and the fields, each text as it was given.  In the line the event comes first, the severity
second and the fields follow in the order of their keys, in whatever order they were given. -/
theorem line_reads (hnodup : (e.fields.map Prod.fst).Nodup)
    (hevent : "event" ∉ e.fields.map Prod.fst) (hseverity : "severity" ∉ e.fields.map Prod.fst) :
    (∃ text, e.line.toList = text ++ ['\n'] ∧ '\n' ∉ text) ∧
      (∃ members, Json.read? e.line.toList = some (.object members) ∧
        members.Perm (member ("event", e.event) :: member ("severity", e.severity.name) ::
          e.fields.map member)) ∧
      (∃ sorted : Fields, sorted.Perm e.fields ∧ (sorted.Pairwise fun a b => a.1 < b.1) ∧
        Tree.read (.ofText e.line) = (Tree.ofJson (.object (member ("event", e.event) ::
          member ("severity", e.severity.name) :: sorted.map member)), true)) ∧
      ∀ fields', fields'.Perm e.fields → { e with fields := fields' }.line = e.line := by
  refine ⟨⟨e.chars, String.toList_ofList, ?_⟩, ⟨_, e.read?_line, ?_⟩,
    ⟨sortFields e.fields, List.mergeSort_perm _ _, pairwise_lt_mergeSort hnodup, e.read_line⟩,
    fun fields' hperm => ?_⟩
  · have hone := newline_not_mem_text e
    rwa [text, String.toList_ofList] at hone
  · -- all keys are different, so none replaces another
    refine (Json.perm_sortMembers ?_).trans e.perm_members
    refine (e.perm_members.map Prod.fst).nodup_iff.mpr ?_
    have hkeys : (e.fields.map member).map Prod.fst = e.fields.map Prod.fst := List.map_map
    rw [List.map_cons, List.map_cons, hkeys]
    refine List.nodup_cons.mpr ⟨?_, List.nodup_cons.mpr ⟨hseverity, hnodup⟩⟩
    exact List.not_mem_cons_of_ne_of_not_mem (by simp [member]) hevent
  · have hsorted : sortFields fields' = sortFields e.fields :=
      mergeSort_eq_of_perm Prod.fst (hperm.trans (List.mergeSort_perm _ _).symm)
        (pairwise_lt_mergeSort hnodup)
    rw [line, line, chars, chars, hsorted]

end Entry

end Reader

section Sample

attribute [local instance] FloatReader.nearest

/-- Quotation marks, line breaks and control characters stand in the texts and the keys. -/
theorem Entry.line_reads_sample :
    let e : Entry := ⟨.warn, "A\n\x00", [("k\"", "\",\"event\":\"B"), ("\x7f", "\\\u0085")]⟩
    (e.fields.map Prod.fst).Nodup ∧ "event" ∉ e.fields.map Prod.fst ∧
      "severity" ∉ e.fields.map Prod.fst ∧
      (∃ members, Json.read? e.line.toList = some (.object members) ∧
        members.Perm [("event", .text "A\n\x00"), ("severity", .text "WARN"),
          ("k\"", .text "\",\"event\":\"B"), ("\x7f", .text "\\\u0085")]) ∧
      { e with fields := e.fields.reverse }.line = e.line := by
  intro e
  have hnodup : (e.fields.map Prod.fst).Nodup := by decide
  have hevent : "event" ∉ e.fields.map Prod.fst := by decide
  have hseverity : "severity" ∉ e.fields.map Prod.fst := by decide
  have h := Entry.line_reads hnodup hevent hseverity
  exact ⟨hnodup, hevent, hseverity, h.2.1, h.2.2.2 _ (List.reverse_perm _)⟩

end Sample

end CampusQuery.Journal
