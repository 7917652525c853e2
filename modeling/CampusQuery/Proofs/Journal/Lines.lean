/-
CampusQuery/Proofs/Journal/Lines.lean

Which event a line of the journal is about.

An entry has no line break, so it is one line (`newline_not_mem_text`), and the line names its event
first (`Journal.isAbout`).  Names of events are made of capitals and underscores, so none is the
begin of another once it is quoted, and a line is about one event only (`isAbout_text`).  Entries
that are warnings or for information are all written on the channel for callers if nothing of that
weight is dropped (`World.foldl_log_of_ordinary`); then the lines about an event can be counted in
the entries (`countP_isAbout`).
-/
import CampusQuery.Program.World
import CampusQuery.Proofs.Json.Strings

namespace CampusQuery

namespace Journal

variable {name : String} {e : Entry}

/-- The line is an entry about the event with the name. -/
def isAbout (name line : String) : Bool :=
  ('\x7b' :: quote "event" ++ ':' :: quote name).isPrefixOf line.toList

/-! ### Names -/

/-- The name is made of capitals and underscores. -/
def isPlainName (s : String) : Bool := s.toList.all fun c => ('A' ≤ c && c ≤ 'Z') || c == '_'

theorem isPlainName_name (event : Event) : isPlainName event.name = true := by
  cases event <;> decide

theorem Event.ofName?_name (event : Event) : Event.ofName? event.name = some event := by
  cases event <;> decide

/-- Events have different names. -/
theorem Event.name_inj {event other : Event} : event.name = other.name ↔ event = other := by
  refine ⟨fun h => Option.some.inj ?_, fun h => h ▸ rfl⟩
  rw [← Event.ofName?_name, h, Event.ofName?_name]

theorem escape_of_plain {c : Char} (h : (('A' ≤ c && c ≤ 'Z') || c == '_') = true) :
    escape c = [c] := by
  have hne : ∀ d : Char, (('A' ≤ d && d ≤ 'Z') || d == '_') = false → c ≠ d := by
    rintro d hd rfl
    cases h.symm.trans hd
  have hcontrol : isControl c = false := by
    rcases Bool.or_eq_true_iff.mp h with hupper | hunderscore
    · have hrange : 65 ≤ c.toNat ∧ c.toNat ≤ 90 := by
        rw [Bool.and_eq_true, decide_eq_true_iff, decide_eq_true_iff] at hupper
        exact hupper
      simp only [isControl, Bool.or_eq_false_iff, Bool.and_eq_false_iff, decide_eq_false_iff_not]
      omega
    · rw [beq_iff_eq.mp hunderscore]
      decide
  unfold escape
  split
  · exact absurd rfl (hne '"' (by decide))
  · exact absurd rfl (hne '\\' (by decide))
  · exact absurd rfl (hne '\n' (by decide))
  · exact absurd rfl (hne '\r' (by decide))
  · exact absurd rfl (hne '\t' (by decide))
  · rw [hcontrol]
    rfl

/-- A plain name is quoted as it is. -/
theorem quote_of_plain {s : String} (h : isPlainName s = true) :
    quote s = '"' :: s.toList ++ ['"'] := by
  have hescape : s.toList.flatMap escape = s.toList.flatMap fun c => [c] :=
    List.flatMap_congr fun c hc => escape_of_plain (List.all_eq_true.mp h c hc)
  rw [quote, hescape, List.flatMap_singleton']

theorem not_mem_of_plain {s : String} (h : isPlainName s = true) : '"' ∉ s.toList := by
  intro hmem
  have hquotation := List.all_eq_true.mp h _ hmem
  revert hquotation
  decide

/-- Text up to a quotation mark begins another such text only if the two are equal. -/
theorem append_quotation_prefix_iff {l l' rest : List Char} (h : '"' ∉ l) (h' : '"' ∉ l') :
    l ++ ['"'] <+: l' ++ '"' :: rest ↔ l = l' := by
  induction l generalizing l' with
  | nil =>
    cases l' with
    | nil => simp
    | cons c l' =>
      -- the other text goes on where the first one is closed
      have hne : '"' ≠ c := fun he => h' (he ▸ List.mem_cons_self)
      simp [hne]
  | cons c l ih =>
    obtain ⟨hne, hl⟩ := List.ne_and_not_mem_of_not_mem_cons h
    cases l' with
    | nil => simp [hne.symm]
    | cons c' l' =>
      rw [List.cons_append, List.cons_append, List.cons_prefix_cons, List.cons.injEq,
        ih hl (List.not_mem_of_not_mem_cons h')]

/-! ### Lines -/

theorem newline_not_mem_escape (c : Char) : '\n' ∉ escape c := by
  unfold escape
  split
  · decide
  · decide
  · decide
  · decide
  · decide
  · split
    · simp [Json.newline_not_mem_hexByte]
    · -- a line break is a control character
      rename_i hcontrol
      rw [List.mem_singleton]
      rintro rfl
      exact hcontrol (by decide)

theorem newline_not_mem_quote (s : String) : '\n' ∉ quote s := by
  simp [quote, newline_not_mem_escape]

theorem newline_not_mem_fieldChars (field : String × String) : '\n' ∉ fieldChars field := by
  simp [fieldChars, newline_not_mem_quote]

/-- **An entry is one line**: its text has no line break. -/
theorem newline_not_mem_text (e : Entry) : '\n' ∉ e.text.toList := by
  rw [Entry.text, String.toList_ofList, Entry.chars]
  simp [newline_not_mem_quote, newline_not_mem_fieldChars]

/-- The entry is a warning or for information, and its name is plain. -/
structure Entry.Ordinary (e : Entry) : Prop where
  severity : e.severity = .info ∨ e.severity = .warn
  plain : isPlainName e.event = true

theorem Event.ordinary_entry (event : Event) (fields : Fields) : (event.entry fields).Ordinary where
  severity := by
    show event.severity = .info ∨ event.severity = .warn
    unfold Event.severity
    split
    · exact .inr rfl
    · exact .inl rfl
  plain := isPlainName_name event

/-- **A line is about one event**, the one that its entry names. -/
theorem isAbout_text (hname : isPlainName name = true) (he : isPlainName e.event = true) :
    isAbout name e.text = (e.event == name) := by
  have hchars : e.text.toList = '\x7b' :: quote "event" ++ ':' :: '"' :: (e.event.toList ++ '"' ::
      (fieldChars ("severity", e.severity.name) ++ (sortFields e.fields).flatMap fieldChars ++
        ['\x7d'])) := by
    rw [Entry.text, String.toList_ofList, Entry.chars, quote_of_plain he]
    simp only [List.cons_append, List.append_assoc, List.nil_append]
  have hiff : isAbout name e.text = true ↔ e.event = name := by
    rw [isAbout, List.isPrefixOf_iff_prefix, hchars, quote_of_plain hname,
      List.prefix_append_right_inj]
    simp only [List.cons_append, List.cons_prefix_cons, true_and]
    rw [append_quotation_prefix_iff (not_mem_of_plain hname) (not_mem_of_plain he),
      String.toList_inj, eq_comm]
  rw [Bool.eq_iff_iff, hiff, beq_iff_eq]

/-- Lines about an event are as many as its entries. -/
theorem countP_isAbout {l : List Entry} (hname : isPlainName name = true)
    (hl : ∀ e ∈ l, e.Ordinary) :
    (l.map Entry.text).countP (isAbout name) = l.countP (·.event == name) := by
  rw [List.countP_map]
  refine List.countP_congr fun e he => ?_
  rw [Function.comp_apply, isAbout_text hname (hl e he).plain]

end Journal

/-! ### Channels -/

open Journal (Entry)

/-- **Ordinary entries are all written**, one after the other, on the channel for callers. -/
theorem World.foldl_log_of_ordinary {l : List Entry} {w : World}
    (hleast : w.minimum = .trace ∨ w.minimum = .info) (hl : ∀ e ∈ l, e.Ordinary) :
    (l.foldl log w).minimum = w.minimum ∧ (l.foldl log w).out = w.out ++ l.map Entry.text ∧
      (l.foldl log w).err = w.err := by
  induction l generalizing w with
  | nil => simp
  | cons e l ih =>
    obtain ⟨he, hl⟩ := List.forall_mem_cons.mp hl
    have hlog : w.log e = { w with out := w.out ++ [e.text] } := by
      unfold log
      rcases hleast with hw | hw
      all_goals
        rcases he.severity with hs | hs
        all_goals
          rw [hw, hs]
          rfl
    obtain ⟨hminimum, hout, herr⟩ := ih (w := w.log e) (by rw [hlog]; exact hleast) hl
    rw [List.foldl_cons, hminimum, hout, herr, hlog]
    simp

end CampusQuery
