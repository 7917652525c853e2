/-
CampusQuery/Proofs/Json/Scans.lean

A document that was written is scanned as the tree of its value.

`Tree.Scans v text` says that scanning finds the value at the start of a source, whatever
follows, with fuel for twice the length of the text.  The lemmas about it follow the
grammar: blanks may stand before a value, items and members are joined by commas.  They
do not mention how a value is written; the compact text and the one over several lines
are two instances (`scans_chars`, `scans_prettyChars`).
-/
import CampusQuery.Json.Typed
import CampusQuery.Proofs.Json.Numbers
import CampusQuery.Proofs.Json.Strings

namespace CampusQuery.Json

open Text (Source)

namespace Tree

/-! ### Blanks -/

/-- The text consists of blanks. -/
def Blank (ws : List Char) : Prop := ∀ c ∈ ws, isSpace c = true

theorem ofChars_append (cs ds : List Char) :
    Source.ofChars (cs ++ ds) = Source.ofChars cs ++ Source.ofChars ds := List.map_append

theorem ofChars_cons (c : Char) (cs : List Char) :
    Source.ofChars (c :: cs) = some c :: Source.ofChars cs := rfl

theorem skip_blank_append {ws : List Char} (h : Blank ws) (s : Source) :
    skip (Source.ofChars ws ++ s) = skip s := by
  induction ws with
  | nil => rfl
  | cons c ws ih =>
    obtain ⟨hc, hws⟩ := List.forall_mem_cons.mp h
    rw [ofChars_cons, List.cons_append, skip, List.dropWhile_cons_of_pos (by simpa using hc)]
    exact ih hws

theorem skip_cons {c : Char} (h : isSpace c = false) (s : Source) :
    skip (some c :: s) = some c :: s := List.dropWhile_cons_of_neg (by simp [h])

/-! ### Numbers -/

/-- The source does not go on with a character of a number. -/
def Ends (rest : Source) : Prop := ∀ c, rest.head? = some (some c) → isNumeralChar c = false

theorem spanChars_append {p : Char → Bool} {cs : List Char} (hcs : ∀ c ∈ cs, p c = true)
    {rest : Source} (hrest : ∀ c, rest.head? = some (some c) → p c = false) :
    Source.spanChars p (Source.ofChars cs ++ rest) = (cs, rest) := by
  induction cs with
  | nil =>
    rcases rest with - | ⟨- | c, rest⟩
    · rfl
    · rfl
    · show Source.spanChars p (some c :: rest) = _
      rw [Source.spanChars, hrest c rfl]
      rfl
  | cons c cs ih =>
    obtain ⟨hc, htail⟩ := List.forall_mem_cons.mp hcs
    rw [ofChars_cons, List.cons_append, Source.spanChars, ih htail, hc]
    rfl

theorem isSpace_of_isNumeralChar {c : Char} (h : isNumeralChar c = true) : isSpace c = false := by
  by_contra hspace
  rw [Bool.not_eq_false, isSpace] at hspace
  simp only [Bool.or_eq_true, beq_iff_eq] at hspace
  rcases hspace with ((rfl | rfl) | rfl) | rfl <;> revert h <;> decide

theorem ends_blank_append {ws : List Char} (hws : Blank ws) {c : Char}
    (hc : isNumeralChar c = false) (rest : Source) :
    Ends (Source.ofChars ws ++ some c :: rest) := by
  intro x hx
  rcases ws with - | ⟨w, ws⟩
  · cases hx
    exact hc
  · cases hx
    have hw := hws x List.mem_cons_self
    by_contra hx
    rw [Bool.not_eq_false] at hx
    rw [isSpace_of_isNumeralChar hx] at hw
    cases hw

/-! ### Values -/

/-- A text that is not empty is scanned with fuel left. -/
theorem exists_succ_of_le {n fuel : Nat} (hn : 0 < n) (h : 2 * n ≤ fuel) :
    ∃ fuel', fuel = fuel' + 1 ∧ 2 * n ≤ fuel' + 1 :=
  ⟨fuel - 1, by omega, by omega⟩

variable [FloatReader]

/-- The value is found at the start of a source that begins with the text. -/
def Scans (v : Json) (text : List Char) : Prop :=
  ∀ fuel rest, 2 * text.length ≤ fuel → Ends rest →
    scan fuel (Source.ofChars text ++ rest) = (ofJson v, some rest)

theorem Scans.blank_append {v : Json} {text ws : List Char} (h : Scans v text) (hws : Blank ws) :
    Scans v (ws ++ text) := by
  intro fuel rest hfuel hends
  rw [List.length_append] at hfuel
  rw [ofChars_append, List.append_assoc, ← scan_skip, skip_blank_append hws, scan_skip]
  exact h fuel rest (by omega) hends

theorem scans_null : Scans .null ['n', 'u', 'l', 'l'] := by
  intro fuel rest hfuel _
  obtain ⟨fuel, rfl, -⟩ := exists_succ_of_le (by decide) hfuel
  rw [scan]
  rfl

theorem scans_bool (b : Bool) : Scans (.bool b) (chars (.bool b)) := by
  intro fuel rest hfuel _
  cases b
  · obtain ⟨fuel, rfl, -⟩ := exists_succ_of_le (by decide) hfuel
    rw [scan]
    rfl
  · obtain ⟨fuel, rfl, -⟩ := exists_succ_of_le (by decide) hfuel
    rw [scan]
    rfl

theorem scans_text {s : String} {text : List Char} (h : IsQuoted s text) :
    Scans (.text s) text := by
  obtain ⟨body, rfl, hscan⟩ := h
  intro fuel rest hfuel _
  obtain ⟨fuel, rfl, -⟩ := exists_succ_of_le (by simp) hfuel
  have hsource : Source.ofChars ('"' :: body ++ ['"']) ++ rest =
      some '"' :: (Source.ofChars body ++ some '"' :: rest) := by
    rw [ofChars_append, ofChars_cons, List.append_assoc]
    rfl
  rw [hsource, scan, skip_cons rfl]
  simp only [hscan]
  rfl

/-- Only a number starts with a character of a number. -/
theorem scan_numeral {c : Char} (hc : isNumeralChar c = true) (fuel : Nat) (s : Source) :
    scan (fuel + 1) (some c :: s) =
      match scanNumber (some c :: s) with
      | some (n, rest) => (.number n, some rest)
      | none => (.fault, none) := by
  rw [scan, skip_cons (isSpace_of_isNumeralChar hc)]
  split
  case h_7 => rfl
  -- every other value starts with another character
  all_goals
    rename_i e
    cases e
    exact absurd hc (by decide)

theorem scans_number {n : Number} (hn : n.ReadsBack) : Scans (.number n) n.write := by
  intro fuel rest hfuel hends
  obtain ⟨numeral, hwrites, hread⟩ := hn
  obtain ⟨c, cs, hcs⟩ := List.exists_cons_of_ne_nil hwrites.ne_nil
  obtain ⟨fuel, rfl, -⟩ := exists_succ_of_le (List.length_pos_of_ne_nil hwrites.ne_nil) hfuel
  have hnumber : scanNumber (Source.ofChars n.write ++ rest) = some (some n, rest) := by
    rw [scanNumber, spanChars_append hwrites.chars hends]
    simp only [hwrites.scan, Option.map_some, List.length_nil, Nat.sub_zero, List.take_length,
      hread]
    rfl
  have hc : isNumeralChar c = true := hwrites.chars c (by rw [hcs]; exact List.mem_cons_self)
  rw [hcs, ofChars_cons, List.cons_append] at hnumber ⊢
  rw [scan_numeral hc, hnumber]
  rfl

/-! ### Items and members -/

/-- The items are found between a bracket that was read and the next one. -/
def ScansItems (items : List Json) (text : List Char) : Prop :=
  ∀ fuel rest, 2 * text.length + 1 ≤ fuel →
    scanItems fuel (Source.ofChars text ++ some ']' :: rest) = (ofItems items, some rest)

/-- The members are found between a brace that was read and the next one. -/
def ScansMembers (members : List (String × Json)) (text : List Char) : Prop :=
  ∀ fuel rest, 2 * text.length + 1 ≤ fuel →
    scanMembers fuel (Source.ofChars text ++ some '\x7d' :: rest) = (ofMembers members, some rest)

theorem scansItems_singleton {v : Json} {text ws : List Char} (hv : Scans v text) (hws : Blank ws) :
    ScansItems [v] (text ++ ws) := by
  intro fuel rest hfuel
  obtain ⟨fuel, rfl⟩ : ∃ fuel', fuel = fuel' + 1 := ⟨fuel - 1, by omega⟩
  rw [List.length_append] at hfuel
  rw [scanItems, ofChars_append, List.append_assoc,
    hv fuel _ (by omega) (ends_blank_append hws rfl _)]
  simp only [skip_blank_append hws, skip_cons (show isSpace ']' = false from rfl)]
  rfl

theorem scansItems_cons {v : Json} {items : List Json} {text texts : List Char} (hv : Scans v text)
    (hitems : ScansItems items texts) : ScansItems (v :: items) (text ++ ',' :: texts) := by
  intro fuel rest hfuel
  obtain ⟨fuel, rfl⟩ : ∃ fuel', fuel = fuel' + 1 := ⟨fuel - 1, by omega⟩
  rw [List.length_append, List.length_cons] at hfuel
  have hends : Ends (some ',' :: (Source.ofChars texts ++ some ']' :: rest)) := by
    intro c hc
    cases hc
    rfl
  rw [scanItems, ofChars_append, ofChars_cons, List.append_assoc, List.cons_append,
    hv fuel _ (by omega) hends]
  simp only [skip_cons (show isSpace ',' = false from rfl), hitems fuel rest (by omega)]
  rfl

/-- No item starts with a closing bracket. -/
theorem scan_bracket (fuel : Nat) (s : Source) : scan fuel (some ']' :: s) = (.fault, none) := by
  cases fuel with
  | zero => rfl
  | succ fuel =>
    rw [scan, skip_cons rfl]
    rfl

theorem scans_array {items : List Json} {text : List Char} (h : ScansItems items text) :
    Scans (.array items) ('[' :: text ++ [']']) := by
  intro fuel rest hfuel _
  rw [List.cons_append, List.length_cons, List.length_append, List.length_singleton] at hfuel
  obtain ⟨fuel, rfl⟩ : ∃ fuel', fuel = fuel' + 1 := ⟨fuel - 1, by omega⟩
  have hitems := h fuel rest (by omega)
  rw [← scanItems_skip] at hitems
  have hsource : Source.ofChars ('[' :: text ++ [']']) ++ rest =
      some '[' :: (Source.ofChars text ++ some ']' :: rest) := by
    rw [ofChars_append, ofChars_cons, List.append_assoc]
    rfl
  rw [hsource, scan, skip_cons rfl]
  simp only
  split
  · -- the first item is no bracket
    rename_i e
    rw [e] at hitems
    rcases fuel with - | fuel
    · cases (Prod.mk.inj hitems).2
    · rw [scanItems, scan_bracket] at hitems
      cases (Prod.mk.inj hitems).2
  · rw [hitems]
    rfl

theorem scans_array_nil : Scans (.array []) ['[', ']'] := by
  intro fuel rest hfuel _
  obtain ⟨fuel, rfl, -⟩ := exists_succ_of_le (by decide) hfuel
  rw [scan]
  rfl

/-- The members from one on that was read, by what follows it. -/
def followingMember (fuel : Nat) (m : Option String × Tree) :
    Source → List (Option String × Tree) × Option Source
  | some '\x7d' :: rest => ([m], some rest)
  | some ',' :: rest => (m :: (scanMembers fuel rest).1, (scanMembers fuel rest).2)
  | _ => ([m, (none, .fault)], none)

/-- A member: blanks, the key, a colon and the value. -/
theorem scanMembers_succ {k : String} {v : Json} {key text before : List Char}
    (hk : IsQuoted k key) (hv : Scans v text) (hbefore : Blank before) {fuel : Nat} {rest : Source}
    (hfuel : 2 * text.length ≤ fuel) (hends : Ends rest) :
    scanMembers (fuel + 1) (Source.ofChars (before ++ key ++ ':' :: text) ++ rest) =
      followingMember fuel (some k, ofJson v) (skip rest) := by
  obtain ⟨body, rfl, hkey⟩ := hk
  have hsource : Source.ofChars (before ++ ('"' :: body ++ ['"']) ++ ':' :: text) ++ rest =
      Source.ofChars before ++ some '"' :: (Source.ofChars body ++
        some '"' :: some ':' :: (Source.ofChars text ++ rest)) := by
    rw [ofChars_append, ofChars_append, ofChars_append, ofChars_cons, ofChars_cons]
    simp only [List.append_assoc, List.cons_append]
    rfl
  rw [hsource, scanMembers, skip_blank_append hbefore, skip_cons rfl]
  simp only [hkey, skip_cons (show isSpace ':' = false from rfl), hv fuel rest hfuel hends]
  rfl

theorem scansMembers_singleton {k : String} {v : Json} {key text before after : List Char}
    (hk : IsQuoted k key) (hv : Scans v text) (hbefore : Blank before) (hafter : Blank after) :
    ScansMembers [(k, v)] (before ++ key ++ ':' :: text ++ after) := by
  intro fuel rest hfuel
  obtain ⟨fuel, rfl⟩ : ∃ fuel', fuel = fuel' + 1 := ⟨fuel - 1, by omega⟩
  simp only [List.length_append, List.length_cons] at hfuel
  rw [ofChars_append, List.append_assoc, scanMembers_succ hk hv hbefore (by omega)
    (ends_blank_append hafter rfl _), skip_blank_append hafter, skip_cons rfl]
  rfl

theorem scansMembers_cons {k : String} {v : Json} {members : List (String × Json)}
    {key text before texts : List Char} (hk : IsQuoted k key) (hv : Scans v text)
    (hbefore : Blank before) (hmembers : ScansMembers members texts) :
    ScansMembers ((k, v) :: members) (before ++ key ++ ':' :: text ++ ',' :: texts) := by
  intro fuel rest hfuel
  obtain ⟨fuel, rfl⟩ : ∃ fuel', fuel = fuel' + 1 := ⟨fuel - 1, by omega⟩
  simp only [List.length_append, List.length_cons] at hfuel
  have hends : Ends (some ',' :: (Source.ofChars texts ++ some '\x7d' :: rest)) := by
    intro c hc
    cases hc
    rfl
  rw [ofChars_append, ofChars_cons, List.append_assoc, List.cons_append,
    scanMembers_succ hk hv hbefore (by omega) hends, skip_cons rfl, followingMember,
    hmembers fuel rest (by omega)]
  rfl

theorem scans_object {members : List (String × Json)} {text : List Char}
    (h : ScansMembers members text) : Scans (.object members) ('\x7b' :: text ++ ['\x7d']) := by
  intro fuel rest hfuel _
  rw [List.cons_append, List.length_cons, List.length_append, List.length_singleton] at hfuel
  obtain ⟨fuel, rfl⟩ : ∃ fuel', fuel = fuel' + 1 := ⟨fuel - 1, by omega⟩
  have hmembers := h fuel rest (by omega)
  rw [← scanMembers_skip] at hmembers
  have hsource : Source.ofChars ('\x7b' :: text ++ ['\x7d']) ++ rest =
      some '\x7b' :: (Source.ofChars text ++ some '\x7d' :: rest) := by
    rw [ofChars_append, ofChars_cons, List.append_assoc]
    rfl
  rw [hsource, scan, skip_cons rfl]
  simp only
  split
  · -- the first key is no brace
    rename_i e
    rw [e] at hmembers
    rcases fuel with - | fuel
    · cases (Prod.mk.inj hmembers).2
    · rw [scanMembers, skip_cons rfl] at hmembers
      cases (Prod.mk.inj hmembers).2
  · rw [hmembers]
    rfl

theorem scans_object_nil : Scans (.object []) ['\x7b', '\x7d'] := by
  intro fuel rest hfuel _
  obtain ⟨fuel, rfl, -⟩ := exists_succ_of_le (by decide) hfuel
  rw [scan]
  rfl

end Tree

/-! ### Documents -/

/-- All numbers of the value have a property. -/
inductive AllNumbers (P : Number → Prop) : Json → Prop where
  | null : AllNumbers P .null
  | bool (b : Bool) : AllNumbers P (.bool b)
  | number {n : Number} (h : P n) : AllNumbers P (.number n)
  | text (s : String) : AllNumbers P (.text s)
  | array {items : List Json} (h : ∀ v ∈ items, AllNumbers P v) : AllNumbers P (.array items)
  | object {members : List (String × Json)} (h : ∀ m ∈ members, AllNumbers P m.2) :
    AllNumbers P (.object members)

theorem AllNumbers.imp {P Q : Number → Prop} (h : ∀ n, P n → Q n) {v : Json}
    (hv : v.AllNumbers P) : v.AllNumbers Q := by
  induction hv with
  | null => exact .null
  | bool b => exact .bool b
  | number hn => exact .number (h _ hn)
  | text s => exact .text s
  | array _ ih => exact .array ih
  | object _ ih => exact .object ih

/-- All numbers of the value can be held by a document. -/
abbrev Storable (v : Json) : Prop := v.AllNumbers Number.Storable

/-- All numbers of the value are read back. -/
abbrev ReadsBack [FloatReader] (v : Json) : Prop := v.AllNumbers Number.ReadsBack

/-- An exact reader takes back what a document can hold. -/
theorem Storable.readsBack [FloatReader] [FloatReader.Exact] {v : Json} (h : v.Storable) :
    v.ReadsBack :=
  h.imp fun _ => Number.Storable.readsBack

open Json.Tree

theorem blank_nil : Blank [] := by simp [Blank]

theorem blank_newLine (level : Nat) : Blank (newLine level) := by
  intro c hc
  rcases List.mem_cons.mp hc with rfl | hc
  · rfl
  · rw [List.eq_of_mem_replicate hc]
    rfl

theorem ofBytes_toUTF8 (s : String) : Source.ofBytes s.toUTF8 = Source.ofText s := by
  have hvalid : String.fromUTF8? s.toUTF8 = some s := dif_pos s.isValidUTF8
  rw [Source.ofBytes, hvalid]

variable [FloatReader]

theorem scansItems_chars {items : List Json} (h : ∀ v ∈ items, Scans v v.chars)
    (hne : items ≠ []) : ScansItems items (charsItems items) := by
  induction items with
  | nil => exact absurd rfl hne
  | cons v rest ih =>
    obtain ⟨hv, hrest⟩ := List.forall_mem_cons.mp h
    rcases rest with - | ⟨w, rest⟩
    · have hitems := scansItems_singleton hv blank_nil
      rwa [List.append_nil] at hitems
    · exact scansItems_cons hv (ih hrest nofun)

theorem scansMembers_chars {members : List (String × Json)}
    (h : ∀ m ∈ members, Scans m.2 m.2.chars) (hne : members ≠ []) :
    ScansMembers members (charsMembers members) := by
  induction members with
  | nil => exact absurd rfl hne
  | cons m rest ih =>
    obtain ⟨k, v⟩ := m
    obtain ⟨hv, hrest⟩ := List.forall_mem_cons.mp h
    rcases rest with - | ⟨m', rest⟩
    · have hmembers := scansMembers_singleton (isQuoted_quote k) hv blank_nil blank_nil
      rwa [List.append_nil] at hmembers
    · have hmembers := scansMembers_cons (isQuoted_quote k) hv blank_nil (ih hrest nofun)
      exact hmembers

/-- **The compact text is scanned as the value.** -/
theorem scans_chars {v : Json} (h : v.ReadsBack) : Scans v v.chars := by
  induction h with
  | null => exact scans_null
  | bool b => exact scans_bool b
  | number hn => exact scans_number hn
  | text s => exact scans_text (isQuoted_quote s)
  | @array items _ ih =>
    rcases items with - | ⟨v, rest⟩
    · exact scans_array_nil
    · exact scans_array (scansItems_chars ih nofun)
  | @object members _ ih =>
    rcases members with - | ⟨m, rest⟩
    · exact scans_object_nil
    · exact scans_object (scansMembers_chars ih nofun)

theorem scansItems_prettyItems {items : List Json} {level : Nat} {after : List Char}
    (h : ∀ v ∈ items, Scans v (v.prettyChars level)) (hne : items ≠ []) (hafter : Blank after) :
    ScansItems items (prettyItems level items ++ after) := by
  induction items with
  | nil => exact absurd rfl hne
  | cons v rest ih =>
    obtain ⟨hv, hrest⟩ := List.forall_mem_cons.mp h
    have hline := hv.blank_append (blank_newLine level)
    rcases rest with - | ⟨w, rest⟩
    · exact scansItems_singleton hline hafter
    · have hitems := scansItems_cons hline (ih hrest nofun)
      rw [prettyItems, List.append_assoc, List.cons_append]
      · exact hitems
      · exact nofun

theorem scansMembers_prettyMembers {members : List (String × Json)} {level : Nat}
    {after : List Char} (h : ∀ m ∈ members, Scans m.2 (m.2.prettyChars level)) (hne : members ≠ [])
    (hafter : Blank after) : ScansMembers members (prettyMembers level members ++ after) := by
  induction members with
  | nil => exact absurd rfl hne
  | cons m rest ih =>
    obtain ⟨k, v⟩ := m
    obtain ⟨hv, hrest⟩ := List.forall_mem_cons.mp h
    have hspace : Blank [' '] := by
      intro c hc
      rw [List.mem_singleton.mp hc]
      rfl
    have hvalue := hv.blank_append hspace
    rcases rest with - | ⟨m', rest⟩
    · exact scansMembers_singleton (isQuoted_quote k) hvalue (blank_newLine level) hafter
    · have hmembers := scansMembers_cons (isQuoted_quote k) hvalue (blank_newLine level)
        (ih hrest nofun)
      rw [prettyMembers, List.append_assoc, List.cons_append]
      · exact hmembers
      · exact nofun

/-- **The text over several lines is scanned as the value.** -/
theorem scans_prettyChars {v : Json} (h : v.ReadsBack) (level : Nat) :
    Scans v (v.prettyChars level) := by
  induction h generalizing level with
  | null => exact scans_null
  | bool b => exact scans_bool b
  | number hn => exact scans_number hn
  | text s => exact scans_text (isQuoted_quote s)
  | @array items _ ih =>
    rcases items with - | ⟨v, rest⟩
    · exact scans_array_nil
    · have hitems := scansItems_prettyItems (fun v hv => ih v hv (level + 1)) nofun
        (blank_newLine level)
      exact scans_array hitems
  | @object members _ ih =>
    rcases members with - | ⟨m, rest⟩
    · exact scans_object_nil
    · have hmembers := scansMembers_prettyMembers (fun m hm => ih m hm (level + 1)) nofun
        (blank_newLine level)
      exact scans_object hmembers

/-- A source that is the text of a value, with blanks after it, is read to its end. -/
theorem read_of_scans_append {v : Json} {text ws : List Char} (h : Scans v text)
    (hws : Blank ws) : Tree.read (Source.ofChars (text ++ ws)) = (ofJson v, true) := by
  have hends : Ends (Source.ofChars ws) := by
    intro c hc
    obtain ⟨d, hd, hdc⟩ := List.mem_map.mp (List.mem_of_mem_head? hc)
    cases hdc
    by_contra hnumeral
    rw [Bool.not_eq_false] at hnumeral
    cases (isSpace_of_isNumeralChar hnumeral).symm.trans (hws c hd)
  have hskip : skip (Source.ofChars ws) = [] := by
    have hskip := skip_blank_append hws []
    rwa [List.append_nil] at hskip
  have hscan := h (2 * (text ++ ws).length + 2) (Source.ofChars ws)
    (by rw [List.length_append]; omega) hends
  rw [← ofChars_append] at hscan
  rw [Tree.read, Source.ofChars, List.length_map, ← Source.ofChars, hscan]
  simp only [hskip, List.isEmpty_nil]

/-- A source that is the text of a value and nothing more is read to its end. -/
theorem read_of_scans {v : Json} {text : List Char} (h : Scans v text) :
    Tree.read (Source.ofChars text) = (ofJson v, true) := by
  have hread := read_of_scans_append h blank_nil
  rwa [List.append_nil] at hread

theorem readText_of_scans {α : Type} {v : Json} {text : List Char} (h : Scans v text)
    (read : Tree → Except Fault α) :
    readText read (.ofBytes (String.ofList text).toUTF8) = read (ofJson v) := by
  rw [ofBytes_toUTF8, Source.ofText, String.toList_ofList, readText, read_of_scans h]
  simp only
  rcases read (ofJson v) with e | a <;> rfl

/-- **Reading the bytes of a compact text is reading the value.** -/
theorem readText_write {α : Type} {v : Json} (h : v.ReadsBack) (read : Tree → Except Fault α) :
    readText read (.ofBytes v.write.toUTF8) = read (ofJson v) :=
  readText_of_scans (scans_chars h) read

/-- **Reading the bytes of a text over several lines is reading the value.** -/
theorem readText_pretty {α : Type} {v : Json} (h : v.ReadsBack) (read : Tree → Except Fault α) :
    readText read (.ofBytes v.pretty.toUTF8) = read (ofJson v) :=
  readText_of_scans (scans_prettyChars h 0) read

end CampusQuery.Json
