/-
CampusQuery/Proofs/Dataset/Ingested.lean

What the records that come in from outside hold.

Records are ingested in two ways (`Record.Ingested`): as rows of a kind, and as the sections of a
course document.  Either way their numbers are those of documents, and the numbers of a text that
was read are finite, or integers that fit (`Json.storable_of_read?`).  Reading a record goes through
its fields one by one, so what every field keeps holds of the whole record (`readRecord_keeps`).
Together this makes ingested records storable (`Record.Ingested.storable`).
-/
import CampusQuery.Dataset.CourseDocument
import CampusQuery.Dataset.Store
import CampusQuery.Proofs.Catalog.Codec
import CampusQuery.Proofs.Decimal.Range
import CampusQuery.Proofs.Except

namespace CampusQuery

open Json (Slot Fault Number)
open Text (Source)

/-! ### Numbers of documents -/

namespace Json

theorem Number.storable_of_ofNumeral? [FloatReader] {literal : List Char} {numeral : Numeral}
    {n : Number} (h : Number.ofNumeral? literal numeral = some n) : n.Storable := by
  unfold Number.ofNumeral? at h
  -- whichever sign the integer has
  generalize (if numeral.negative then -(numeral.digits : Int) else numeral.digits) = i at h
  simp only at h
  split at h
  · rename_i hfits
    obtain rfl := Option.some.inj h
    simp only [Bool.and_eq_true, decide_eq_true_eq] at hfits
    exact ⟨hfits.1.2, hfits.2⟩
  · obtain ⟨hfinite, h⟩ := Option.ite_none_right_eq_some.mp h
    obtain rfl := Option.some.inj h
    exact hfinite

namespace Tree

/-- All numbers of the tree, as far as they have a value, can be held by a document. -/
inductive Storable : Tree → Prop where
  | fault : Storable .fault
  | null : Storable .null
  | bool (b : Bool) : Storable (.bool b)
  | number {n : Option Number} (h : ∀ m ∈ n, m.Storable) : Storable (.number n)
  | text (s : Option String) : Storable (.text s)
  | array {items : List Tree} (h : ∀ t ∈ items, Storable t) : Storable (.array items)
  | object {members : List (Option String × Tree)} (h : ∀ m ∈ members, Storable m.2) :
    Storable (.object members)

theorem storable_of_scanNumber [FloatReader] {s rest : Source} {n : Option Number}
    (h : scanNumber s = some (n, rest)) : (Tree.number n).Storable := by
  obtain ⟨⟨numeral, left⟩, -, he⟩ := Option.map_eq_some_iff.mp h
  cases he
  exact .number fun m hm => Number.storable_of_ofNumeral? hm

section Scan

variable [FloatReader]

section

-- what is known of a scan with less fuel
variable {fuel : Nat} (hscan : ∀ s, (scan fuel s).1.Storable)
  (hitems : ∀ s, ∀ t ∈ (scanItems fuel s).1, t.Storable)
  (hmembers : ∀ s, ∀ m ∈ (scanMembers fuel s).1, m.2.Storable)

include hitems hmembers in
theorem storable_scan_succ (s : Source) : (scan (fuel + 1) s).1.Storable := by
  unfold scan
  split
  · exact .null
  · exact .bool true
  · exact .bool false
  · split
    · exact .text _
    · exact .fault
  · split
    · exact .array (List.forall_mem_nil _)
    · exact .array (hitems _)
  · split
    · exact .object (List.forall_mem_nil _)
    · exact .object (hmembers _)
  · split
    · rename_i hnumber
      exact storable_of_scanNumber hnumber
    · exact .fault

include hscan hitems in
theorem storable_scanItems_succ (s : Source) : ∀ t ∈ (scanItems (fuel + 1) s).1, t.Storable := by
  unfold scanItems
  have hfirst := hscan s
  split
  · rename_i item heq
    rw [heq] at hfirst
    simpa using hfirst
  · rename_i item rest heq
    rw [heq] at hfirst
    split
    · simpa using hfirst
    · exact List.forall_mem_cons.mpr ⟨hfirst, hitems _⟩
    · simpa using ⟨hfirst, .fault⟩

include hscan hmembers in
theorem storable_scanMembers_succ (s : Source) :
    ∀ m ∈ (scanMembers (fuel + 1) s).1, m.2.Storable := by
  unfold scanMembers
  split
  · split
    · split
      · rename_i value _
        have hfirst := hscan value
        split
        · rename_i heq
          rw [heq] at hfirst
          simpa using hfirst
        · rename_i heq
          rw [heq] at hfirst
          split
          · simpa using hfirst
          · exact List.forall_mem_cons.mpr ⟨hfirst, hmembers _⟩
          · simpa using ⟨hfirst, .fault⟩
      · simpa using .fault
    · simpa using .fault
  · simpa using .fault

end

/-- **Trees that are read off a text are storable**, as far as the text can be read. -/
theorem storable_scan (fuel : Nat) :
    (∀ s, (scan fuel s).1.Storable) ∧
      (∀ s, ∀ t ∈ (scanItems fuel s).1, t.Storable) ∧
      ∀ s, ∀ m ∈ (scanMembers fuel s).1, m.2.Storable := by
  induction fuel with
  | zero =>
    refine ⟨fun s => .fault, fun s t ht => ?_, fun s m hm => ?_⟩
    · rw [List.mem_singleton.mp ht]
      exact .fault
    · rw [List.mem_singleton.mp hm]
      exact .fault
  | succ fuel ih =>
    obtain ⟨hscan, hitems, hmembers⟩ := ih
    exact ⟨storable_scan_succ hitems hmembers, storable_scanItems_succ hscan hitems,
      storable_scanMembers_succ hscan hmembers⟩

end Scan

theorem storable_ofJson {v : Json} (h : v.Storable) : (ofJson v).Storable := by
  induction h with
  | null => exact .null
  | bool b => exact .bool b
  | number hn => exact .number fun m hm => by cases hm; exact hn
  | text s => exact .text s
  | @array items _ ih =>
    rw [ofJson]
    refine .array ?_
    clear * - ih
    induction items with
    | nil => exact List.forall_mem_nil _
    | cons v items ihs =>
      obtain ⟨hv, hitems⟩ := List.forall_mem_cons.mp ih
      rw [ofItems]
      exact List.forall_mem_cons.mpr ⟨hv, ihs hitems⟩
  | @object members _ ih =>
    rw [ofJson]
    refine .object ?_
    clear * - ih
    induction members with
    | nil => exact List.forall_mem_nil _
    | cons m members ihs =>
      obtain ⟨k, v⟩ := m
      obtain ⟨hv, hmembers⟩ := List.forall_mem_cons.mp ih
      rw [ofMembers]
      exact List.forall_mem_cons.mpr ⟨hv, ihs hmembers⟩

theorem exists_of_mem_itemsToJson? {depth : Nat} {items : List Tree} {vs : List Json}
    (h : itemsToJson? depth items = some vs) {v : Json} (hv : v ∈ vs) :
    ∃ t ∈ items, toJson? depth t = some v := by
  induction items generalizing vs with
  | nil =>
    rw [itemsToJson?, Option.some.injEq] at h
    rw [← h] at hv
    cases hv
  | cons t items ih =>
    rw [itemsToJson?] at h
    split at h
    · rename_i w hw
      obtain ⟨ws, hws, rfl⟩ := Option.map_eq_some_iff.mp h
      rcases List.mem_cons.mp hv with rfl | hv
      · exact ⟨t, List.mem_cons_self, hw⟩
      · obtain ⟨u, hu, heq⟩ := ih hws hv
        exact ⟨u, List.mem_cons_of_mem _ hu, heq⟩
    · cases h

theorem exists_of_mem_membersToJson? {depth : Nat} {members : List (Option String × Tree)}
    {ms : List (String × Json)} (h : membersToJson? depth members = some ms) {m : String × Json}
    (hm : m ∈ ms) : ∃ e ∈ members, toJson? depth e.2 = some m.2 := by
  induction members generalizing ms with
  | nil =>
    rw [membersToJson?, Option.some.injEq] at h
    rw [← h] at hm
    cases hm
  | cons e members ih =>
    obtain ⟨key, t⟩ := e
    rcases key with - | key
    · rw [membersToJson?] at h
      cases h
    · rw [membersToJson?] at h
      split at h
      · rename_i w hw
        obtain ⟨ws, hws, rfl⟩ := Option.map_eq_some_iff.mp h
        rcases List.mem_cons.mp hm with rfl | hm
        · exact ⟨_, List.mem_cons_self, hw⟩
        · obtain ⟨u, hu, heq⟩ := ih hws hm
          exact ⟨u, List.mem_cons_of_mem _ hu, heq⟩
      · cases h

end Tree

theorem mem_of_mem_sortMembers {members : List (String × Json)} {m : String × Json}
    (h : m ∈ sortMembers members) : m ∈ members := by
  have hfold : ∀ (l acc : List (String × Json)),
      m ∈ l.foldl (fun sorted e => insertMember e.1 e.2 sorted) acc → m ∈ acc ∨ m ∈ l := by
    intro l
    induction l with
    | nil => exact fun acc h => .inl h
    | cons e l ih =>
      intro acc h
      rcases ih _ h with h | h
      · exact (mem_insertMember h).elim (fun e => .inr (e ▸ List.mem_cons_self)) .inl
      · exact .inr (List.mem_cons_of_mem _ h)
  exact (hfold members [] h).resolve_left List.not_mem_nil

theorem Tree.storable_of_toJson? {t : Tree} (ht : t.Storable) {depth : Nat} {v : Json}
    (h : t.toJson? depth = some v) : v.Storable := by
  induction ht generalizing depth v with
  | fault => cases h
  | null =>
    cases h
    exact .null
  | bool b =>
    cases h
    exact .bool b
  | number hn =>
    obtain ⟨m, hm, rfl⟩ := Option.map_eq_some_iff.mp h
    exact .number (hn m hm)
  | text s =>
    obtain ⟨s, -, rfl⟩ := Option.map_eq_some_iff.mp h
    exact .text s
  | array _ ih =>
    cases depth with
    | zero => cases h
    | succ depth =>
      obtain ⟨vs, hvs, rfl⟩ := Option.map_eq_some_iff.mp h
      refine .array fun v hv => ?_
      obtain ⟨t, ht, heq⟩ := exists_of_mem_itemsToJson? hvs hv
      exact ih t ht heq
  | object _ ih =>
    cases depth with
    | zero => cases h
    | succ depth =>
      obtain ⟨ms, hms, rfl⟩ := Option.map_eq_some_iff.mp h
      refine .object fun m hm => ?_
      obtain ⟨e, he, heq⟩ := exists_of_mem_membersToJson? hms (mem_of_mem_sortMembers hm)
      exact ih e he heq

theorem Tree.storable_read [FloatReader] (s : Source) : (Tree.read s).1.Storable := by
  have hscan := (Tree.storable_scan (2 * s.length + 2)).1 s
  unfold Tree.read
  split
  all_goals
    rename_i heq
    rw [heq] at hscan
    exact hscan

/-- **What a text is read as is storable.** -/
theorem storable_of_read? [FloatReader] {cs : List Char} {v : Json} (h : read? cs = some v) :
    v.Storable := by
  have hread := Tree.storable_read (.ofChars cs)
  unfold read? at h
  split at h
  · rename_i heq
    rw [heq] at hread
    exact Tree.storable_of_toJson? hread h
  · cases h

/-! ### Reading records field by field -/

variable {σ : Type} {P : σ → Prop}

/-- Whatever the field reads off a storable tree and sets, the property stays. -/
def Slot.Keeps (P : σ → Prop) (s : Slot σ) : Prop :=
  ∀ t : Tree, t.Storable → ∀ set, s.read t = .ok set → ∀ record, P record → P (set record)

theorem Slot.keeps_required {α : Type} {name : String} {read : Tree → Except Fault α}
    {set : α → σ → σ}
    (h : ∀ t a, t.Storable → read t = .ok a → ∀ record, P record → P (set a record)) :
    (Slot.required name read set).Keeps P := by
  intro t ht f hf record hrecord
  obtain ⟨a, ha, rfl⟩ := (map_eq_ok_iff (x := read t) (f := set)).mp hf
  exact h t a ht ha record hrecord

namespace Tree

variable {slots : List (Slot σ)}

theorem readMembers_keeps (hslots : ∀ s ∈ slots, s.Keeps P)
    {members : List (Option String × Tree)} (hmembers : ∀ m ∈ members, m.2.Storable)
    {seen : List String} {record result : σ}
    (h : readMembers slots members seen record = .ok result) (hrecord : P record) : P result := by
  induction members generalizing seen record with
  | nil =>
    rw [readMembers] at h
    split at h
    · cases h
    · cases h
      exact hrecord
  | cons m members ih =>
    obtain ⟨key, t⟩ := m
    obtain ⟨ht, hrest⟩ := List.forall_mem_cons.mp hmembers
    rcases key with - | key
    · rw [readMembers] at h
      cases h
    · rw [readMembers] at h
      split at h
      · -- a member that is no field
        split at h
        · cases h
        · exact ih hrest h hrecord
      · rename_i s hfind
        split at h
        · cases h
        · obtain ⟨set, hset, h⟩ := bind_eq_ok h
          have hkeeps := hslots s (List.mem_of_find?_eq_some hfind)
          exact ih hrest h (hkeeps t ht set hset record hrecord)

theorem readPositions_keeps (hslots : ∀ s ∈ slots, s.Keeps P) {items : List Tree}
    (hitems : ∀ t ∈ items, t.Storable) {expected : String} {whole length : Nat} {origin : Origin}
    {record result : σ}
    (h : readPositions expected whole origin slots items length record = .ok result)
    (hrecord : P record) : P result := by
  induction slots generalizing items length record with
  | nil =>
    rcases items with - | ⟨t, items⟩
    · cases h
      exact hrecord
    · cases origin <;> cases h
  | cons s slots ih =>
    obtain ⟨hs, hrest⟩ := List.forall_mem_cons.mp hslots
    rcases items with - | ⟨t, items⟩
    · rw [readPositions] at h
      split at h
      · exact ih hrest hitems h hrecord
      · cases h
    · obtain ⟨ht, hitems⟩ := List.forall_mem_cons.mp hitems
      rw [readPositions] at h
      obtain ⟨set, hset, h⟩ := bind_eq_ok h
      exact ih hrest hitems h (hs t ht set hset record hrecord)

/-- **A record has what its fields keep.** -/
theorem readRecord_keeps (hslots : ∀ s ∈ slots, s.Keeps P) {t : Tree} (ht : t.Storable)
    {origin : Origin} {name : String} {blank result : σ}
    (h : readRecord origin name slots blank t = .ok result) (hblank : P blank) : P result := by
  cases ht with
  | object hmembers => exact readMembers_keeps hslots hmembers h hblank
  | array hitems => exact readPositions_keeps hslots hitems h hblank
  | _ => cases h

/-! ### Fields -/

theorem isInt64_of_readInt64 {t : Tree} {i : Int} (h : readInt64 t = .ok i) : IsInt64 i := by
  unfold readInt64 readInteger at h
  split at h
  · split at h
    · cases h
      assumption
    · cases h
  · cases h

end Tree

theorem Number.isFinite_toBinary64 {n : Number} (h : n.Storable) :
    n.toBinary64.isFinite = true := by
  rcases n with i | x
  · refine Binary64.isFinite_ofInt_of_le ?_
    obtain ⟨hleast, hgreatest⟩ := h
    have hmin : Binary64.minInt64 = -(2 ^ 63 : Nat) := rfl
    have hmax : (Nat.pow 2 64 : Nat) = 2 ^ 64 := rfl
    omega
  · exact h

theorem Tree.isFinite_of_readBinary64 {t : Tree} (ht : t.Storable) {x : Binary64}
    (h : readBinary64 t = .ok x) : x.isFinite = true := by
  unfold readBinary64 at h
  split at h
  · cases ht with
    | number hn =>
      cases h
      exact Number.isFinite_toBinary64 (hn _ rfl)
  · cases h

end Json

open Json (Tree)

theorem isInt64_zero : IsInt64 0 := ⟨by decide, by decide⟩

theorem Section.storable_of_ofTree {t : Tree} (ht : t.Storable) {s : Section}
    (h : ofTree t = .ok s) : s.Storable := by
  refine Tree.readRecord_keeps ?_ ht h
    ⟨rfl, isInt64_zero, isInt64_zero, isInt64_zero, isInt64_zero⟩
  simp only [slots, List.forall_mem_cons, List.not_mem_nil, false_implies, implies_true, and_true]
  refine ⟨?dept, ?course, ?instructor, ?title, ?avg, ?pass, ?fail, ?audit, ?uuid, ?year⟩
  all_goals refine Json.Slot.keeps_required fun t v ht hv s hs => ?_
  case avg => exact { hs with avg := Tree.isFinite_of_readBinary64 ht hv }
  case pass => exact { hs with pass := Tree.isInt64_of_readInt64 hv }
  case fail => exact { hs with fail := Tree.isInt64_of_readInt64 hv }
  case audit => exact { hs with audit := Tree.isInt64_of_readInt64 hv }
  case year => exact { hs with year := Tree.isInt64_of_readInt64 hv }
  -- texts are no numbers
  all_goals exact { hs with }

theorem Room.storable_of_ofTree {t : Tree} (ht : t.Storable) {r : Room} (h : ofTree t = .ok r) :
    r.Storable := by
  refine Tree.readRecord_keeps ?_ ht h ⟨rfl, rfl, isInt64_zero⟩
  simp only [slots, List.forall_mem_cons, List.not_mem_nil, false_implies, implies_true, and_true]
  refine ⟨?fullname, ?shortname, ?number, ?name, ?address, ?lat, ?lon, ?seats, ?type, ?furniture,
    ?href⟩
  all_goals refine Json.Slot.keeps_required fun t v ht hv r hr => ?_
  case lat => exact { hr with lat := Tree.isFinite_of_readBinary64 ht hv }
  case lon => exact { hr with lon := Tree.isFinite_of_readBinary64 ht hv }
  case seats => exact { hr with seats := Tree.isInt64_of_readInt64 hv }
  all_goals exact { hr with }

theorem Record.storable_of_ofTree {kind : Kind} {t : Tree} (ht : t.Storable) {r : Record}
    (h : ofTree kind t = .ok r) : r.Storable := by
  cases kind
  · obtain ⟨s, hs, rfl⟩ := map_eq_ok_iff.mp h
    exact Section.storable_of_ofTree ht hs
  · obtain ⟨r, hr, rfl⟩ := map_eq_ok_iff.mp h
    exact Room.storable_of_ofTree ht hr

theorem exists_of_mem_mapM {α β : Type} {read : α → Except Fault β} {items : List α}
    {results : List β} (h : items.mapM read = .ok results) {b : β} (hb : b ∈ results) :
    ∃ a ∈ items, read a = .ok b := by
  induction items generalizing results with
  | nil =>
    cases h
    cases hb
  | cons a items ih =>
    rw [List.mapM_cons] at h
    obtain ⟨x, hx, h⟩ := bind_eq_ok h
    obtain ⟨xs, hxs, h⟩ := bind_eq_ok h
    cases h
    rcases List.mem_cons.mp hb with rfl | hb
    · exact ⟨a, List.mem_cons_self, hx⟩
    · obtain ⟨a', ha', heq⟩ := ih hxs hb
      exact ⟨a', List.mem_cons_of_mem _ ha', heq⟩

/-- **Rows that are accepted make storable records.** -/
theorem Record.storable_of_mem_readRows {kind : Kind} {rows : Json} (hrows : rows.Storable)
    {records : List Record} (h : readRows kind rows = .ok records) {r : Record}
    (hr : r ∈ records) : r.Storable := by
  cases hrows with
  | array hitems =>
    rename_i items
    have htrees := Tree.storable_ofJson (.array hitems)
    rw [Tree.ofJson] at htrees
    cases htrees with
    | array htrees =>
      obtain ⟨t, ht, heq⟩ := exists_of_mem_mapM (mapError_eq_ok h) hr
      exact storable_of_ofTree (htrees t ht) heq
  | _ => cases h

/-! ### Course documents -/

theorem isInt64_truncate (x : Binary64) : IsInt64 x.truncate := by
  have hrange : Binary64.minInt64 ≤ Binary64.maxInt64 := by decide
  rcases x with - | negative | ⟨negative, size⟩
  · exact isInt64_zero
  · cases negative
    · exact ⟨hrange, Int.le_refl _⟩
    · exact ⟨Int.le_refl _, hrange⟩
  · unfold Binary64.truncate
    simp only
    exact ⟨Int.le_max_left _ _, Int.max_le.mpr ⟨hrange, Int.min_le_left _ _⟩⟩

theorem Json.Storable.get? {v w : Json} (h : v.Storable) {key : String} (hw : v.get? key = some w) :
    w.Storable := by
  cases h with
  | object hmembers =>
    obtain ⟨m, hm, rfl⟩ := Option.map_eq_some_iff.mp hw
    exact hmembers m (List.mem_of_find?_eq_some hm)
  | _ => cases hw

theorem Json.Storable.isFinite_binary64? {v : Json} (h : v.Storable) {x : Binary64}
    (hx : v.binary64? = some x) : x.isFinite = true := by
  cases h with
  | number hn =>
    cases hx
    exact Number.isFinite_toBinary64 hn
  | _ => cases hx

namespace CourseDocument

theorem isInt64_of_year? {v : Json} {year : Int} (h : year? v = some year) : IsInt64 year := by
  unfold year? at h
  split at h
  · cases h
    exact isInt64_truncate _
  · obtain ⟨x, -, rfl⟩ := Option.map_eq_some_iff.mp h
    exact isInt64_truncate x
  · cases h

theorem storable_of_section? {entry : Json} (hentry : entry.Storable) {s : Section}
    (h : section? entry = some s) : s.Storable := by
  unfold section? at h
  simp only [Option.bind_eq_bind, Option.bind_eq_some_iff, Option.pure_def] at h
  obtain ⟨uuid, -, year, ⟨v, -, hyear⟩, label, -, dept, -, course, -, instructor, -, title, -, avg,
    ⟨w, hw, havg⟩, pass, -, fail, -, audit, -, h⟩ := h
  cases h
  refine ⟨(hentry.get? hw).isFinite_binary64? havg, isInt64_truncate pass, isInt64_truncate fail,
    isInt64_truncate audit, ?_⟩
  show IsInt64 (if isOverall label then overallYear else year)
  split
  · exact ⟨by decide, by decide⟩
  · exact isInt64_of_year? hyear

/-- **The sections of a course document are storable.** -/
theorem storable_of_mem_sectionsOfText [FloatReader] {text : String} {s : Section}
    (h : s ∈ sectionsOfText text) : s.Storable := by
  unfold sectionsOfText at h
  split at h
  · rename_i document hread
    unfold sections at h
    split at h
    · rename_i entries hentries
      obtain ⟨entry, hentry, hs⟩ := List.mem_filterMap.mp h
      cases (Json.storable_of_read? hread).get? hentries with
      | array hitems => exact storable_of_section? (hitems entry hentry) hs
    · cases h
  · cases h

end CourseDocument

/-! ### Ingested records -/

/-- The record comes in from outside: as a row that was accepted, or as a section of a course
document, whatever reads its fractions. -/
inductive Record.Ingested : Record → Prop where
  | row {kind : Kind} {rows : Json} {records : List Record} {r : Record} (hrows : rows.Storable)
    (h : readRows kind rows = .ok records) (hr : r ∈ records) : Ingested r
  | offering [FloatReader] {text : String} {s : Section}
    (h : s ∈ CourseDocument.sectionsOfText text) : Ingested (.course s)

/-- **Ingested records are storable.** -/
theorem Record.Ingested.storable {r : Record} (h : r.Ingested) : r.Storable := by
  cases h with
  | row hrows h hr => exact storable_of_mem_readRows hrows h hr
  | offering h => exact CourseDocument.storable_of_mem_sectionsOfText h

/-- Conversely, all storable records can come in as rows. -/
theorem RecordStore.Storable.ingested {s : RecordStore} (h : s.Storable) :
    ∀ r ∈ s.records.toList, r.Ingested := fun _ hr =>
  .row (Envelope.storable_rowsOf h) (Envelope.readRows_rowsOf h) hr

/-- The numbers of a storable record are finite. -/
theorem Record.Storable.isFinite {r : Record} (h : r.Storable) {field : Field} {x : Binary64}
    (hx : r.value? field = some (.number x)) : x.isFinite = true := by
  have hint {i : Int} (hi : IsInt64 i) : (Binary64.ofInt i).isFinite = true := by
    refine Binary64.isFinite_ofInt_of_le ?_
    obtain ⟨hleast, hgreatest⟩ := hi
    have hmin : Binary64.minInt64 = -(2 ^ 63 : Nat) := rfl
    have hmax : Binary64.maxInt64 = (2 ^ 63 : Nat) - 1 := rfl
    omega
  rcases r with s | r
  · obtain ⟨havg, hpass, hfail, haudit, hyear⟩ := h
    cases field <;> cases hx
    · exact havg
    · exact hint hpass
    · exact hint hfail
    · exact hint haudit
    · exact hint hyear
  · obtain ⟨hlat, hlon, hseats⟩ := h
    cases field <;> cases hx
    · exact hlat
    · exact hlon
    · exact hint hseats

end CampusQuery
