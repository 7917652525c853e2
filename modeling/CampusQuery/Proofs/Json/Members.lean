/-
CampusQuery/Proofs/Json/Members.lean

What a record takes from the members of its document.

A field takes its value from the member of its name, whatever stands before it or behind it
(`readMembers_field`), and where the members have different keys and every field can read its own,
the record can be read (`exists_readMembers`).  So a document says the same record in whatever order
its members stand.  `Spells` relates a content to the members that it is the text of.

The text of a value determines the value (`write_inj`), as far as documents can hold it.
-/
import CampusQuery.Proofs.Dataset.Ingested
import Mathlib.Data.List.Forall2
import Mathlib.Data.List.Nodup

namespace CampusQuery.Json

open Text (Source)

/-! ### Values and their texts -/

/-- A value whose numbers are read back is read back from its text. -/
theorem read?_chars [FloatReader] {v : Json} (hv : v.ReadsBack)
    (hcanonical : Canonical maxDepth v) : read? v.chars = some v := by
  rw [read?, read_of_scans (scans_chars hv)]
  exact toJson?_ofJson hcanonical

/-- Every exact reader takes the text as the value. -/
def Denotes (text : List Char) (v : Json) : Prop :=
  ∀ [FloatReader] [FloatReader.Exact], read? text = some v

/-- The text of a value that a document can hold denotes it. -/
theorem denotes_chars {v : Json} (hv : v.Storable) (hcanonical : Canonical maxDepth v) :
    Denotes v.chars v :=
  read?_chars hv.readsBack hcanonical

/-- **Different values have different texts.** -/
theorem write_inj {v w : Json} (hv : v.Storable) (hw : w.Storable)
    (hcanonical : Canonical maxDepth v) (hcanonical' : Canonical maxDepth w)
    (h : v.write = w.write) : v = w := by
  have hchars : v.chars = w.chars := String.ofList_injective h
  let _ := FloatReader.nearest
  have hread := denotes_chars hv hcanonical
  rw [hchars, denotes_chars hw hcanonical'] at hread
  exact (Option.some.inj hread).symm

/-! ### Trees that are values -/

namespace Tree

variable {depth : Nat} {t : Tree} {v : Json} {items : List Tree} {vs : List Json}
variable {trees : List (Option String × Tree)} {members : List (String × Json)}

/-- The values of members are those of their trees, one by one. -/
theorem membersToJson?_eq_some_iff : membersToJson? depth trees = some members ↔
    List.Forall₂ (fun e m => e.1 = some m.1 ∧ e.2.toJson? depth = some m.2) trees members := by
  induction trees generalizing members with
  | nil =>
    rw [membersToJson?, Option.some.injEq, List.forall₂_nil_left_iff, eq_comm]
  | cons e trees ih =>
    obtain ⟨key, t⟩ := e
    rw [List.forall₂_cons_left_iff]
    constructor
    · intro h
      rcases key with - | key
      · cases h
      · rw [membersToJson?] at h
        split at h
        · rename_i v hv
          obtain ⟨rest, hrest, rfl⟩ := Option.map_eq_some_iff.mp h
          exact ⟨(key, v), rest, ⟨rfl, hv⟩, ih.mp hrest, rfl⟩
        · cases h
    · rintro ⟨⟨key', v⟩, rest, ⟨rfl, hv⟩, hrest, rfl⟩
      rw [membersToJson?, hv]
      simp only [ih.mpr hrest, Option.map_some]

theorem exists_tree_of_mem {m : String × Json} (h : membersToJson? depth trees = some members)
    (hm : m ∈ members) : ∃ t, (some m.1, t) ∈ trees ∧ t.toJson? depth = some m.2 := by
  rw [membersToJson?_eq_some_iff] at h
  induction h with
  | nil => cases hm
  | @cons e first trees members he _ ih =>
    rcases List.mem_cons.mp hm with rfl | hm
    · exact ⟨e.2, he.1 ▸ List.mem_cons_self, he.2⟩
    · obtain ⟨t, ht, hv⟩ := ih hm
      exact ⟨t, List.mem_cons_of_mem _ ht, hv⟩

theorem exists_member_of_mem {e : Option String × Tree}
    (h : membersToJson? depth trees = some members) (he : e ∈ trees) :
    ∃ m ∈ members, e.1 = some m.1 ∧ e.2.toJson? depth = some m.2 := by
  rw [membersToJson?_eq_some_iff] at h
  induction h with
  | nil => cases he
  | @cons first m trees members hfirst _ ih =>
    rcases List.mem_cons.mp he with rfl | he
    · exact ⟨m, List.mem_cons_self, hfirst⟩
    · obtain ⟨m, hm, hv⟩ := ih he
      exact ⟨m, List.mem_cons_of_mem _ hm, hv⟩

theorem keys_of_membersToJson? (h : membersToJson? depth trees = some members) :
    trees.map Prod.fst = (members.map Prod.fst).map some := by
  rw [membersToJson?_eq_some_iff] at h
  induction h with
  | nil => rfl
  | cons he _ ih => rw [List.map_cons, ih, he.1, List.map_cons, List.map_cons]

theorem exists_of_mem_of_itemsToJson? (h : itemsToJson? depth items = some vs) (ht : t ∈ items) :
    ∃ v, t.toJson? depth = some v := by
  induction items generalizing vs with
  | nil => cases ht
  | cons first items ih =>
    rw [itemsToJson?] at h
    split at h
    · rename_i v hv
      obtain ⟨rest, hrest, -⟩ := Option.map_eq_some_iff.mp h
      rcases List.mem_cons.mp ht with rfl | ht
      · exact ⟨v, hv⟩
      · exact ih hrest ht
    · cases h

/-- What a tree is read as has its members in order, and is no deeper than allowed. -/
theorem canonical_of_toJson? (h : t.toJson? depth = some v) : Canonical depth v := by
  -- the values in brackets were read with one level less
  induction depth using Nat.strong_induction_on generalizing t v with
  | _ depth ih =>
    rcases t with - | - | b | n | s | items | trees
    · cases h
    · cases h
      exact .null
    · cases h
      exact .bool b
    · obtain ⟨n, -, rfl⟩ := Option.map_eq_some_iff.mp h
      exact .number n
    · obtain ⟨s, -, rfl⟩ := Option.map_eq_some_iff.mp h
      exact .text s
    · rcases depth with - | depth
      · cases h
      · obtain ⟨vs, hvs, rfl⟩ := Option.map_eq_some_iff.mp h
        refine .array fun v hv => ?_
        obtain ⟨t, -, ht⟩ := exists_of_mem_itemsToJson? hvs hv
        exact ih depth (Nat.lt_succ_self depth) ht
    · rcases depth with - | depth
      · cases h
      · obtain ⟨ms, hms, rfl⟩ := Option.map_eq_some_iff.mp h
        refine .object (increasing_sortMembers ms) fun m hm => ?_
        obtain ⟨e, -, he⟩ := exists_of_mem_membersToJson? hms (mem_of_mem_sortMembers hm)
        exact ih depth (Nat.lt_succ_self depth) he

theorem hasFaultItems_eq_false (h : ∀ t ∈ items, t.hasFault = false) :
    hasFaultItems items = false := by
  induction items with
  | nil => rfl
  | cons t items ih =>
    obtain ⟨ht, hitems⟩ := List.forall_mem_cons.mp h
    rw [hasFaultItems, ht, ih hitems]
    rfl

theorem hasFaultMembers_eq_false (h : ∀ e ∈ trees, e.2.hasFault = false) :
    hasFaultMembers trees = false := by
  induction trees with
  | nil => rfl
  | cons e trees ih =>
    obtain ⟨he, htrees⟩ := List.forall_mem_cons.mp h
    rw [hasFaultMembers, he, ih htrees]
    rfl

/-- What can be read as a value follows the grammar. -/
theorem hasFault_of_toJson? (h : t.toJson? depth = some v) : t.hasFault = false := by
  induction depth using Nat.strong_induction_on generalizing t v with
  | _ depth ih =>
    rcases t with - | - | b | n | s | items | trees
    · cases h
    · rfl
    · rfl
    · rfl
    · rfl
    · rcases depth with - | depth
      · cases h
      · obtain ⟨vs, hvs, -⟩ := Option.map_eq_some_iff.mp h
        refine hasFaultItems_eq_false fun t ht => ?_
        obtain ⟨v, hv⟩ := exists_of_mem_of_itemsToJson? hvs ht
        exact ih depth (Nat.lt_succ_self depth) hv
    · rcases depth with - | depth
      · cases h
      · obtain ⟨ms, hms, -⟩ := Option.map_eq_some_iff.mp h
        refine hasFaultMembers_eq_false fun e he => ?_
        obtain ⟨m, -, -, hm⟩ := exists_member_of_mem hms he
        exact ih depth (Nat.lt_succ_self depth) hm

/-- A value without brackets is read from one tree only. -/
theorem eq_ofJson_of_toJson? (h : t.toJson? depth = some v) (harray : ∀ items, v ≠ .array items)
    (hobject : ∀ members, v ≠ .object members) : t = ofJson v := by
  rcases t with - | - | b | n | s | items | trees
  · cases h
  · cases h
    rfl
  · cases h
    rfl
  · obtain ⟨n, rfl, rfl⟩ := Option.map_eq_some_iff.mp h
    rfl
  · obtain ⟨s, rfl, rfl⟩ := Option.map_eq_some_iff.mp h
    rfl
  · rcases depth with - | depth
    · cases h
    · obtain ⟨vs, -, rfl⟩ := Option.map_eq_some_iff.mp h
      exact absurd rfl (harray vs)
  · rcases depth with - | depth
    · cases h
    · obtain ⟨ms, -, rfl⟩ := Option.map_eq_some_iff.mp h
      exact absurd rfl (hobject _)

theorem eq_text_of_toJson? {s : String} (h : t.toJson? depth = some (.text s)) :
    t = ofJson (.text s) := by
  refine eq_ofJson_of_toJson? h ?_ ?_
  · intro items heq
    cases heq
  · intro members heq
    cases heq

theorem eq_number_of_toJson? {n : Number} (h : t.toJson? depth = some (.number n)) :
    t = ofJson (.number n) := by
  refine eq_ofJson_of_toJson? h ?_ ?_
  · intro items heq
    cases heq
  · intro members heq
    cases heq

theorem readAny_eq_ok_iff : readAny depth t = .ok v ↔ t.toJson? depth = some v := by
  unfold readAny
  split
  · rename_i w hw
    rw [hw, Except.ok.injEq, Option.some.injEq]
  · rename_i hnone
    rw [hnone]
    exact ⟨nofun, nofun⟩

end Tree

/-! ### Fields -/

variable {σ α : Type} {slots : List (Slot σ)} {key : String} {R : Tree → α → Prop} {get : σ → α}

/-- What a field does to the part `get` of a record, if this part belongs to the field `key`: the
field itself sets it to something that its tree stands for, and any other leaves it as it is. -/
def Slot.Sets (key : String) (R : Tree → α → Prop) (get : σ → α) (s : Slot σ) : Prop :=
  ∀ t set, s.read t = .ok set → ∀ record,
    if s.name = key then R t (get (set record)) else get (set record) = get record

theorem Slot.Sets.required {β : Type} {read : Tree → Except Fault β} {set : β → σ → σ}
    (h : ∀ t b, read t = .ok b → ∀ record, R t (get (set b record))) :
    (Slot.required key read set).Sets key R get := by
  intro t f hf record
  obtain ⟨b, hb, rfl⟩ := (map_eq_ok_iff (x := read t) (f := set)).mp hf
  rw [if_pos (show (Slot.required key read set).name = key from rfl)]
  exact h t b hb record

theorem Slot.Sets.required_of_ne {β : Type} {name : String} {read : Tree → Except Fault β}
    {set : β → σ → σ} (hne : name ≠ key) (h : ∀ b record, get (set b record) = get record) :
    (Slot.required name read set).Sets key R get := by
  intro t f hf record
  obtain ⟨b, -, rfl⟩ := (map_eq_ok_iff (x := read t) (f := set)).mp hf
  rw [if_neg (show (Slot.required name read set).name ≠ key from hne), h b record]

namespace Tree

variable {trees : List (Option String × Tree)} {seen : List String} {record result : σ}

/-- The member that comes first is a field and is read, or is none and is skipped. -/
theorem readMembers_cons {e : Option String × Tree}
    (h : readMembers slots (e :: trees) seen record = .ok result) : ∃ k, e.1 = some k ∧
      ((∀ s ∈ slots, s.name ≠ k) ∧ readMembers slots trees seen record = .ok result ∨
        ∃ s ∈ slots, s.name = k ∧ k ∉ seen ∧ ∃ set, s.read e.2 = .ok set ∧
          readMembers slots trees (k :: seen) (set record) = .ok result) := by
  obtain ⟨key, t⟩ := e
  rcases key with - | k
  · rw [readMembers] at h
    cases h
  · refine ⟨k, rfl, ?_⟩
    rw [readMembers] at h
    split at h
    · rename_i hnone
      split at h
      · cases h
      · exact .inl ⟨fun s hs => by simpa using List.find?_eq_none.mp hnone s hs, h⟩
    · rename_i s hfind
      split at h
      · cases h
      · rename_i hseen
        obtain ⟨set, hset, h⟩ := bind_eq_ok h
        exact .inr ⟨s, List.mem_of_find?_eq_some hfind, by simpa using List.find?_some hfind,
          by simpa using hseen, set, hset, h⟩

/-- Once a field was read, its part of the record stays, and its name does not come again. -/
theorem readMembers_of_seen (hslots : ∀ s ∈ slots, s.Sets key R get)
    (hkey : ∃ s ∈ slots, s.name = key) (hseen : key ∈ seen)
    (h : readMembers slots trees seen record = .ok result) :
    get result = get record ∧ ∀ e ∈ trees, e.1 ≠ some key := by
  induction trees generalizing seen record with
  | nil =>
    rw [readMembers] at h
    split at h
    · cases h
    · cases h
      exact ⟨rfl, List.forall_mem_nil _⟩
  | cons e trees ih =>
    obtain ⟨k, hk, ⟨hno, h⟩ | ⟨s, hs, rfl, hfresh, set, hset, h⟩⟩ := readMembers_cons h
    · obtain ⟨hget, hrest⟩ := ih hseen h
      obtain ⟨s, hs, rfl⟩ := hkey
      refine ⟨hget, List.forall_mem_cons.mpr ⟨fun he => ?_, hrest⟩⟩
      exact hno s hs (Option.some.inj (he.symm.trans hk))
    · have hne : s.name ≠ key := fun he => hfresh (he ▸ hseen)
      obtain ⟨hget, hrest⟩ := ih (List.mem_cons_of_mem _ hseen) h
      have hsets := hslots s hs e.2 set hset record
      rw [if_neg hne] at hsets
      refine ⟨hget.trans hsets, List.forall_mem_cons.mpr ⟨fun he => ?_, hrest⟩⟩
      exact hne (Option.some.inj (hk.symm.trans he))

/-- **A field takes its value from the member of its name.** -/
theorem readMembers_field (hslots : ∀ s ∈ slots, s.Sets key R get)
    (hkey : ∃ s ∈ slots, s.name = key) (hseen : key ∉ seen)
    (h : readMembers slots trees seen record = .ok result) {t : Tree}
    (ht : (some key, t) ∈ trees) : R t (get result) := by
  induction trees generalizing seen record with
  | nil => cases ht
  | cons e trees ih =>
    obtain ⟨k, hk, ⟨hno, h⟩ | ⟨s, hs, rfl, hfresh, set, hset, h⟩⟩ := readMembers_cons h
    · rcases List.mem_cons.mp ht with rfl | ht
      · obtain ⟨s, hs, rfl⟩ := hkey
        exact absurd (Option.some.inj hk) (hno s hs)
      · exact ih hseen h ht
    · have hsets := hslots s hs e.2 set hset record
      by_cases hname : s.name = key
      · -- this is the member of the field, and there is no other
        rw [if_pos hname] at hsets
        obtain ⟨hget, hrest⟩ :=
          readMembers_of_seen hslots hkey (by rw [hname]; exact List.mem_cons_self) h
        rcases List.mem_cons.mp ht with rfl | ht
        · rw [hget]
          exact hsets
        · exact absurd rfl (hrest _ ht)
      · rcases List.mem_cons.mp ht with rfl | ht
        · exact absurd (Option.some.inj hk).symm hname
        · refine ih ?_ h ht
          rw [List.mem_cons, not_or]
          exact ⟨fun he => hname he.symm, hseen⟩

/-- A field that must be there is there. -/
theorem exists_mem_of_readMembers {s : Slot σ} (hs : s ∈ slots) (hrequired : s.optional = false)
    (hseen : s.name ∉ seen) (h : readMembers slots trees seen record = .ok result) :
    ∃ t, (some s.name, t) ∈ trees := by
  induction trees generalizing seen record with
  | nil =>
    rw [readMembers] at h
    split at h
    · cases h
    · rename_i hnone
      have hthere := List.find?_eq_none.mp hnone s hs
      simp [hrequired, hseen] at hthere
  | cons e trees ih =>
    obtain ⟨k, hk, ⟨-, h⟩ | ⟨s', -, rfl, -, set, -, h⟩⟩ := readMembers_cons h
    · obtain ⟨t, ht⟩ := ih hseen h
      exact ⟨t, List.mem_cons_of_mem _ ht⟩
    · by_cases hname : s.name = s'.name
      · exact ⟨e.2, by rw [hname, ← hk]; exact List.mem_cons_self⟩
      · obtain ⟨t, ht⟩ := ih (by rw [List.mem_cons, not_or]; exact ⟨hname, hseen⟩) h
        exact ⟨t, List.mem_cons_of_mem _ ht⟩

/-- **A record can be read** if the keys are different, every field can read its member, and the
fields that must be there are there. -/
theorem exists_readMembers
    (hreads : ∀ e ∈ trees, ∃ k, e.1 = some k ∧ e.2.hasFault = false ∧
      ∀ s ∈ slots, s.name = k → ∃ set, s.read e.2 = .ok set)
    (hnodup : (trees.map Prod.fst).Nodup) (hfresh : ∀ k ∈ seen, some k ∉ trees.map Prod.fst)
    (hrequired : ∀ s ∈ slots, s.optional = false →
      s.name ∈ seen ∨ some s.name ∈ trees.map Prod.fst) :
    ∃ result, readMembers slots trees seen record = .ok result := by
  induction trees generalizing seen record with
  | nil =>
    have hnone : (slots.find? fun s => !s.optional && !seen.contains s.name) = none := by
      rw [List.find?_eq_none]
      intro s hs
      rcases hoptional : s.optional with - | -
      · simpa using hrequired s hs hoptional
      · simp
    exact ⟨record, by rw [readMembers, hnone]⟩
  | cons e trees ih =>
    obtain ⟨⟨k, hk, hfault, hread⟩, hrest⟩ := List.forall_mem_cons.mp hreads
    obtain ⟨key, t⟩ := e
    obtain rfl : key = some k := hk
    rw [List.map_cons, List.nodup_cons] at hnodup
    have hfresh' : ∀ k' ∈ seen, k' ≠ k ∧ some k' ∉ trees.map Prod.fst := fun k' hk' => by
      simpa using hfresh k' hk'
    rw [readMembers]
    split
    · -- no field has this name, so none is found here
      rename_i hnone
      have hne : ∀ s ∈ slots, s.name ≠ k := fun s hs => by
        simpa using List.find?_eq_none.mp hnone s hs
      rw [if_neg (by simp [hfault])]
      refine ih hrest hnodup.2 (fun k' hk' => (hfresh' k' hk').2) fun s hs hoptional => ?_
      refine (hrequired s hs hoptional).imp_right fun hthere => ?_
      simpa [hne s hs] using hthere
    · rename_i s hfind
      obtain ⟨set, hset⟩ := hread s (List.mem_of_find?_eq_some hfind)
        (by simpa using List.find?_some hfind)
      have hseen : ¬ seen.contains k = true := by
        simpa using fun hmem => (hfresh' k hmem).1 rfl
      rw [if_neg hseen, hset]
      refine ih hrest hnodup.2 (List.forall_mem_cons.mpr
        ⟨hnodup.1, fun k' hk' => (hfresh' k' hk').2⟩) fun s' hs' hoptional => ?_
      rcases hrequired s' hs' hoptional with hthere | hthere
      · exact .inl (List.mem_cons_of_mem _ hthere)
      · rcases List.mem_cons.mp hthere with he | hthere
        · exact .inl (Option.some.inj he ▸ List.mem_cons_self)
        · exact .inr hthere

end Tree

/-! ### Contents that spell members -/

variable [FloatReader]

theorem readText_eq_ok {read : Tree → Except Fault α} {s : Source} {a : α}
    (h : readText read s = .ok a) : read (Tree.read s).1 = .ok a := by
  obtain ⟨a', ha, h⟩ := bind_eq_ok (show (read (Tree.read s).1 >>= fun a =>
    if (Tree.read s).2 then pure a else throw .malformed) = _ from h)
  change (if (Tree.read s).2 then Except.ok a' else .error Fault.malformed) = .ok a at h
  split at h
  · cases h
    exact ha
  · cases h

/-- The content is the text of an object that has these members, in the order of the text. -/
def Spells (content : ByteArray) (members : List (String × Json)) : Prop :=
  ∃ trees, Tree.read (.ofBytes content) = (.object trees, true) ∧
    Tree.membersToJson? (maxDepth - 1) trees = some members

namespace Spells

variable {content : ByteArray} {members : List (String × Json)} {result blank : σ} {name : String}

/-- The text of an object spells its members. -/
theorem write (hback : Json.ReadsBack (.object members))
    (hcanonical : ∀ m ∈ members, Canonical (maxDepth - 1) m.2) :
    Spells (Json.object members).write.toUTF8 members := by
  refine ⟨Tree.ofMembers members, ?_, membersToJson?_ofMembers fun m hm =>
    toJson?_ofJson (hcanonical m hm)⟩
  rw [ofBytes_toUTF8, Source.ofText, Json.write, String.toList_ofList,
    read_of_scans (scans_chars hback)]
  rfl

theorem readText_eq {trees : List (Option String × Tree)}
    (h : Tree.read (.ofBytes content) = (.object trees, true)) :
    readText (Tree.readRecord .text name slots blank) (.ofBytes content) =
      Tree.readMembers slots trees [] blank := by
  rw [readText, h]
  show (Tree.readMembers slots trees [] blank >>= pure) = _
  rw [bind_pure]

/-- A field of the record is read off the member of its name. -/
theorem field (h : Spells content members)
    (hread : readText (Tree.readRecord .text name slots blank) (.ofBytes content) = .ok result)
    (hslots : ∀ s ∈ slots, s.Sets key R get) (hkey : ∃ s ∈ slots, s.name = key) {v : Json}
    (hv : (key, v) ∈ members) :
    ∃ t : Tree, t.toJson? (maxDepth - 1) = some v ∧ R t (get result) := by
  obtain ⟨trees, hscan, hmembers⟩ := h
  rw [readText_eq hscan] at hread
  obtain ⟨t, ht, hvalue⟩ := Tree.exists_tree_of_mem hmembers hv
  exact ⟨t, hvalue, Tree.readMembers_field hslots hkey List.not_mem_nil hread ht⟩

/-- A field that must be there is a member. -/
theorem exists_member (h : Spells content members)
    (hread : readText (Tree.readRecord .text name slots blank) (.ofBytes content) = .ok result)
    {s : Slot σ} (hs : s ∈ slots) (hrequired : s.optional = false) :
    ∃ v, (s.name, v) ∈ members := by
  obtain ⟨trees, hscan, hmembers⟩ := h
  rw [readText_eq hscan] at hread
  obtain ⟨t, ht⟩ := Tree.exists_mem_of_readMembers hs hrequired List.not_mem_nil hread
  obtain ⟨⟨k, v⟩, hm, hk, -⟩ := Tree.exists_member_of_mem hmembers ht
  obtain rfl := Option.some.inj hk
  exact ⟨v, hm⟩

/-- The member of a field is the one value that the part of the record was read off. -/
theorem mem_iff (h : Spells content members)
    (hread : readText (Tree.readRecord .text name slots blank) (.ofBytes content) = .ok result)
    (hslots : ∀ s ∈ slots, s.Sets key R get) (hkey : ∃ s ∈ slots, s.name = key ∧ s.optional = false)
    (value : α → Json)
    (hvalue : ∀ (t : Tree) a v, R t a → t.toJson? (maxDepth - 1) = some v → v = value a)
    {v : Json} : (key, v) ∈ members ↔ v = value (get result) := by
  obtain ⟨s, hs, rfl, hrequired⟩ := hkey
  have hunique : ∀ w, (s.name, w) ∈ members → w = value (get result) := by
    intro w hw
    obtain ⟨t, ht, hR⟩ := h.field hread hslots ⟨s, hs, rfl⟩ hw
    exact hvalue t _ w hR ht
  refine ⟨hunique v, ?_⟩
  rintro rfl
  obtain ⟨w, hw⟩ := h.exists_member hread hs hrequired
  rwa [hunique w hw] at hw

/-- A record is read off members without repeated keys, if each field can read its member. -/
theorem exists_record (h : Spells content members) (hnodup : (members.map Prod.fst).Nodup)
    (hreads : ∀ s ∈ slots, ∃ v, (s.name, v) ∈ members ∧
      ∀ t : Tree, t.toJson? (maxDepth - 1) = some v → ∃ set, s.read t = .ok set) :
    ∃ result,
      readText (Tree.readRecord .text name slots blank) (.ofBytes content) = .ok result := by
  obtain ⟨trees, hscan, hmembers⟩ := h
  have hkeys := Tree.keys_of_membersToJson? hmembers
  rw [readText_eq hscan]
  refine Tree.exists_readMembers (fun e he => ?_) ?_ (List.forall_mem_nil _) fun s hs _ => ?_
  · obtain ⟨⟨k, v⟩, hm, hk, hv⟩ := Tree.exists_member_of_mem hmembers he
    refine ⟨k, hk, Tree.hasFault_of_toJson? hv, ?_⟩
    rintro s hs rfl
    obtain ⟨v', hm', hread⟩ := hreads s hs
    -- there is one member with this key
    obtain rfl : v = v' := congrArg Prod.snd (List.inj_on_of_nodup_map hnodup hm hm' rfl)
    exact hread e.2 hv
  · rw [hkeys]
    exact hnodup.map (Option.some_injective _)
  · obtain ⟨v, hm, -⟩ := hreads s hs
    rw [hkeys]
    exact .inr (List.mem_map_of_mem (List.mem_map_of_mem hm))

end Spells

end CampusQuery.Json
