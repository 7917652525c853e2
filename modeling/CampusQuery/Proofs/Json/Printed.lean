/-
CampusQuery/Proofs/Json/Printed.lean

What the text of any value says.

A number that is not finite has no text of its own, and `null` is written for it; members are
written in whatever order they stand, also several of one key, and a reader sorts them and keeps the
last.  So the text of a value does not always give the value back, but it gives the value with these
changes made (`read?_chars_of_printable`): `Json.nulled` puts the nulls, and `Json.sorted` sorts.
The two changes can be made in any order (`sorted_nulled`).  Nothing else is asked of the value than
that its brackets are not too deep and its integers fit (`Json.Printable`).  Its text is one line
(`newline_not_mem_chars`).
-/
import CampusQuery.Proofs.Json.Members

namespace CampusQuery.Json

/-- The brackets are at most `depth` deep, and the integers fit into 64 bits, with sign or
without. -/
inductive Printable : Nat → Json → Prop where
  | null {depth : Nat} : Printable depth .null
  | bool {depth : Nat} (b : Bool) : Printable depth (.bool b)
  | integer {depth : Nat} {i : Int} (h : (Number.integer i).Storable) :
    Printable depth (.number (.integer i))
  | float {depth : Nat} (x : Binary64) : Printable depth (.number (.float x))
  | text {depth : Nat} (s : String) : Printable depth (.text s)
  | array {depth : Nat} {items : List Json} (h : ∀ v ∈ items, Printable depth v) :
    Printable (depth + 1) (.array items)
  | object {depth : Nat} {members : List (String × Json)} (h : ∀ m ∈ members, Printable depth m.2) :
    Printable (depth + 1) (.object members)

variable {v : Json} {depth : Nat} {members : List (String × Json)}

/-! ### Nulls for numbers that are not finite -/

/-- The value that is written for a number. -/
def Number.nulled : Number → Json
  | .integer i => .number (.integer i)
  | .float x => if x.isFinite then .number (.float x) else .null

mutual

/-- The value with `null` in the place of every number that is not finite. -/
def nulled : Json → Json
  | .number n => n.nulled
  | .array items => .array (nulledItems items)
  | .object members => .object (nulledMembers members)
  | v => v

/-- The same for the items of an array. -/
def nulledItems : List Json → List Json
  | [] => []
  | v :: rest => nulled v :: nulledItems rest

/-- The same for the values of members. -/
def nulledMembers : List (String × Json) → List (String × Json)
  | [] => []
  | (k, v) :: rest => (k, nulled v) :: nulledMembers rest

end

theorem nulledItems_eq_map (items : List Json) : nulledItems items = items.map nulled := by
  induction items with
  | nil => rfl
  | cons v items ih => rw [nulledItems, ih, List.map_cons]

theorem nulledMembers_eq_map (members : List (String × Json)) :
    nulledMembers members = members.map fun m => (m.1, m.2.nulled) := by
  induction members with
  | nil => rfl
  | cons m members ih => rw [nulledMembers, ih, List.map_cons]

theorem sortedMembers_eq_map (members : List (String × Json)) :
    sortedMembers members = members.map fun m => (m.1, m.2.sorted) := by
  induction members with
  | nil => rfl
  | cons m members ih => rw [sortedMembers, ih, List.map_cons]

theorem Number.chars_nulled (n : Number) : n.nulled.chars = n.write := by
  rcases n with i | x
  · rfl
  · rw [nulled]
    split
    · rfl
    · rename_i hx
      rcases x with - | negative | ⟨negative, size⟩
      · rfl
      · rfl
      · exact absurd rfl hx

theorem charsItems_map {f : Json → Json} {items : List Json}
    (h : ∀ v ∈ items, (f v).chars = v.chars) : charsItems (items.map f) = charsItems items := by
  induction items with
  | nil => rfl
  | cons v items ih =>
    obtain ⟨hv, hitems⟩ := List.forall_mem_cons.mp h
    rcases items with - | ⟨w, items⟩
    · exact hv
    · rw [List.map_cons, charsItems, charsItems, hv, ih hitems]
      · exact nofun
      · exact nofun

theorem charsMembers_map {f : Json → Json} {members : List (String × Json)}
    (h : ∀ m ∈ members, (f m.2).chars = m.2.chars) :
    charsMembers (members.map fun m => (m.1, f m.2)) = charsMembers members := by
  induction members with
  | nil => rfl
  | cons m members ih =>
    obtain ⟨k, v⟩ := m
    obtain ⟨hv, hmembers⟩ := List.forall_mem_cons.mp h
    rcases members with - | ⟨m', members⟩
    · exact congrArg (quote k ++ ':' :: ·) hv
    · rw [List.map_cons, charsMembers, charsMembers, hv, ih hmembers]
      · exact nofun
      · exact nofun

/-- The nulls have the texts of the numbers in whose place they are. -/
theorem chars_nulled (h : Printable depth v) : v.nulled.chars = v.chars := by
  induction h with
  | null => rfl
  | bool b => rfl
  | integer _ => rfl
  | float x => exact Number.chars_nulled (.float x)
  | text s => rfl
  | array _ ih => rw [nulled, nulledItems_eq_map, chars, chars, charsItems_map ih]
  | object _ ih => rw [nulled, nulledMembers_eq_map, chars, chars, charsMembers_map ih]

/-- With the nulls in it, a document can hold the value. -/
theorem storable_nulled (h : Printable depth v) : v.nulled.Storable := by
  induction h with
  | null => exact .null
  | bool b => exact .bool b
  | integer hi => exact .number hi
  | float x =>
    rw [nulled, Number.nulled]
    split
    · rename_i hx
      exact .number hx
    · exact .null
  | text s => exact .text s
  | array _ ih =>
    rw [nulled, nulledItems_eq_map]
    exact .array (List.forall_mem_map.mpr ih)
  | object _ ih =>
    rw [nulled, nulledMembers_eq_map]
    exact .object (List.forall_mem_map.mpr ih)

theorem printable_nulled (h : Printable depth v) : Printable depth v.nulled := by
  induction h with
  | null => exact .null
  | bool b => exact .bool b
  | integer hi => exact .integer hi
  | float x =>
    rw [nulled, Number.nulled]
    split
    · exact .float x
    · exact .null
  | text s => exact .text s
  | array _ ih =>
    rw [nulled, nulledItems_eq_map]
    exact .array (List.forall_mem_map.mpr ih)
  | object _ ih =>
    rw [nulled, nulledMembers_eq_map]
    exact .object (List.forall_mem_map.mpr ih)

/-! ### Sorting -/

theorem increasing_of_keys {keys : List String} (h : keys.Pairwise (· < ·))
    (hkeys : members.map Prod.fst = keys) : Increasing members :=
  List.pairwise_map.mp (hkeys ▸ h)

/-- Members are sorted by their keys, whatever their values are. -/
theorem insertMember_map (f : Json → Json) (key : String) (value : Json) :
    insertMember key (f value) (members.map fun m => (m.1, f m.2)) =
      (insertMember key value members).map fun m => (m.1, f m.2) := by
  induction members with
  | nil => rfl
  | cons m members ih =>
    obtain ⟨k, v⟩ := m
    rw [List.map_cons, insertMember, insertMember, ih]
    split
    · rfl
    · split <;> rfl

theorem sortMembers_map (f : Json → Json) (members : List (String × Json)) :
    sortMembers (members.map fun m => (m.1, f m.2)) =
      (sortMembers members).map fun m => (m.1, f m.2) := by
  have hfold : ∀ acc : List (String × Json),
      (members.map fun m => (m.1, f m.2)).foldl (fun sorted m => insertMember m.1 m.2 sorted)
          (acc.map fun m => (m.1, f m.2)) =
        (members.foldl (fun sorted m => insertMember m.1 m.2 sorted) acc).map
          fun m => (m.1, f m.2) := by
    induction members with
    | nil => exact fun _ => rfl
    | cons m members ih =>
      intro acc
      rw [List.map_cons, List.foldl_cons, List.foldl_cons, insertMember_map]
      exact ih _
  exact hfold []

/-- A printable value is no less so when it is sorted, and then it is canonical. -/
theorem printable_sorted (h : Printable depth v) : Printable depth v.sorted := by
  induction h with
  | null => exact .null
  | bool b => exact .bool b
  | integer hi => exact .integer hi
  | float x => exact .float x
  | text s => exact .text s
  | array _ ih =>
    rw [sorted, sortedItems_eq_map]
    exact .array (List.forall_mem_map.mpr ih)
  | object _ ih =>
    rw [sorted, sortedMembers_eq_map]
    refine .object fun m hm => ?_
    obtain ⟨m, hmem, rfl⟩ := List.mem_map.mp (mem_of_mem_sortMembers hm)
    exact ih m hmem

theorem canonical_sorted (h : Printable depth v) : Canonical depth v.sorted := by
  induction h with
  | null => exact .null
  | bool b => exact .bool b
  | integer _ => exact .number _
  | float x => exact .number _
  | text s => exact .text s
  | array _ ih =>
    rw [sorted, sortedItems_eq_map]
    exact .array (List.forall_mem_map.mpr ih)
  | object _ ih =>
    rw [sorted, sortedMembers_eq_map]
    refine .object (increasing_sortMembers _) fun m hm => ?_
    obtain ⟨m, hmem, rfl⟩ := List.mem_map.mp (mem_of_mem_sortMembers hm)
    exact ih m hmem

/-- Sorting what is canonical changes nothing. -/
theorem sorted_of_canonical (h : Canonical depth v) : v.sorted = v := by
  induction h with
  | null => rfl
  | bool b => rfl
  | number n => rfl
  | text s => rfl
  | @array depth items _ ih =>
    rw [sorted, sortedItems_eq_map, List.map_congr_left ih, List.map_id']
  | @object depth members hsorted _ ih =>
    have hmembers : (members.map fun m => (m.1, m.2.sorted)) = members := by
      rw [List.map_congr_left fun m hm => congrArg (Prod.mk m.1) (ih m hm), List.map_id']
    rw [sorted, sortedMembers_eq_map, hmembers, sortMembers_of_increasing hsorted]

/-- **Nulls can be put before sorting or after it.** -/
theorem sorted_nulled (h : Printable depth v) : v.nulled.sorted = v.sorted.nulled := by
  induction h with
  | null => rfl
  | bool b => rfl
  | integer _ => rfl
  | float x =>
    show (Number.float x).nulled.sorted = (Number.float x).nulled
    rw [Number.nulled]
    split <;> rfl
  | text s => rfl
  | @array depth items _ ih =>
    rw [sorted, nulled, nulled, sorted, sortedItems_eq_map, sortedItems_eq_map, nulledItems_eq_map,
      nulledItems_eq_map, List.map_map, List.map_map]
    exact congrArg array (List.map_congr_left ih)
  | @object depth members _ ih =>
    have hmembers : (members.map fun m => (m.1, m.2.nulled.sorted)) =
        members.map fun m => (m.1, m.2.sorted.nulled) :=
      List.map_congr_left fun m hm => congrArg (Prod.mk m.1) (ih m hm)
    rw [sorted, nulled, nulled, sorted, sortedMembers_eq_map, sortedMembers_eq_map,
      nulledMembers_eq_map, nulledMembers_eq_map, ← sortMembers_map nulled, List.map_map,
      List.map_map]
    exact congrArg (object ∘ sortMembers) hmembers

/-- A value says the same if it was sorted before. -/
theorem sorted_nulled_sorted (h : Printable depth v) :
    v.sorted.nulled.sorted = v.nulled.sorted := by
  rw [sorted_nulled (printable_sorted h), sorted_of_canonical (canonical_sorted h), sorted_nulled h]

/-! ### Reading -/

namespace Tree

theorem itemsToJson?_ofItems_map {f : Json → Json} {items : List Json}
    (h : ∀ v ∈ items, toJson? depth (ofJson v) = some (f v)) :
    itemsToJson? depth (ofItems items) = some (items.map f) := by
  induction items with
  | nil => rfl
  | cons v items ih =>
    obtain ⟨hv, hitems⟩ := List.forall_mem_cons.mp h
    rw [ofItems, itemsToJson?, hv]
    simp only [ih hitems, Option.map_some, List.map_cons]

theorem membersToJson?_ofMembers_map {f : Json → Json}
    (h : ∀ m ∈ members, toJson? depth (ofJson m.2) = some (f m.2)) :
    membersToJson? depth (ofMembers members) = some (members.map fun m => (m.1, f m.2)) := by
  induction members with
  | nil => rfl
  | cons m members ih =>
    obtain ⟨k, v⟩ := m
    obtain ⟨hv, hmembers⟩ := List.forall_mem_cons.mp h
    rw [ofMembers, membersToJson?, hv]
    simp only [ih hmembers, Option.map_some, List.map_cons]

/-- The tree of a value is read as the value in sorted order. -/
theorem toJson?_ofJson_of_printable (h : Printable depth v) :
    toJson? depth (ofJson v) = some v.sorted := by
  induction h with
  | null => rfl
  | bool b => rfl
  | integer _ => rfl
  | float x => rfl
  | text s => rfl
  | array _ ih =>
    rw [ofJson, toJson?, itemsToJson?_ofItems_map ih, Option.map_some, sorted, sortedItems_eq_map]
  | object _ ih =>
    rw [ofJson, toJson?, membersToJson?_ofMembers_map ih, Option.map_some, sorted,
      sortedMembers_eq_map]

end Tree

/-- **The text of a value says the value in sorted order, with its nulls.** -/
theorem read?_chars_of_printable [FloatReader] (h : Printable maxDepth v)
    (hback : v.nulled.ReadsBack) : read? v.chars = some v.nulled.sorted := by
  rw [← chars_nulled h, read?, read_of_scans (scans_chars hback)]
  exact Tree.toJson?_ofJson_of_printable (printable_nulled h)

/-- The text of an object whose keys increase says its members one by one. -/
theorem denotes_write_object (h : ∀ m ∈ members, Printable 126 m.2)
    (hincreasing : Increasing members) :
    Denotes (Json.object members).write.toList
      (.object (members.map fun m => (m.1, m.2.nulled.sorted))) := by
  intro _ _
  have hkeys : Increasing (members.map fun m => (m.1, m.2.nulled.sorted)) :=
    List.pairwise_map.mpr hincreasing
  have hprintable : Printable maxDepth (.object members) := .object h
  have hread := read?_chars_of_printable hprintable (storable_nulled hprintable).readsBack
  rw [write, String.toList_ofList, hread, nulled, sorted, nulledMembers_eq_map,
    sortedMembers_eq_map, List.map_map]
  exact congrArg (some ∘ object) (sortMembers_of_increasing hkeys)

/-! ### Lines -/

theorem newline_not_mem_escape (c : Char) : '\n' ∉ escape c := by
  unfold escape
  split
  case h_8 hnewline _ _ _ _ =>
    split
    · simp [newline_not_mem_hexByte]
    · rw [List.mem_singleton]
      exact fun h => hnewline h.symm
  all_goals decide

theorem newline_not_mem_quote (s : String) : '\n' ∉ quote s := by
  have hescaped : '\n' ∉ s.toList.flatMap escape := by
    rw [List.mem_flatMap]
    rintro ⟨c, -, hc⟩
    exact newline_not_mem_escape c hc
  simp [quote, hescaped]

theorem newline_not_mem_charsItems {items : List Json} (h : ∀ v ∈ items, '\n' ∉ v.chars) :
    '\n' ∉ charsItems items := by
  induction items with
  | nil => exact List.not_mem_nil
  | cons v items ih =>
    obtain ⟨hv, hitems⟩ := List.forall_mem_cons.mp h
    rcases items with - | ⟨w, items⟩
    · exact hv
    · rw [charsItems]
      · simp [hv, ih hitems]
      · exact nofun

theorem newline_not_mem_charsMembers (h : ∀ m ∈ members, '\n' ∉ m.2.chars) :
    '\n' ∉ charsMembers members := by
  induction members with
  | nil => exact List.not_mem_nil
  | cons m members ih =>
    obtain ⟨k, v⟩ := m
    obtain ⟨hv, hmembers⟩ := List.forall_mem_cons.mp h
    have hkey := newline_not_mem_quote k
    rcases members with - | ⟨m', members⟩
    · simp [charsMembers, hkey, hv]
    · rw [charsMembers]
      · simp [hkey, hv, ih hmembers]
      · exact nofun

/-- **The text of a value is one line.** -/
theorem newline_not_mem_chars (h : Printable depth v) : '\n' ∉ v.chars := by
  rw [← chars_nulled h]
  have hstorable := storable_nulled h
  generalize v.nulled = w at hstorable
  induction hstorable with
  | null => decide
  | bool b => cases b <;> decide
  | number hn =>
    obtain ⟨numeral, hwrites⟩ := Number.exists_writes hn
    exact fun hmem => absurd (hwrites.chars _ hmem) (by decide)
  | text s => exact newline_not_mem_quote s
  | array _ ih => simp [chars, newline_not_mem_charsItems ih]
  | object _ ih => simp [chars, newline_not_mem_charsMembers ih]

end CampusQuery.Json
