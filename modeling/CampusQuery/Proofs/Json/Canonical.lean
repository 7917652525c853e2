/-
CampusQuery/Proofs/Json/Canonical.lean

Values that are the same after they were read.

Reading a document sorts the members of its objects and keeps one of each key, within a
limit on the depth of brackets.  A value is canonical (`Json.Canonical`) if its members
stand in that order already and its brackets are not too deep; such a value is what its
tree is read as (`toJson?_ofJson`).
-/
import CampusQuery.Json.Tree

namespace CampusQuery.Json

/-! ### Sorted members -/

/-- The keys increase. -/
def Increasing (members : List (String × Json)) : Prop := members.Pairwise fun a b => a.1 < b.1

theorem mem_insertMember {key : String} {value : Json} {members : List (String × Json)}
    {m : String × Json} (h : m ∈ insertMember key value members) :
    m = (key, value) ∨ m ∈ members := by
  induction members with
  | nil => simpa [insertMember] using h
  | cons e rest ih =>
    obtain ⟨k, v⟩ := e
    unfold insertMember at h
    split at h
    · simpa using h
    · split at h
      · exact (List.mem_cons.mp h).imp_right (List.mem_cons_of_mem _)
      · rcases List.mem_cons.mp h with rfl | h
        · exact .inr List.mem_cons_self
        · exact (ih h).imp_right (List.mem_cons_of_mem _)

/-- A member with a key of its own is put among the others. -/
theorem perm_insertMember {key : String} {value : Json} {members : List (String × Json)}
    (h : ∀ m ∈ members, m.1 ≠ key) :
    (insertMember key value members).Perm ((key, value) :: members) := by
  induction members with
  | nil => exact .refl _
  | cons e rest ih =>
    obtain ⟨k, v⟩ := e
    obtain ⟨hne, hrest⟩ := List.forall_mem_cons.mp h
    unfold insertMember
    split
    · exact .refl _
    · rw [if_neg (Ne.symm hne)]
      exact ((ih hrest).cons _).trans (.swap _ _ _)

theorem increasing_insertMember {key : String} {value : Json} {members : List (String × Json)}
    (h : Increasing members) : Increasing (insertMember key value members) := by
  induction members with
  | nil => exact List.pairwise_singleton _ _
  | cons e rest ih =>
    obtain ⟨k, v⟩ := e
    obtain ⟨hfirst, hrest⟩ := List.pairwise_cons.mp h
    unfold insertMember
    split
    · rename_i hlt
      refine List.pairwise_cons.mpr ⟨fun m hm => ?_, h⟩
      rcases List.mem_cons.mp hm with rfl | hm
      · exact hlt
      · exact String.lt_trans hlt (hfirst m hm)
    · split
      · -- the value under the key is replaced
        rename_i heq
        exact List.pairwise_cons.mpr ⟨fun m hm => heq ▸ hfirst m hm, hrest⟩
      · -- the member goes further down, behind a lesser key
        rename_i hnlt hne
        refine List.pairwise_cons.mpr ⟨fun m hm => ?_, ih hrest⟩
        rcases mem_insertMember hm with rfl | hm
        · exact Std.lt_of_le_of_ne (String.not_lt.mp hnlt) (Ne.symm hne)
        · exact hfirst m hm

theorem increasing_foldl_insertMember {members acc : List (String × Json)} (h : Increasing acc) :
    Increasing (members.foldl (fun sorted m => insertMember m.1 m.2 sorted) acc) := by
  induction members generalizing acc with
  | nil => exact h
  | cons m members ih => exact ih (increasing_insertMember h)

theorem increasing_sortMembers (members : List (String × Json)) :
    Increasing (sortMembers members) := increasing_foldl_insertMember .nil

theorem perm_foldl_insertMember {members acc : List (String × Json)}
    (h : ((acc ++ members).map Prod.fst).Nodup) :
    (members.foldl (fun sorted m => insertMember m.1 m.2 sorted) acc).Perm (acc ++ members) := by
  induction members generalizing acc with
  | nil => rw [List.append_nil]; exact .refl _
  | cons m members ih =>
    have hnew : ∀ x ∈ acc, x.1 ≠ m.1 := by
      intro x hx he
      rw [List.map_append, List.map_cons] at h
      exact List.nodup_append.mp h |>.2.2 x.1 (List.mem_map_of_mem hx) m.1 List.mem_cons_self he
    have hinsert : (insertMember m.1 m.2 acc ++ members).Perm (acc ++ m :: members) :=
      ((perm_insertMember hnew).append_right _).trans List.perm_middle.symm
    exact (ih ((hinsert.map _).nodup_iff.mpr h)).trans hinsert

/-- Where each key stands once, sorting keeps all members. -/
theorem perm_sortMembers {members : List (String × Json)} (h : (members.map Prod.fst).Nodup) :
    (sortMembers members).Perm members := perm_foldl_insertMember h

/-- A key beyond all others is put at the end. -/
theorem insertMember_of_lt {key : String} {value : Json} {members : List (String × Json)}
    (h : ∀ m ∈ members, m.1 < key) :
    insertMember key value members = members ++ [(key, value)] := by
  induction members with
  | nil => rfl
  | cons e rest ih =>
    obtain ⟨k, v⟩ := e
    obtain ⟨hk, hrest⟩ := List.forall_mem_cons.mp h
    rw [insertMember, if_neg (String.lt_asymm hk), if_neg (String.ne_of_lt hk).symm, ih hrest,
      List.cons_append]

theorem foldl_insertMember {members acc : List (String × Json)} (h : Increasing (acc ++ members)) :
    members.foldl (fun sorted m => insertMember m.1 m.2 sorted) acc = acc ++ members := by
  induction members generalizing acc with
  | nil => rw [List.append_nil]; rfl
  | cons m members ih =>
    have hlt : ∀ x ∈ acc, x.1 < m.1 := fun x hx =>
      (List.pairwise_append.mp h).2.2 x hx m List.mem_cons_self
    rw [List.append_cons] at h ⊢
    rw [List.foldl_cons, insertMember_of_lt hlt]
    exact ih h

/-- Members that increase are sorted. -/
theorem sortMembers_of_increasing {members : List (String × Json)} (h : Increasing members) :
    sortMembers members = members := foldl_insertMember h

/-! ### Canonical values -/

/-- The members of objects increase, and brackets are at most `depth` deep. -/
inductive Canonical : Nat → Json → Prop where
  | null {depth : Nat} : Canonical depth .null
  | bool {depth : Nat} (b : Bool) : Canonical depth (.bool b)
  | number {depth : Nat} (n : Number) : Canonical depth (.number n)
  | text {depth : Nat} (s : String) : Canonical depth (.text s)
  | array {depth : Nat} {items : List Json} (h : ∀ v ∈ items, Canonical depth v) :
    Canonical (depth + 1) (.array items)
  | object {depth : Nat} {members : List (String × Json)} (sorted : Increasing members)
    (h : ∀ m ∈ members, Canonical depth m.2) : Canonical (depth + 1) (.object members)

open Json.Tree

theorem itemsToJson?_ofItems {depth : Nat} {items : List Json}
    (h : ∀ v ∈ items, toJson? depth (ofJson v) = some v) :
    itemsToJson? depth (ofItems items) = some items := by
  induction items with
  | nil => rfl
  | cons v items ih =>
    obtain ⟨hv, hitems⟩ := List.forall_mem_cons.mp h
    rw [ofItems, itemsToJson?, hv]
    simp only [ih hitems, Option.map_some]

theorem membersToJson?_ofMembers {depth : Nat} {members : List (String × Json)}
    (h : ∀ m ∈ members, toJson? depth (ofJson m.2) = some m.2) :
    membersToJson? depth (ofMembers members) = some members := by
  induction members with
  | nil => rfl
  | cons m members ih =>
    obtain ⟨k, v⟩ := m
    obtain ⟨hv, hmembers⟩ := List.forall_mem_cons.mp h
    rw [ofMembers, membersToJson?, hv]
    simp only [ih hmembers, Option.map_some]

/-- **A canonical value is what its tree is read as.** -/
theorem toJson?_ofJson {depth : Nat} {v : Json} (h : Canonical depth v) :
    toJson? depth (ofJson v) = some v := by
  induction h with
  | null => rfl
  | bool b => rfl
  | number n => rfl
  | text s => rfl
  | array _ ih => rw [ofJson, toJson?, itemsToJson?_ofItems ih, Option.map_some]
  | object hsorted _ ih =>
    rw [ofJson, toJson?, membersToJson?_ofMembers ih, Option.map_some,
      sortMembers_of_increasing hsorted]

theorem Canonical.mono {depth depth' : Nat} (hle : depth ≤ depth') {v : Json}
    (h : Canonical depth v) : Canonical depth' v := by
  induction h generalizing depth' with
  | null => exact .null
  | bool b => exact .bool b
  | number n => exact .number n
  | text s => exact .text s
  | array _ ih =>
    obtain ⟨depth', rfl⟩ : ∃ d, depth' = d + 1 := ⟨depth' - 1, by omega⟩
    exact .array fun v hv => ih v hv (by omega)
  | object hsorted _ ih =>
    obtain ⟨depth', rfl⟩ : ∃ d, depth' = d + 1 := ⟨depth' - 1, by omega⟩
    exact .object hsorted fun m hm => ih m hm (by omega)

end CampusQuery.Json
