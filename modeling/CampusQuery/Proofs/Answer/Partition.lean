/-
CampusQuery/Proofs/Answer/Partition.lean

The groups of a list of records, whatever their index does.

A partition is built record by record: an array of groups, and a hash map from tuples of
values to positions in the array.  `Partition.Groups` is what both are after any number
of records: the groups are those of the different tuples, in the order of their first
appearance, each of all records with its tuple, and the index knows the position
of every tuple.  Adding a record keeps that (`Groups.add`), so the groups of a list
are known without the index (`partition_eq`).
-/
import CampusQuery.Answer.Group
import Mathlib.Data.List.Induction
import Mathlib.Data.List.Nodup
import Mathlib.Data.List.Perm.Subperm

namespace CampusQuery

namespace Partition

variable {p : Partition} {key : Record → List Scalar} {seen : List Record}

/-- The groups and the index are those of the records seen. -/
structure Groups (p : Partition) (key : Record → List Scalar) (seen : List Record) : Prop where
  groups : p.groups.toList.map Array.toList =
    (seen.map key).eraseDups.map fun tuple => seen.filter (key · == tuple)
  index : ∀ (tuple : List Scalar) (i : Nat),
    p.index[tuple]? = some i ↔ (seen.map key).eraseDups[i]? = some tuple

theorem groups_empty : empty.Groups key [] := by
  refine ⟨rfl, fun tuple i => ?_⟩
  simp [empty]

theorem eraseDups_append_singleton {α : Type} [BEq α] [LawfulBEq α] (l : List α) (a : α) :
    (l ++ [a]).eraseDups = if a ∈ l then l.eraseDups else l.eraseDups ++ [a] := by
  rw [List.eraseDups_append]
  by_cases h : a ∈ l
  · simp [h, List.removeAll]
  · simp [h, List.removeAll, List.eraseDups_cons]

theorem nodup_eraseDups {α : Type} [BEq α] [LawfulBEq α] (l : List α) : l.eraseDups.Nodup := by
  induction l using List.reverseRecOn with
  | nil => simp
  | append_singleton l a ih =>
    rw [eraseDups_append_singleton]
    split
    · exact ih
    · rename_i h
      rw [← List.mem_eraseDups] at h
      refine List.nodup_append.mpr ⟨ih, List.nodup_singleton a, ?_⟩
      rintro b hb c hc rfl
      rw [List.mem_singleton] at hc
      exact h (hc ▸ hb)

theorem eraseDups_of_nodup {α : Type} [BEq α] [LawfulBEq α] {l : List α} (h : l.Nodup) :
    l.eraseDups = l := by
  induction l with
  | nil => rfl
  | cons a l ih =>
    obtain ⟨ha, hl⟩ := List.nodup_cons.mp h
    have hothers : ∀ b ∈ l, (!b == a) = true := by
      intro b hb
      simpa using fun e : b = a => ha (e ▸ hb)
    rw [List.eraseDups_cons, List.filter_eq_self.mpr hothers, ih hl]

/-- The record joins the group of its tuple, and no other. -/
theorem filter_append_singleton (r : Record) (tuple : List Scalar) :
    (seen ++ [r]).filter (key · == tuple) =
      if key r = tuple then seen.filter (key · == tuple) ++ [r]
      else seen.filter (key · == tuple) := by
  by_cases h : key r = tuple <;> simp [h]

/-- Adding a record whose tuple has been seen. -/
theorem Groups.add_known {r : Record} {i : Nat} (h : p.Groups key seen)
    (hi : p.index[key r]? = some i) :
    Groups { p with groups := p.groups.modify i (·.push r) } key (seen ++ [r]) := by
  have hat := (h.index (key r) i).mp hi
  have hmem : key r ∈ seen.map key := by
    rw [← List.mem_eraseDups]
    exact List.mem_of_getElem? hat
  have hkeys : ((seen ++ [r]).map key).eraseDups = (seen.map key).eraseDups := by
    rw [List.map_append, List.map_singleton, eraseDups_append_singleton, if_pos hmem]
  refine ⟨?_, by rw [hkeys]; exact h.index⟩
  rw [hkeys, Array.toList_modify]
  refine List.ext_getElem? fun j => ?_
  have hj := congrArg (fun l => l[j]?) h.groups
  simp only [List.getElem?_map] at hj ⊢
  by_cases hij : i = j
  · subst hij
    rw [hat] at hj ⊢
    obtain ⟨members, hmembers, hlist⟩ := Option.map_eq_some_iff.mp hj
    rw [List.getElem?_modify_eq, hmembers, Option.map_eq_map, Option.map_some, Option.map_some,
      Option.map_some, Array.toList_push, hlist, filter_append_singleton, if_pos rfl]
  · rw [List.getElem?_modify_ne _ _ hij, hj]
    rcases htuple : (seen.map key).eraseDups[j]? with - | tuple
    · rfl
    · -- the tuple stands at one place only
      have hne : key r ≠ tuple := by
        rintro rfl
        have hi : i < (seen.map key).eraseDups.length := (List.getElem?_eq_some_iff.mp hat).1
        exact hij ((List.getElem?_inj hi (nodup_eraseDups _)).mp (hat.trans htuple.symm))
      simp only [Option.map_some]
      rw [filter_append_singleton, if_neg hne]

/-- Adding a record whose tuple is new. -/
theorem Groups.add_new {r : Record} (h : p.Groups key seen) (hnone : p.index[key r]? = none) :
    Groups ⟨p.index.insert (key r) p.groups.size, p.groups.push #[r]⟩ key (seen ++ [r]) := by
  have hnew : key r ∉ seen.map key := by
    intro hmem
    rw [← List.mem_eraseDups] at hmem
    obtain ⟨i, hi⟩ := List.mem_iff_getElem?.mp hmem
    rw [(h.index (key r) i).mpr hi] at hnone
    cases hnone
  have hkeys : ((seen ++ [r]).map key).eraseDups = (seen.map key).eraseDups ++ [key r] := by
    rw [List.map_append, List.map_singleton, eraseDups_append_singleton, if_neg hnew]
  have hsize : p.groups.size = (seen.map key).eraseDups.length := by
    simpa using congrArg List.length h.groups
  have hothers : ∀ tuple ∈ (seen.map key).eraseDups,
      (seen ++ [r]).filter (key · == tuple) = seen.filter (key · == tuple) := by
    intro tuple htuple
    rw [filter_append_singleton, if_neg]
    rintro rfl
    exact hnew (List.mem_eraseDups.mp htuple)
  have hfirst : seen.filter (key · == key r) = [] := by
    rw [List.filter_eq_nil_iff]
    intro s hs e
    exact hnew (List.mem_map.mpr ⟨s, hs, by simpa using e⟩)
  refine ⟨?_, fun tuple i => ?_⟩
  · rw [hkeys, Array.toList_push, List.map_append, List.map_append, h.groups,
      List.map_congr_left hothers, List.map_singleton, List.map_singleton,
      filter_append_singleton, if_pos rfl, hfirst]
    rfl
  · -- the new tuple stands at the end, and nowhere else
    have hlast : ∀ l : List (List Scalar), (l ++ [key r])[i]? = some tuple ↔
        l[i]? = some tuple ∨ i = l.length ∧ key r = tuple := by
      intro l
      rw [List.getElem?_append]
      split
      · simp [Nat.ne_of_lt ‹i < l.length›]
      · rcases Nat.eq_or_lt_of_not_lt ‹¬ i < l.length› with rfl | hlt
        · simp
        · have hpos : i - l.length ≠ 0 := by omega
          have hlong : l[i]? = none := List.getElem?_eq_none (Nat.le_of_lt hlt)
          simp [hpos, hlong, Nat.ne_of_gt hlt]
    rw [hkeys, Std.HashMap.getElem?_insert, hlast, ← h.index, ← hsize]
    by_cases hr : key r = tuple
    · subst hr
      simp [hnone, eq_comm]
    · simp [hr]

/-- Adding a record to the group of its tuple. -/
theorem Groups.add (h : p.Groups key seen) (r : Record) :
    (p.add (key r) r).Groups key (seen ++ [r]) := by
  rw [Partition.add]
  rcases hi : p.index[key r]? with - | i
  · exact h.add_new hi
  · exact h.add_known hi

theorem Groups.foldl (h : p.Groups key seen) (records : List Record) :
    (records.foldl (fun p r => p.add (key r) r) p).Groups key (seen ++ records) := by
  induction records generalizing p seen with
  | nil =>
    rw [List.append_nil]
    exact h
  | cons r records ih =>
    rw [List.append_cons]
    exact ih (h.add r)

end Partition

/-- **The groups of a list of records**, in the order in which their tuples appear: for each
tuple all records that have it. -/
theorem Transformation.partition_eq (t : Transformation) (records : List Record) :
    t.partition records = (records.map t.tuple).eraseDups.map fun tuple =>
      records.filter (t.tuple · == tuple) :=
  (Partition.groups_empty.foldl records).groups

/-- A group has a member, and its members are among the records. -/
theorem Transformation.of_mem_partition {t : Transformation} {records members : List Record}
    (h : members ∈ t.partition records) : members ≠ [] ∧ ∀ r ∈ members, r ∈ records := by
  rw [t.partition_eq] at h
  obtain ⟨tuple, htuple, rfl⟩ := List.mem_map.mp h
  obtain ⟨r, hr, rfl⟩ := List.mem_map.mp (List.mem_eraseDups.mp htuple)
  have hmem : r ∈ records.filter (t.tuple · == t.tuple r) :=
    List.mem_filter.mpr ⟨hr, beq_self_eq_true _⟩
  exact ⟨List.ne_nil_of_mem hmem, fun s hs => List.mem_of_mem_filter hs⟩

/-- There are no more groups than records. -/
theorem Transformation.length_partition_le (t : Transformation) (records : List Record) :
    (t.partition records).length ≤ records.length := by
  rw [t.partition_eq, List.length_map, ← List.length_map t.tuple]
  exact (List.subperm_of_subset (Partition.nodup_eraseDups _)
    fun _ => List.mem_eraseDups.mp).length_le

end CampusQuery
