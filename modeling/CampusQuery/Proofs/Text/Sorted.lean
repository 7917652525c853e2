/-
CampusQuery/Proofs/Text/Sorted.lean

Lists that are sorted by a text.

If each text is the key of one member only, the sorted list increases strictly
(`pairwise_lt_mergeSort`), and it is the only list of these members that does
(`mergeSort_eq_of_perm`): the order in which they were given does not matter.
-/
import Mathlib.Data.List.Nodup
import Mathlib.Data.String.Basic

namespace CampusQuery

variable {α : Type} {key : α → String} {l increasing : List α}

theorem pairwise_lt_mergeSort (h : (l.map key).Nodup) :
    (l.mergeSort fun a b => key a ≤ key b).Pairwise fun a b => key a < key b := by
  have hsorted : (l.mergeSort fun a b => key a ≤ key b).Pairwise
      fun a b => decide (key a ≤ key b) = true := by
    refine List.pairwise_mergeSort (fun a b c hab hbc => ?_) (fun a b => ?_) l
    · exact decide_eq_true (String.le_trans (of_decide_eq_true hab) (of_decide_eq_true hbc))
    · rw [Bool.or_eq_true, decide_eq_true_iff, decide_eq_true_iff]
      exact String.le_total _ _
  have hdistinct : (l.mergeSort fun a b => key a ≤ key b).Pairwise fun a b => key a ≠ key b :=
    List.pairwise_map.mp (((List.mergeSort_perm _ _).map key).nodup_iff.mpr h)
  exact (hsorted.and hdistinct).imp fun {a b} hab =>
    Std.lt_of_le_of_ne (of_decide_eq_true hab.1) hab.2

/-- Sorting brings a list with distinct keys in its only increasing order. -/
theorem mergeSort_eq_of_perm (key : α → String) (hperm : l.Perm increasing)
    (hincreasing : increasing.Pairwise fun a b => key a < key b) :
    (l.mergeSort fun a b => key a ≤ key b) = increasing := by
  have hnodup : (increasing.map key).Nodup :=
    List.pairwise_map.mpr (hincreasing.imp String.ne_of_lt)
  have hstrict := pairwise_lt_mergeSort ((hperm.map key).nodup_iff.mpr hnodup)
  refine List.Perm.eq_of_pairwise (fun a b _ _ hab hba => ?_) hstrict hincreasing
    ((List.mergeSort_perm _ _).trans hperm)
  exact absurd (String.lt_trans hab hba) (String.lt_irrefl _)

end CampusQuery
