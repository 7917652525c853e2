/-
CampusQuery/Filter/Positions.lean

Sets of scan positions.

A set is kept as its strictly increasing list, so that it can be walked in scan
order, and the operations on two sets are merges.  What a set means is membership:
`mem_intersect`, `mem_union` and `mem_subtract` say what the operations do to it.
-/

namespace CampusQuery

/-- A finite set of scan positions. -/
structure Positions where
  toList : List Nat
  increasing : toList.Pairwise (· < ·)

namespace Positions

instance : Membership Nat Positions := ⟨fun s p => p ∈ s.toList⟩

theorem mem_def {s : Positions} {p : Nat} : p ∈ s ↔ p ∈ s.toList := Iff.rfl

/-! ### Merges of increasing lists -/

/-- What is in both lists. -/
def common : List Nat → List Nat → List Nat
  | [], _ => []
  | _, [] => []
  | a :: as, b :: bs =>
    if a < b then common as (b :: bs)
    else if b < a then common (a :: as) bs
    else a :: common as bs
termination_by as bs => as.length + bs.length

/-- What is in one of the lists. -/
def merged : List Nat → List Nat → List Nat
  | [], bs => bs
  | as, [] => as
  | a :: as, b :: bs =>
    if a < b then a :: merged as (b :: bs)
    else if b < a then b :: merged (a :: as) bs
    else a :: merged as bs
termination_by as bs => as.length + bs.length

/-- What is in the first list alone. -/
def without : List Nat → List Nat → List Nat
  | [], _ => []
  | as, [] => as
  | a :: as, b :: bs =>
    if a < b then a :: without as (b :: bs)
    else if b < a then without (a :: as) bs
    else without as bs
termination_by as bs => as.length + bs.length

theorem mem_common {as bs : List Nat} (ha : as.Pairwise (· < ·)) (hb : bs.Pairwise (· < ·))
    {p : Nat} : p ∈ common as bs ↔ p ∈ as ∧ p ∈ bs := by
  fun_induction common as bs <;> grind [List.pairwise_cons]

theorem mem_merged {as bs : List Nat} {p : Nat} : p ∈ merged as bs ↔ p ∈ as ∨ p ∈ bs := by
  fun_induction merged as bs <;> grind

theorem mem_without {as bs : List Nat} (ha : as.Pairwise (· < ·)) (hb : bs.Pairwise (· < ·))
    {p : Nat} : p ∈ without as bs ↔ p ∈ as ∧ p ∉ bs := by
  fun_induction without as bs <;> grind [List.pairwise_cons]

theorem pairwise_common {as bs : List Nat} (ha : as.Pairwise (· < ·))
    (hb : bs.Pairwise (· < ·)) : (common as bs).Pairwise (· < ·) := by
  fun_induction common as bs <;> grind [List.pairwise_cons, mem_common]

theorem pairwise_merged {as bs : List Nat} (ha : as.Pairwise (· < ·))
    (hb : bs.Pairwise (· < ·)) : (merged as bs).Pairwise (· < ·) := by
  fun_induction merged as bs <;> grind [List.pairwise_cons, mem_merged]

theorem pairwise_without {as bs : List Nat} (ha : as.Pairwise (· < ·))
    (hb : bs.Pairwise (· < ·)) : (without as bs).Pairwise (· < ·) := by
  fun_induction without as bs <;> grind [List.pairwise_cons, mem_without]

/-! ### Operations on sets -/

/-- No position. -/
def empty : Positions := ⟨[], List.Pairwise.nil⟩

/-- The positions below `n` that pass a test. -/
def below (n : Nat) (test : Nat → Bool) : Positions :=
  ⟨(List.range n).filter test, (List.pairwise_lt_range (n := n)).filter _⟩

/-- The positions in both sets. -/
def intersect (s t : Positions) : Positions :=
  ⟨common s.toList t.toList, pairwise_common s.increasing t.increasing⟩

/-- The positions in one of the sets. -/
def union (s t : Positions) : Positions :=
  ⟨merged s.toList t.toList, pairwise_merged s.increasing t.increasing⟩

/-- The positions of the first set that are not in the second. -/
def subtract (s t : Positions) : Positions :=
  ⟨without s.toList t.toList, pairwise_without s.increasing t.increasing⟩

/-- The set of the positions in a list. -/
def ofList (l : List Nat) : Positions :=
  l.foldl (fun s p => s.union ⟨[p], List.pairwise_singleton _ p⟩) empty

@[simp] theorem mem_below {n : Nat} {test : Nat → Bool} {p : Nat} :
    p ∈ below n test ↔ p < n ∧ test p = true := by
  simp [mem_def, below]

@[simp] theorem mem_intersect {s t : Positions} {p : Nat} : p ∈ s.intersect t ↔ p ∈ s ∧ p ∈ t :=
  mem_common s.increasing t.increasing

@[simp] theorem mem_union {s t : Positions} {p : Nat} : p ∈ s.union t ↔ p ∈ s ∨ p ∈ t :=
  mem_merged

@[simp] theorem mem_subtract {s t : Positions} {p : Nat} : p ∈ s.subtract t ↔ p ∈ s ∧ p ∉ t :=
  mem_without s.increasing t.increasing

end Positions

end CampusQuery
