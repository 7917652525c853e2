/-
CampusQuery/Proofs/Answer/Passes.lean

Sorting by several keys is sorting by one key after the other.

The order of two rows is a total preorder of all rows in which no value is "not a number"
(`Order.Compares`), and sorting arranges rows by it.  As a sort keeps the order of rows that tie, a
sort by the second of two orders and then by the first is one sort by both
(`mergeSort_compareLex`).  So rows are put in the order of any number of keys by as many passes of
which each knows one key, and the last key has the first pass (`sort_eq_foldr`).
-/
import CampusQuery.Proofs.Answer.Order

namespace CampusQuery

/-! ### Two orders, one after the other -/

section Passes

variable {α : Type} {cmp₁ cmp₂ : α → α → Ordering}

/-- A sorted list of which each class of tied elements is sorted by a second order is sorted by
both. -/
theorem pairwise_compareLex [Std.TransCmp cmp₁] {l : List α}
    (hfirst : l.Pairwise fun a b => (cmp₁ a b).isLE = true)
    (hclass : ∀ a ∈ l, (l.filter (cmp₁ a · == .eq)).Pairwise fun a b => (cmp₂ a b).isLE = true) :
    l.Pairwise fun a b => (compareLex cmp₁ cmp₂ a b).isLE = true := by
  refine List.pairwise_iff_forall_sublist.mpr fun {a b} hab => ?_
  have hle := List.pairwise_iff_forall_sublist.mp hfirst hab
  have ha : a ∈ l := hab.subset List.mem_cons_self
  show ((cmp₁ a b).then (cmp₂ a b)).isLE = true
  rcases ho : cmp₁ a b with - | - | -
  · rfl
  · -- both elements are in the class of the first
    have htied : [a, b].Sublist (l.filter (cmp₁ a · == .eq)) := by
      have hfilter := hab.filter (cmp₁ a · == .eq)
      rwa [List.filter_cons_of_pos (by simp [Std.ReflCmp.compare_self]),
        List.filter_cons_of_pos (by simp [ho]), List.filter_nil] at hfilter
    exact List.pairwise_iff_forall_sublist.mp (hclass a ha) htied
  · rw [ho] at hle
    cases hle

/-- The class of an element in both orders, as a class of a class. -/
theorem filter_compareLex (a : α) (l : List α) :
    l.filter (compareLex cmp₁ cmp₂ a · == .eq) =
      (l.filter (cmp₁ a · == .eq)).filter (cmp₂ a · == .eq) := by
  rw [List.filter_filter]
  refine List.filter_congr fun b _ => ?_
  rw [compareLex, Bool.eq_iff_iff, Bool.and_eq_true, beq_iff_eq, beq_iff_eq, beq_iff_eq,
    Ordering.then_eq_eq, and_comm]

/-- **Two passes make one sort**: the second pass keeps what the first one did to elements that tie
in it. -/
theorem mergeSort_compareLex [Std.TransCmp cmp₁] [Std.TransCmp cmp₂] (l : List α) :
    (l.mergeSort fun a b => (compareLex cmp₁ cmp₂ a b).isLE) =
      (l.mergeSort fun a b => (cmp₂ a b).isLE).mergeSort fun a b => (cmp₁ a b).isLE := by
  have hsorted {cmp : α → α → Ordering} [Std.TransCmp cmp] (l : List α) :
      (l.mergeSort fun a b => (cmp a b).isLE).Pairwise fun a b => (cmp a b).isLE = true :=
    List.pairwise_mergeSort (fun _ _ _ => Std.TransCmp.isLE_trans) (fun _ _ => isLE_total) l
  have hperm := ((List.mergeSort_perm (l.mergeSort fun a b => (cmp₂ a b).isLE)
    fun a b => (cmp₁ a b).isLE).trans (List.mergeSort_perm l _)).symm
  refine eq_of_sorted_of_filter_eq ((List.mergeSort_perm l _).trans hperm) (hsorted l) ?_
    fun a _ => ?_
  · refine pairwise_compareLex (hsorted _) fun a _ => ?_
    rw [filter_mergeSort]
    exact (hsorted l).sublist List.filter_sublist
  · -- whatever the number of passes, the classes are those of the list that was given
    rw [filter_mergeSort, filter_compareLex, filter_compareLex, filter_mergeSort]
    calc (l.filter (cmp₁ a · == .eq)).filter (cmp₂ a · == .eq)
        = (l.filter (cmp₂ a · == .eq)).filter (cmp₁ a · == .eq) := List.filter_comm ..
      _ = ((l.mergeSort fun a b => (cmp₂ a b).isLE).filter (cmp₂ a · == .eq)).filter
            (cmp₁ a · == .eq) := by rw [filter_mergeSort]
      _ = ((l.mergeSort fun a b => (cmp₂ a b).isLE).filter (cmp₁ a · == .eq)).filter
            (cmp₂ a · == .eq) := List.filter_comm ..

end Passes

/-! ### Comparing rows -/

/-- A row can be compared if none of its entries is "not a number". -/
theorem Row.comparable_of_entries {row : Row}
    (h : ∀ e ∈ row.entries, e.2 ≠ .number .notANumber) : row.Comparable := by
  intro key hkey
  obtain ⟨e, hfind, hvalue⟩ := Option.map_eq_some_iff.mp hkey
  exact h e (List.mem_of_find?_eq_some hfind) hvalue

namespace Order

variable {o : Order} {rows : List Row}

/-- The comparison is a total preorder of the rows: the one in which a row stands before another if
under the first key on which they differ it has the lesser value. -/
structure Compares (o : Order) (rows : List Row) : Prop where
  before : ∀ a ∈ rows, ∀ b ∈ rows, o.compare a b = .lt ↔ o.Precedes a b
  tied : ∀ a ∈ rows, ∀ b ∈ rows, o.compare a b = .eq ↔ o.Ties a b
  swap : ∀ a ∈ rows, ∀ b ∈ rows, o.compare b a = (o.compare a b).swap
  total : ∀ a ∈ rows, ∀ b ∈ rows, (o.compare a b).isLE = true ∨ (o.compare b a).isLE = true
  trans : ∀ a ∈ rows, ∀ b ∈ rows, ∀ c ∈ rows, (o.compare a b).isLE = true →
    (o.compare b c).isLE = true → (o.compare a c).isLE = true

/-- **The comparison of rows** is a total preorder where every number is one. -/
theorem compares (h : ∀ row ∈ rows, row.Comparable) : o.Compares rows where
  before a ha b hb := compare_eq_lt (h a ha) (h b hb)
  tied a ha b hb := compare_eq_eq (h a ha) (h b hb)
  swap a ha b hb := by
    rw [compare, compare, compareOn_eq_ranked _ _ (h a ha) (h b hb),
      compareOn_eq_ranked _ _ (h b hb) (h a ha)]
    exact Std.OrientedCmp.eq_swap
  total a ha b hb := by
    rw [compare, compare, compareOn_eq_ranked _ _ (h a ha) (h b hb),
      compareOn_eq_ranked _ _ (h b hb) (h a ha), ← Bool.or_eq_true]
    exact isLE_total
  trans a ha b hb c hc hab hbc := by
    rw [compare, compareOn_eq_ranked _ _ (h a ha) (h b hb)] at hab
    rw [compare, compareOn_eq_ranked _ _ (h b hb) (h c hc)] at hbc
    rw [compare, compareOn_eq_ranked _ _ (h a ha) (h c hc)]
    exact Std.TransCmp.isLE_trans hab hbc

/-- Downwards every key is compared the other way round. -/
theorem compareOn_down (keys : List String) (a b : Row) :
    compareOn .down keys a b = (compareOn .up keys a b).swap := by
  induction keys with
  | nil => rfl
  | cons key keys ih => rw [compareOn, ih, compareOn, Ordering.swap_then, directed, directed]

/-! ### Sorting rows -/

/-- On rows that can be compared, sorting by a key and then others is sorting by the others
first. -/
theorem sort_cons {direction : Direction} {key : String} {keys : List String}
    (h : ∀ row ∈ rows, row.Comparable) :
    sort ⟨direction, key :: keys⟩ rows = sort ⟨direction, [key]⟩ (sort ⟨direction, keys⟩ rows) := by
  have hsorted : ∀ row ∈ sort ⟨direction, keys⟩ rows, row.Comparable := fun row hrow =>
    h row (List.mem_mergeSort.mp hrow)
  rw [sort_eq h, sort_eq hsorted, sort_eq h]
  have hone (a b : Row) : ranked direction [key] a b = rankedOn direction key a b :=
    Ordering.then_eq
  simp only [hone]
  exact mergeSort_compareLex rows

/-- **Sorting by several keys** is sorting by each of them, the last one first. -/
theorem sort_eq_foldr (direction : Direction) (keys : List String)
    (h : ∀ row ∈ rows, row.Comparable) :
    sort ⟨direction, keys⟩ rows =
      keys.foldr (fun key sorted => sort ⟨direction, [key]⟩ sorted) rows := by
  induction keys with
  | nil =>
    -- all rows tie, so they stay as they are
    exact List.mergeSort_of_pairwise (List.pairwise_of_forall fun _ _ => rfl)
  | cons key keys ih => rw [sort_cons h, ih, List.foldr_cons]

/-- No row of the sorted rows is greater than one that comes later. -/
theorem pairwise_sort (h : ∀ row ∈ rows, row.Comparable) :
    (o.sort rows).Pairwise fun a b => (o.compare a b).isLE = true := by
  have harranged := o.arranges_sort h
  refine harranged.sorted.imp_of_mem fun {a b} ha hb hab => ?_
  have ha' := harranged.perm.mem_iff.mp ha
  have hb' := harranged.perm.mem_iff.mp hb
  rw [← (compares h).before b hb' a ha', (compares h).swap a ha' b hb'] at hab
  revert hab
  cases o.compare a b <;> decide

/-- **Sorting rows** is the stable sort by all keys of the order.  Rows that miss a value come
before numbers, and numbers before texts, if the direction is up; downwards every key is compared
the other way round, but rows that tie on all keys keep their order in both directions. -/
theorem sort_lexicographic (o : Order) (h : ∀ row ∈ rows, row.Comparable) :
    o.Compares rows ∧
      (∀ keys a b, compare ⟨.down, keys⟩ a b = (compare ⟨.up, keys⟩ a b).swap) ∧
      (o.sort rows).Pairwise (fun a b => (o.compare a b).isLE = true) ∧
      (∀ sorted, o.Arranges rows sorted ↔ sorted = o.sort rows) ∧
      o.sort rows = o.keys.foldr (fun key sorted => sort ⟨o.direction, [key]⟩ sorted) rows := by
  refine ⟨compares h, fun keys a b => compareOn_down keys a b, pairwise_sort h, fun sorted => ?_,
    sort_eq_foldr o.direction o.keys h⟩
  constructor
  · exact fun harranged => harranged.unique h (arranges_sort h)
  · rintro rfl
    exact arranges_sort h

/-- Rows of which one has no seats, one has a text for them, and two have equal numbers. -/
def sampleRows : List Row :=
  [⟨[("name", .text "a")]⟩, ⟨[("name", .text "b"), ("seats", .number 0)]⟩,
    ⟨[("name", .text "c"), ("seats", .text "0")]⟩,
    ⟨[("name", .text "d"), ("seats", .number (.finite true 0))]⟩]

/-- The order by seats and then by a key that no row has, downwards. -/
def sampleOrder : Order := ⟨.down, ["seats", "floor"]⟩

example : (sampleOrder.sort sampleRows).map (·.get? "name") =
    [some (.text "c"), some (.text "b"), some (.text "d"), some (.text "a")] := by
  cbv

theorem comparable_sampleRows : ∀ row ∈ sampleRows, row.Comparable := by
  have hentries : ∀ row ∈ sampleRows, ∀ e ∈ row.entries, e.2 ≠ .number .notANumber := by
    decide +kernel
  exact fun row hrow => Row.comparable_of_entries (hentries row hrow)

theorem sort_lexicographic_sample : (∀ row ∈ sampleRows, row.Comparable) ∧
    sampleOrder.Compares sampleRows ∧
      sampleOrder.sort sampleRows =
        sort ⟨.down, ["seats"]⟩ (sort ⟨.down, ["floor"]⟩ sampleRows) ∧
      ∀ sorted, sampleOrder.Arranges sampleRows sorted ↔ sorted = sampleOrder.sort sampleRows := by
  obtain ⟨hcompares, -, -, hunique, hpasses⟩ := sampleOrder.sort_lexicographic comparable_sampleRows
  exact ⟨comparable_sampleRows, hcompares, hpasses, hunique⟩

end Order

end CampusQuery
