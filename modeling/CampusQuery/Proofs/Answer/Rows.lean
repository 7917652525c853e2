/-
CampusQuery/Proofs/Answer/Rows.lean

The values of rows that are built key by key.

`Row.Gives` says all there is to say about a row as a map from keys to values.  Rows are
built by folds of `Row.insert?`; where every step sets its key to the value that the key
is to have, the fold gives exactly these values (`get?_foldl_insert?`).
-/
import CampusQuery.Answer.Row

namespace CampusQuery.Row

/-- The row has a value under each of the keys, which is the given one, and none under
any other. -/
structure Gives (row : Row) (keys : List String) (value : String → Option Scalar) : Prop where
  given : ∀ key ∈ keys, ∃ v, value key = some v ∧ row.get? key = some v
  only : ∀ key ∉ keys, row.get? key = none

@[simp] theorem get?_empty (key : String) : empty.get? key = none := rfl

theorem get?_cons (key : String) (value : Scalar) (rest : List (String × Scalar)) (k : String) :
    get? ⟨(key, value) :: rest⟩ k = if key = k then some value else get? ⟨rest⟩ k := by
  rw [get?, get?]
  by_cases h : key = k
  · rw [if_pos h, List.find?_cons_of_pos (by simpa using h), Option.map_some]
  · rw [if_neg h, List.find?_cons_of_neg (by simpa using h)]

theorem get?_insert (row : Row) (key : String) (value : Scalar) (k : String) :
    (row.insert key value).get? k = if key = k then some value else row.get? k := by
  obtain ⟨entries⟩ := row
  rw [insert]
  induction entries with
  | nil => rw [setEntry, get?_cons]
  | cons e rest ih =>
    obtain ⟨k', v'⟩ := e
    rw [setEntry, get?_cons]
    by_cases hk : k' = key
    · rw [if_pos hk, get?_cons, hk]
      by_cases h : key = k
      · rw [if_pos h, if_pos h]
      · rw [if_neg h, if_neg h, if_neg h]
    · rw [if_neg hk, get?_cons, ih]
      by_cases h : k' = k
      · rw [if_pos h, if_pos h, if_neg (h ▸ Ne.symm hk)]
      · rw [if_neg h, if_neg h]

/-- A fold that sets every key to the value it is to have. -/
theorem get?_foldl_insert? {α : Type} {keyOf : α → String} {valueOf : α → Option Scalar}
    {value : String → Option Scalar} {items : List α}
    (h : ∀ i ∈ items, valueOf i = value (keyOf i) ∧ valueOf i ≠ none) (row : Row) (k : String) :
    (items.foldl (fun row i => row.insert? (keyOf i) (valueOf i)) row).get? k =
      if k ∈ items.map keyOf then value k else row.get? k := by
  induction items generalizing row with
  | nil => simp
  | cons i items ih =>
    obtain ⟨⟨hvalue, hsome⟩, hrest⟩ := List.forall_mem_cons.mp h
    obtain ⟨v, hv⟩ := Option.ne_none_iff_exists'.mp hsome
    rw [List.foldl_cons, ih hrest, hv, insert?, get?_insert]
    simp only [List.map_cons, List.mem_cons]
    by_cases hk : keyOf i = k
    · subst hk
      rw [if_pos rfl, if_pos (Or.inl rfl), ← hvalue, hv, ite_self]
    · simp only [if_neg hk, Ne.symm hk, false_or]

theorem get?_project (row : Row) (columns : List String) (k : String) :
    (row.project columns).get? k = if k ∈ columns then row.get? k else none := by
  rw [project]
  induction columns with
  | nil => rfl
  | cons c columns ih =>
    simp only [List.mem_cons]
    rcases hc : row.get? c with - | v
    · rw [List.filterMap_cons_none (by rw [hc, Option.map_none]), ih]
      by_cases hk : k = c
      · rw [hk, hc, ite_self, ite_self]
      · simp only [hk, false_or]
    · rw [List.filterMap_cons_some (by rw [hc, Option.map_some]), get?_cons, ih]
      by_cases hk : k = c
      · rw [if_pos hk.symm, if_pos (.inl hk), hk, hc]
      · simp only [if_neg (Ne.symm hk), hk, false_or]

end CampusQuery.Row
