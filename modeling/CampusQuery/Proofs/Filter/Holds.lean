/-
CampusQuery/Proofs/Filter/Holds.lean

Filters as conditions on one record, and the agreement of set-based selection with
them.

`Filter.Holds r f` looks at the record `r` alone and evaluates the tree as a Boolean
formula.  `Filter.select` never does that: it scans the store for every comparison and
combines sets of scan positions.  If all patterns are well formed the two agree
(`exists_select`), so the records selected are the satisfying ones in scan order
(`exists_selectOptional`).  If not, the first malformed pattern is reported, whatever
there is to select (`select_of_malformed`).
-/
import Mathlib.Data.List.Sort
import CampusQuery.Filter.Select
import CampusQuery.Proofs.Filter.Glob

namespace CampusQuery

namespace Filter

/-! ### The condition on a record -/

/-- The record satisfies the filter. -/
def Holds (r : Record) : Filter → Prop
  | .and parts => ∀ f ∈ parts, Holds r f
  | .or parts => ∃ f, ∃ _ : f ∈ parts, Holds r f
  | .not inner => ¬ Holds r inner
  | .compare relation field bound =>
    ∃ x, r.value? field = some (.number x) ∧ relation.holds x bound = true
  | .like field pattern =>
    ∃ s, r.value? field = some (.text s) ∧ Glob pattern.toList s.toList

/-- The patterns in the filter, depth first and from left to right. -/
def patterns : Filter → List String
  | .and parts => parts.flatMap patterns
  | .or parts => parts.flatMap patterns
  | .not inner => patterns inner
  | .compare _ _ _ => []
  | .like _ pattern => [pattern]

/-- All patterns in the filter are well formed. -/
def WellFormed (f : Filter) : Prop := ∀ p ∈ f.patterns, Wildcard.WellFormed p

theorem WellFormed.of_mem {f : Filter} {parts : List Filter}
    (h : ∀ p ∈ parts.flatMap patterns, Wildcard.WellFormed p) (hf : f ∈ parts) : f.WellFormed :=
  fun p hp => h p (List.mem_flatMap.mpr ⟨f, hf, hp⟩)

/-! ### Sets of positions -/

/-- The position is in the set exactly when the record there passes the test. -/
def Selects (store : RecordStore) (test : Record → Prop) (s : Positions) : Prop :=
  ∀ p, p ∈ s ↔ ∃ r, store.get? p = some r ∧ test r

variable {store : RecordStore} {test other : Record → Prop} {s t : Positions}

theorem lt_size_of_get? {p : Nat} {r : Record} (h : store.get? p = some r) : p < store.size :=
  (Array.getElem?_eq_some_iff.mp h).1

theorem selects_positions : Selects store (fun _ => True) store.positions := by
  intro p
  rw [RecordStore.positions, Positions.mem_below]
  constructor
  · rintro ⟨hp, -⟩
    exact ⟨_, Array.getElem?_eq_getElem hp, trivial⟩
  · rintro ⟨r, hr, -⟩
    exact ⟨lt_size_of_get? hr, rfl⟩

theorem selects_scan (f : Record → Bool) : Selects store (fun r => f r = true) (store.scan f) := by
  intro p
  rw [RecordStore.scan, Positions.mem_below, Option.any_eq_true]
  constructor
  · rintro ⟨-, h⟩
    exact h
  · rintro ⟨r, hr, h⟩
    exact ⟨lt_size_of_get? hr, r, hr, h⟩

theorem Selects.congr (h : Selects store test s) (e : ∀ r, test r ↔ other r) :
    Selects store other s := by
  intro p
  simp only [h p, e]

theorem Selects.intersect (hs : Selects store test s) (ht : Selects store other t) :
    Selects store (fun r => test r ∧ other r) (s.intersect t) := by
  intro p
  rw [Positions.mem_intersect, hs p, ht p]
  constructor
  · rintro ⟨⟨r, hr, h⟩, r', hr', h'⟩
    obtain rfl := Option.some.inj (hr.symm.trans hr')
    exact ⟨r, hr, h, h'⟩
  · rintro ⟨r, hr, h, h'⟩
    exact ⟨⟨r, hr, h⟩, r, hr, h'⟩

theorem Selects.union (hs : Selects store test s) (ht : Selects store other t) :
    Selects store (fun r => test r ∨ other r) (s.union t) := by
  intro p
  rw [Positions.mem_union, hs p, ht p]
  constructor
  · rintro (⟨r, hr, h⟩ | ⟨r, hr, h⟩)
    · exact ⟨r, hr, .inl h⟩
    · exact ⟨r, hr, .inr h⟩
  · rintro ⟨r, hr, h | h⟩
    · exact .inl ⟨r, hr, h⟩
    · exact .inr ⟨r, hr, h⟩

theorem Selects.subtract (hs : Selects store (fun _ => True) s) (ht : Selects store test t) :
    Selects store (fun r => ¬ test r) (s.subtract t) := by
  intro p
  rw [Positions.mem_subtract, hs p, ht p]
  constructor
  · rintro ⟨⟨r, hr, -⟩, h⟩
    exact ⟨r, hr, fun hr' => h ⟨r, hr, hr'⟩⟩
  · rintro ⟨r, hr, h⟩
    refine ⟨⟨r, hr, trivial⟩, ?_⟩
    rintro ⟨r', hr', h'⟩
    obtain rfl := Option.some.inj (hr.symm.trans hr')
    exact h h'

/-- Every filter of a list has its own set of positions. -/
abbrev SelectsAll (store : RecordStore) (parts : List Filter) (sets : List Positions) : Prop :=
  List.Forall₂ (fun f s => Selects store (Holds · f) s) parts sets

theorem selects_foldl_intersect {parts : List Filter} {sets : List Positions}
    (h : SelectsAll store parts sets) (hs : Selects store test s) :
    Selects store (fun r => test r ∧ ∀ f ∈ parts, Holds r f)
      (sets.foldl Positions.intersect s) := by
  induction h generalizing test s with
  | nil => exact hs.congr (by simp)
  | cons hf _ ih => exact (ih (hs.intersect hf)).congr (by simp [and_assoc])

theorem selects_meet {parts : List Filter} {sets : List Positions}
    (h : SelectsAll store parts sets) :
    Selects store (fun r => ∀ f ∈ parts, Holds r f) (meet store.positions sets) := by
  cases h with
  | nil => exact selects_positions.congr (by simp)
  | cons hf h => exact (selects_foldl_intersect h hf).congr (by simp)

theorem selects_foldl_union {parts : List Filter} {sets : List Positions}
    (h : SelectsAll store parts sets) (hs : Selects store test s) :
    Selects store (fun r => test r ∨ ∃ f, ∃ _ : f ∈ parts, Holds r f)
      (sets.foldl Positions.union s) := by
  induction h generalizing test s with
  | nil => exact hs.congr (by simp)
  | cons hf _ ih => exact (ih (hs.union hf)).congr (by simp [or_assoc])

theorem selects_join {parts : List Filter} {sets : List Positions}
    (h : SelectsAll store parts sets) :
    Selects store (fun r => ∃ f, ∃ _ : f ∈ parts, Holds r f) (join sets) := by
  have hempty : Selects store (fun _ => False) .empty := by
    intro p
    simp [Positions.mem_def, Positions.empty]
  exact (selects_foldl_union h hempty).congr (by simp)

/-! ### Selection -/

mutual

/-- **Selection is pointwise.**  If all patterns are well formed there is a selection,
and it has exactly the positions of the records that satisfy the filter. -/
theorem exists_select (store : RecordStore) (f : Filter) (hf : f.WellFormed) :
    ∃ s, f.select store = .ok s ∧ Selects store (Holds · f) s := by
  match f with
  | .and parts =>
    rw [WellFormed, patterns] at hf
    obtain ⟨sets, hsets, h⟩ := exists_selectAll store parts fun _ => WellFormed.of_mem hf
    refine ⟨_, by rw [select, hsets]; rfl, (selects_meet h).congr fun r => ?_⟩
    rw [Holds]
  | .or parts =>
    rw [WellFormed, patterns] at hf
    obtain ⟨sets, hsets, h⟩ := exists_selectAll store parts fun _ => WellFormed.of_mem hf
    refine ⟨_, by rw [select, hsets]; rfl, (selects_join h).congr fun r => ?_⟩
    rw [Holds]
  | .not inner =>
    rw [WellFormed, patterns] at hf
    obtain ⟨s, hs, h⟩ := exists_select store inner hf
    refine ⟨_, by rw [select, hs]; rfl, (selects_positions.subtract h).congr fun r => ?_⟩
    rw [Holds]
  | .compare relation field bound =>
    refine ⟨_, by rw [select], (selects_scan _).congr fun r => ?_⟩
    rw [Holds, Record.compares]
    rcases r.value? field with - | x | x <;> simp
  | .like field pattern =>
    have hp : Wildcard.WellFormed pattern := hf pattern (by simp [patterns])
    rcases hw : Wildcard.ofText? pattern with - | w
    · exact absurd hp (Wildcard.ofText?_eq_none_iff.mp hw)
    · refine ⟨_, by rw [select, hw], (selects_scan _).congr fun r => ?_⟩
      rw [Holds, Record.fits]
      rcases r.value? field with - | x | x <;> simp [Wildcard.fits_iff_glob hw]

/-- The same for each filter of a list. -/
theorem exists_selectAll (store : RecordStore) (parts : List Filter)
    (hf : ∀ f ∈ parts, f.WellFormed) :
    ∃ sets, selectAll store parts = .ok sets ∧ SelectsAll store parts sets := by
  match parts with
  | [] => exact ⟨[], by rw [selectAll], .nil⟩
  | f :: rest =>
    obtain ⟨s, hs, h⟩ := exists_select store f (hf f List.mem_cons_self)
    obtain ⟨sets, hsets, hall⟩ :=
      exists_selectAll store rest fun g hg => hf g (List.mem_cons_of_mem f hg)
    exact ⟨s :: sets, by rw [selectAll, hs, hsets]; rfl, .cons h hall⟩

end

/-! ### Malformed patterns -/

/-- The first malformed pattern in a list. -/
def firstMalformed? (patterns : List String) : Option String :=
  patterns.find? fun p => ¬ Wildcard.WellFormed p

theorem firstMalformed?_eq_none {patterns : List String} :
    firstMalformed? patterns = none ↔ ∀ p ∈ patterns, Wildcard.WellFormed p := by
  simp [firstMalformed?]

mutual

/-- **Malformed patterns are never masked.**  Selection fails with the first of them, whatever
records there are and whatever the other parts of the filter select. -/
theorem select_of_malformed (store : RecordStore) (f : Filter) {pattern : String}
    (h : firstMalformed? f.patterns = some pattern) :
    f.select store = .error (.invalidWildcard pattern) := by
  match f with
  | .and parts =>
    rw [patterns] at h
    rw [select, selectAll_of_malformed store parts h]
    rfl
  | .or parts =>
    rw [patterns] at h
    rw [select, selectAll_of_malformed store parts h]
    rfl
  | .not inner =>
    rw [patterns] at h
    rw [select, select_of_malformed store inner h]
    rfl
  | .compare _ _ _ =>
    rw [patterns] at h
    cases h
  | .like field p =>
    rw [patterns] at h
    obtain rfl : pattern = p := List.mem_singleton.mp (List.mem_of_find?_eq_some h)
    have hp : ¬ Wildcard.WellFormed pattern := by simpa using List.find?_some h
    rw [select, Wildcard.ofText?_eq_none_iff.mpr hp]

/-- The same for the filters of a list. -/
theorem selectAll_of_malformed (store : RecordStore) (parts : List Filter) {pattern : String}
    (h : firstMalformed? (parts.flatMap patterns) = some pattern) :
    selectAll store parts = .error (.invalidWildcard pattern) := by
  match parts with
  | [] => cases h
  | f :: rest =>
    rw [firstMalformed?, List.flatMap_cons, List.find?_append] at h
    rcases hf : firstMalformed? f.patterns with - | first
    · -- a well-formed part is selected, and the search goes on behind it
      have hrest : firstMalformed? (rest.flatMap patterns) = some pattern := by
        rwa [← firstMalformed?, hf, Option.none_or] at h
      obtain ⟨s, hs, -⟩ := exists_select store f (firstMalformed?_eq_none.mp hf)
      rw [selectAll, hs, selectAll_of_malformed store rest hrest]
      rfl
    · rw [← firstMalformed?, hf, Option.some_or] at h
      cases h
      rw [selectAll, select_of_malformed store f hf]

end

/-- **Selection is the pointwise semantics of the filter.**  If all patterns are well formed,
exactly the positions of the records that satisfy the filter are selected; otherwise the
first malformed pattern is reported, also by an empty store. -/
theorem select_pointwise (store : RecordStore) (f : Filter) :
    (f.WellFormed → ∃ s, f.select store = .ok s ∧
      ∀ p, p ∈ s ↔ ∃ r, store.get? p = some r ∧ f.Holds r) ∧
    (¬ f.WellFormed → ∃ pattern, firstMalformed? f.patterns = some pattern ∧
      f.select store = .error (.invalidWildcard pattern)) := by
  refine ⟨exists_select store f, fun hf => ?_⟩
  rcases h : firstMalformed? f.patterns with - | pattern
  · exact absurd (firstMalformed?_eq_none.mp h) hf
  · exact ⟨pattern, rfl, select_of_malformed store f h⟩

/-! ### The records selected -/

/-- Looking up all positions in turn gives the elements in turn. -/
theorem filterMap_range_filter {α : Type} (l : List α) (p : α → Bool) :
    (List.range l.length).filterMap (fun i => l[i]?.filter p) = l.filter p := by
  induction l with
  | nil => rfl
  | cons a l ih =>
    rw [List.length_cons, List.range_succ_eq_map, List.filterMap_cons, List.filterMap_map]
    have htail : ((fun i => (a :: l)[i]?.filter p) ∘ Nat.succ) = fun i => l[i]?.filter p := rfl
    rw [htail, ih, List.getElem?_cons_zero]
    by_cases ha : p a <;> simp [Option.filter, ha]

/-- A set of positions is the increasing list of those at which the test holds. -/
theorem Selects.toList_eq {p : Record → Bool} (h : Selects store (fun r => p r = true) s) :
    s.toList = (List.range store.size).filter fun i => (store.get? i).any p := by
  refine List.Pairwise.eq_of_mem_iff s.increasing (List.pairwise_lt_range.filter _) fun i => ?_
  rw [← Positions.mem_def, h i, List.mem_filter, List.mem_range, Option.any_eq_true]
  constructor
  · rintro ⟨r, hr, hp⟩
    exact ⟨lt_size_of_get? hr, r, hr, hp⟩
  · rintro ⟨-, h⟩
    exact h

/-- The records at the positions of a set are those that pass its test, in scan order. -/
theorem Selects.select_eq {p : Record → Bool} (h : Selects store (fun r => p r = true) s) :
    store.select s = store.records.toList.filter p := by
  have hget : ∀ i, store.get? i = store.records.toList[i]? := by
    intro i
    rw [RecordStore.get?, Array.getElem?_toList]
  rw [RecordStore.select, h.toList_eq, List.filterMap_filter, ← filterMap_range_filter]
  refine List.filterMap_congr fun i _ => ?_
  rw [hget i]
  rcases store.records.toList[i]? with - | r
  · rfl
  · by_cases hr : p r <;> simp [Option.filter, hr]

open Classical in
/-- **The records selected by an optional filter** are those that satisfy it, in scan
order; without a filter they are all records. -/
theorem exists_selectOptional (store : RecordStore) (f : Option Filter)
    (hf : ∀ g ∈ f, g.WellFormed) :
    ∃ s, selectOptional store f = .ok s ∧
      store.select s = store.records.toList.filter fun r => ∀ g ∈ f, g.Holds r := by
  rcases f with - | f
  · refine ⟨_, rfl, (selects_positions.congr fun r => ?_).select_eq⟩
    simp
  · obtain ⟨s, hs, h⟩ := exists_select store f (hf f rfl)
    refine ⟨s, hs, (h.congr fun r => ?_).select_eq⟩
    simp

end Filter

end CampusQuery
