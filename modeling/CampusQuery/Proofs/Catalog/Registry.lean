/-
CampusQuery/Proofs/Catalog/Registry.lean

A registry as a finite map.

The operations are those of a map from ids to datasets (`find?_insert`, `find?_erase`),
and the map determines the registry (`eq_of_find?`).  Lists of what is registered do not
depend on the order in which the datasets are met (`inOrder_of_perm`).  What a user sees of
a registry is its `contents`: the kind and the records of each dataset.
-/
import CampusQuery.Catalog.Registry
import CampusQuery.Proofs.Dataset.Stores
import CampusQuery.Proofs.Text.Sorted
import Mathlib.Data.List.Pairwise
import Mathlib.Data.List.Sort
import Mathlib.Logic.Function.Basic

namespace CampusQuery

namespace Registry

variable {r r' : Registry} {x y : Dataset} {id : String}

/-! ### Finding -/

instance : Std.Irrefl fun a b : Dataset => a.id < b.id := ⟨fun a => String.lt_irrefl a.id⟩

instance : Std.Antisymm fun a b : Dataset => a.id < b.id :=
  ⟨fun _ _ hab hba => absurd (String.lt_trans hab hba) (String.lt_irrefl _)⟩

theorem eq_of_id_eq (hx : x ∈ r.datasets) (hy : y ∈ r.datasets) (h : x.id = y.id) : x = y := by
  by_contra hne
  have hids : r.datasets.Pairwise fun a b => a.id ≠ b.id := by
    refine r.increasing.imp fun {a b} hlt he => ?_
    rw [he] at hlt
    exact String.lt_irrefl _ hlt
  have : Std.Symm fun a b : Dataset => a.id ≠ b.id := ⟨fun _ _ hab => hab.symm⟩
  exact hids.forall hx hy hne h

theorem find?_eq_some_iff : r.find? id = some x ↔ x ∈ r.datasets ∧ x.id = id := by
  constructor
  · intro h
    exact ⟨List.mem_of_find?_eq_some h, by simpa using List.find?_some h⟩
  · rintro ⟨hx, rfl⟩
    rcases hfind : r.find? x.id with - | y
    · have hnone := List.find?_eq_none.mp hfind x hx
      simp at hnone
    · have hy : y.id = x.id := by simpa using List.find?_some hfind
      rw [eq_of_id_eq (List.mem_of_find?_eq_some hfind) hx hy]

theorem contains_iff : r.contains id = true ↔ ∃ x ∈ r.datasets, x.id = id := by
  simp [contains]

theorem ne_id_of_mem (h : r.contains id = false) (hx : x ∈ r.datasets) : x.id ≠ id := by
  intro he
  rw [contains_iff.mpr ⟨x, hx, he⟩] at h
  cases h

/-! ### Operations -/

theorem find?_cons_id (x : Dataset) (l : List Dataset) : (x :: l).find? (·.id == id) =
    if id = x.id then some x else l.find? (·.id == id) := by
  rw [List.find?_cons]
  split
  · rename_i h
    rw [if_pos (beq_iff_eq.mp h).symm]
  · rename_i h
    rw [if_neg fun he => beq_eq_false_iff_ne.mp h he.symm]

theorem find?_insertInto (l : List Dataset) :
    (insertInto x l).find? (·.id == id) = if id = x.id then some x else l.find? (·.id == id) := by
  induction l with
  | nil => exact find?_cons_id x []
  | cons e rest ih =>
    rw [insertInto]
    split
    · exact find?_cons_id x _
    · split
      · rename_i heq
        rw [find?_cons_id, find?_cons_id, ← heq]
        split
        · rfl
        · rfl
      · -- the dataset is inserted further on, so not under the id at hand
        rename_i hne
        rw [find?_cons_id, find?_cons_id, ih]
        by_cases he : id = e.id
        · rw [if_pos he, if_pos he, if_neg fun hx => hne (hx.symm.trans he)]
        · rw [if_neg he, if_neg he]

theorem find?_insert : (r.insert x).find? id = if id = x.id then some x else r.find? id :=
  find?_insertInto r.datasets

theorem find?_erase (removed : String) :
    (r.erase removed).find? id = if id = removed then none else r.find? id := by
  show (r.datasets.filter _).find? _ = _
  rw [List.find?_filter]
  split
  · rename_i h
    rw [List.find?_eq_none]
    intro x _
    simp [h]
  · rename_i h
    refine congrArg (fun p => r.datasets.find? p) (funext fun x => ?_)
    by_cases hx : x.id = id
    · simp [hx, h]
    · simp [hx]

/-- Registries that are equal as maps are equal. -/
theorem eq_of_find? (h : ∀ id, r.find? id = r'.find? id) : r = r' := by
  have hmem : ∀ (s : Registry) (x : Dataset), x ∈ s.datasets ↔ s.find? x.id = some x := by
    intro s x
    rw [find?_eq_some_iff]
    exact ⟨fun hx => ⟨hx, rfl⟩, And.left⟩
  have hlists : r.datasets = r'.datasets := by
    refine r.increasing.eq_of_mem_iff r'.increasing fun x => ?_
    rw [hmem, hmem, h]
  rcases r with ⟨datasets, increasing⟩
  rcases r' with ⟨datasets', increasing'⟩
  cases hlists
  rfl

theorem insertInto_of_lt {l : List Dataset} (h : ∀ e ∈ l, e.id < x.id) :
    insertInto x l = l ++ [x] := by
  induction l with
  | nil => rfl
  | cons e rest ih =>
    obtain ⟨he, hrest⟩ := List.forall_mem_cons.mp h
    have hlt : ¬ x.id < e.id := fun hlt => String.lt_irrefl _ (String.lt_trans he hlt)
    have hne : x.id ≠ e.id := fun heq => String.lt_irrefl _ (heq ▸ he)
    rw [insertInto, if_neg hlt, if_neg hne, ih hrest, List.cons_append]

theorem perm_insertInto {l : List Dataset} (h : ∀ e ∈ l, e.id ≠ x.id) :
    (x :: l).Perm (insertInto x l) := by
  induction l with
  | nil => exact .refl _
  | cons e l ih =>
    obtain ⟨he, hl⟩ := List.forall_mem_cons.mp h
    rw [insertInto]
    split
    · exact .refl _
    · rw [if_neg fun heq => he heq.symm]
      exact (List.Perm.swap e x l).trans ((ih hl).cons e)

theorem insert_erase (h : r.find? id = some x) : (r.erase id).insert x = r := by
  obtain ⟨-, hid⟩ := find?_eq_some_iff.mp h
  refine eq_of_find? fun other => ?_
  rw [find?_insert, find?_erase, hid]
  split
  · rename_i heq
    rw [heq, h]
  · rfl

theorem contains_erase (id : String) : (r.erase id).contains id = false := by
  rw [Bool.eq_false_iff]
  intro h
  obtain ⟨x, hx, hid⟩ := contains_iff.mp h
  simpa [hid] using (List.mem_filter.mp hx).2

/-- A dataset under a new id is one more. -/
theorem size_insert (h : r.contains x.id = false) : (r.insert x).size = r.size + 1 :=
  (perm_insertInto fun _ he => ne_id_of_mem h he).length_eq.symm

/-- A dataset that is erased is one less. -/
theorem size_erase (h : r.contains id = true) : (r.erase id).size + 1 = r.size := by
  obtain ⟨x, hx, rfl⟩ := contains_iff.mp h
  rw [← size_insert (contains_erase x.id), insert_erase (find?_eq_some_iff.mpr ⟨hx, rfl⟩)]

/-- Inserting datasets in the order of their ids lists them one after the other. -/
theorem datasets_foldl_insert {l : List Dataset} {s : Registry}
    (h : (s.datasets ++ l).Pairwise fun a b => a.id < b.id) :
    (l.foldl insert s).datasets = s.datasets ++ l := by
  induction l generalizing s with
  | nil => simp
  | cons x l ih =>
    have hx : (s.insert x).datasets = s.datasets ++ [x] :=
      insertInto_of_lt fun e he => (List.pairwise_append.mp h).2.2 e he x List.mem_cons_self
    rw [List.foldl_cons, ih]
    · rw [hx, List.append_assoc, List.singleton_append]
    · rw [hx, List.append_assoc, List.singleton_append]
      exact h

/-- A registry is made of its datasets. -/
theorem foldl_insert_empty (r : Registry) : r.datasets.foldl insert empty = r := by
  refine eq_of_find? fun id => ?_
  rw [find?, datasets_foldl_insert (s := empty) r.increasing]
  rfl

/-! ### Lists of what is registered -/

theorem increasing_map_listing (r : Registry) :
    (r.datasets.map Dataset.listing).Pairwise fun a b => a.id < b.id :=
  List.pairwise_map.mpr r.increasing

theorem increasing_map_id (r : Registry) :
    (r.datasets.map Dataset.id).Pairwise fun a b => a < b :=
  List.pairwise_map.mpr r.increasing

theorem listings_eq (r : Registry) : r.listings = r.datasets.map Dataset.listing :=
  mergeSort_eq_of_perm Listing.id (.refl _) r.increasing_map_listing

theorem listings_empty : empty.listings = [] := listings_eq empty

theorem ids_eq (r : Registry) : r.ids = r.datasets.map Dataset.id :=
  mergeSort_eq_of_perm id (.refl _) r.increasing_map_id

theorem mem_listings {l : Listing} : l ∈ r.listings ↔ ∃ x ∈ r.datasets, x.listing = l := by
  rw [listings_eq, List.mem_map]

theorem increasing_ids (r : Registry) : r.ids.Pairwise fun a b => a < b := by
  rw [ids_eq]
  exact r.increasing_map_id

/-- **Every list is canonical**, in whatever order the datasets are met from which it is
made: with the entry of a new dataset put last, with the entry of a dataset left out, or as
they are. -/
theorem inOrder_of_perm {l : List Dataset} (h : l.Perm r.datasets) :
    Listing.inOrder (l.map Dataset.listing) = r.listings ∧
      (l.map Dataset.id).mergeSort (fun a b => a ≤ b) = r.ids ∧
      (∀ x, r.contains x.id = false →
        Listing.inOrder (l.map Dataset.listing ++ [x.listing]) = (r.insert x).listings) ∧
      ∀ id, Listing.inOrder ((l.filter (·.id != id)).map Dataset.listing) =
        (r.erase id).listings := by
  have hlistings : ∀ (l : List Listing) (s : Registry),
      l.Perm (s.datasets.map Dataset.listing) → Listing.inOrder l = s.listings := by
    intro l s hperm
    rw [listings_eq]
    exact mergeSort_eq_of_perm Listing.id hperm s.increasing_map_listing
  refine ⟨hlistings _ r (h.map _), ?_, fun x hnew => hlistings _ (r.insert x) ?_,
    fun id => hlistings _ (r.erase id) ((h.filter _).map _)⟩
  · rw [ids_eq]
    exact mergeSort_eq_of_perm id (h.map _) r.increasing_map_id
  · have hinserted : (x :: r.datasets).Perm (r.insert x).datasets :=
      perm_insertInto fun e he => ne_id_of_mem hnew he
    refine (List.perm_append_singleton _ _).trans ?_
    exact ((h.cons x).trans hinserted).map Dataset.listing

/-- What is written for an addition is the list of the registry after it. -/
theorem listingsWith_eq (h : r.contains x.id = false) : r.listingsWith x = (r.insert x).listings :=
  (inOrder_of_perm (.refl _)).2.2.1 x h

/-- What is written for a removal is the list of the registry after it. -/
theorem listingsWithout_eq (id : String) : r.listingsWithout id = (r.erase id).listings :=
  (inOrder_of_perm (.refl _)).2.2.2 id

/-! ### Contents -/

/-- The kinds and the records of the datasets, in their order. -/
def contents (r : Registry) : String → Option (Kind × List Record) :=
  fun id => (r.find? id).map fun x => (x.store.kind, x.store.records.toList)

theorem contents_empty : empty.contents = fun _ => none := rfl

theorem contents_insert :
    (r.insert x).contents =
      Function.update r.contents x.id (some (x.store.kind, x.store.records.toList)) := by
  funext id
  rw [contents, find?_insert, Function.update_apply]
  split
  · rfl
  · rfl

theorem contents_erase (removed : String) :
    (r.erase removed).contents = Function.update r.contents removed none := by
  funext id
  rw [contents, find?_erase, Function.update_apply]
  split
  · rfl
  · rfl

/-- The contents determine the registry. -/
theorem contents_inj : r.contents = r'.contents ↔ r = r' := by
  refine ⟨fun h => eq_of_find? fun id => ?_, fun h => h ▸ rfl⟩
  have hid := congrFun h id
  rw [contents, contents] at hid
  rcases hfind : r.find? id with - | ⟨key, store⟩
  · rw [hfind] at hid
    exact (Option.map_eq_none_iff.mp hid.symm).symm
  · rw [hfind] at hid
    obtain ⟨⟨key', store'⟩, hfind', hstore⟩ := Option.map_eq_some_iff.mp hid.symm
    obtain ⟨hkind, hrecords⟩ := Prod.mk.inj hstore
    have hkey : key = id := (find?_eq_some_iff.mp hfind).2
    have hkey' : key' = id := (find?_eq_some_iff.mp hfind').2
    have heq : store' = store := RecordStore.ext hkind hrecords
    rw [hfind', hkey, hkey', heq]

end Registry

end CampusQuery
