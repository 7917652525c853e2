/-
CampusQuery/Catalog/Registry.lean

The datasets that are registered, by their ids.

A registry is a finite map from ids to datasets.  It holds the datasets in the order
of their ids, each id once, so equal registries are equal lists; the lemmas say how
each operation acts on the map.  What is listed for others is collected from the
datasets and then put in order, and does not rely on the order in which they are met.
-/
import CampusQuery.Answer.Run
import CampusQuery.Text.Blank

namespace CampusQuery

/-- The text may be the id of a dataset: keys are split at underscores, and ids are
names of files. -/
def isDatasetId (id : String) : Bool :=
  !id.isEmpty && id != "." && id != ".." &&
    !id.toList.any fun c => c == '_' || c == '/' || c == '\\' || Text.isBlank c

/-- Entries in the order of their ids. -/
def Listing.inOrder (entries : List Listing) : List Listing :=
  entries.mergeSort fun a b => a.id ≤ b.id

/-- Datasets in the order of their ids. -/
structure Registry where
  datasets : List Dataset
  increasing : datasets.Pairwise fun a b => a.id < b.id

namespace Registry

/-! ### Lists of datasets -/

/-- The datasets with `d`, in place of the one that has its id. -/
def insertInto (d : Dataset) : List Dataset → List Dataset
  | [] => [d]
  | e :: rest =>
    if d.id < e.id then d :: e :: rest
    else if d.id = e.id then d :: rest
    else e :: insertInto d rest

theorem mem_of_mem_insertInto {d x : Dataset} {l : List Dataset} (h : x ∈ insertInto d l) :
    x = d ∨ x ∈ l := by
  induction l with
  | nil => simpa [insertInto] using h
  | cons e rest ih =>
    simp only [insertInto] at h
    split at h
    · simpa using h
    · split at h
      · simp only [List.mem_cons] at h ⊢
        exact h.imp_right .inr
      · simp only [List.mem_cons] at h ⊢
        rcases h with h | h
        · exact .inr (.inl h)
        · exact (ih h).imp_right .inr

theorem pairwise_insertInto {d : Dataset} {l : List Dataset}
    (h : l.Pairwise fun a b => a.id < b.id) :
    (insertInto d l).Pairwise fun a b => a.id < b.id := by
  induction l with
  | nil => simp [insertInto]
  | cons e rest ih =>
    obtain ⟨first, tail⟩ := List.pairwise_cons.mp h
    simp only [insertInto]
    split
    · rename_i lt
      refine List.pairwise_cons.mpr ⟨fun x hx => ?_, h⟩
      rcases List.mem_cons.mp hx with rfl | hx
      · exact lt
      · exact String.lt_trans lt (first x hx)
    · rename_i notLt
      split
      · rename_i eq
        exact List.pairwise_cons.mpr ⟨fun x hx => eq ▸ first x hx, tail⟩
      · rename_i ne
        refine List.pairwise_cons.mpr ⟨fun x hx => ?_, ih tail⟩
        rcases mem_of_mem_insertInto hx with rfl | hx
        · exact Std.lt_of_le_of_ne (String.not_lt.mp notLt) (Ne.symm ne)
        · exact first x hx

/-! ### Operations -/

/-- No datasets. -/
def empty : Registry := ⟨[], .nil⟩

/-- The dataset with an id. -/
def find? (r : Registry) (id : String) : Option Dataset := r.datasets.find? (·.id == id)

/-- There is a dataset with the id. -/
def contains (r : Registry) (id : String) : Bool := r.datasets.any (·.id == id)

/-- The number of datasets. -/
def size (r : Registry) : Nat := r.datasets.length

/-- The registry with a dataset, in place of the one that has its id. -/
def insert (r : Registry) (d : Dataset) : Registry :=
  ⟨insertInto d r.datasets, pairwise_insertInto r.increasing⟩

/-- The registry without the dataset that has the id. -/
def erase (r : Registry) (id : String) : Registry :=
  ⟨r.datasets.filter (·.id != id), r.increasing.filter _⟩

/-- The registry as queries see it. -/
def view (r : Registry) : CatalogView := fun id => (r.find? id).map Dataset.store

/-! ### Lists of what is registered -/

/-- The ids, in their order. -/
def ids (r : Registry) : List String := (r.datasets.map Dataset.id).mergeSort fun a b => a ≤ b

/-- The entries of the datasets, in the order of the ids. -/
def listings (r : Registry) : List Listing := Listing.inOrder (r.datasets.map Dataset.listing)

/-- The entries of the datasets and of one that is not registered yet. -/
def listingsWith (r : Registry) (d : Dataset) : List Listing :=
  Listing.inOrder (r.datasets.map Dataset.listing ++ [d.listing])

/-- The entries of the datasets that do not have the id. -/
def listingsWithout (r : Registry) (id : String) : List Listing :=
  Listing.inOrder ((r.datasets.filter (·.id != id)).map Dataset.listing)

end Registry

end CampusQuery
