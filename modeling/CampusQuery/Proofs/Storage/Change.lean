/-
CampusQuery/Proofs/Storage/Change.lean

What a change does to the files, and what it leaves alone.

No change removes a directory or puts a file in its place.  A file only appears, changes
or disappears at a place that the change names (`apply_spares`), and making directories
touches no file (`Grows`).  All that a program can rely on follows from this: both
relations compose along a run, and a file at another place is read as before
(`read_of_spares`, `read_of_grows`).
-/
import CampusQuery.Proofs.Storage.Place
import Mathlib.Data.List.Basic
import Mathlib.Data.Set.Insert

namespace CampusQuery

namespace FileTree

variable {t t' t'' : FileTree} {p source target : FilePath} {place other : Place} {node : FileNode}
variable {content : ByteArray} {S S' : Set Place}

/-! ### Nodes -/

theorem get?_nil (t : FileTree) : t.get? [] = some .directory := rfl

theorem get?_of_ne_nil (h : place ≠ []) : t.get? place = t.nodes.lookup place := by
  rw [get?, if_neg]
  rwa [List.isEmpty_iff]

theorem lookup_filter_ne (nodes : List (Place × FileNode)) (h : other ≠ place) :
    (nodes.filter (·.1 != place)).lookup other = nodes.lookup other := by
  induction nodes with
  | nil => rfl
  | cons first rest ih =>
    obtain ⟨here, node⟩ := first
    rw [List.filter_cons]
    split
    · rw [List.lookup_cons, List.lookup_cons, ih]
    · rename_i hhere
      have heq : here = place := by simpa using hhere
      have hne : (other == here) = false := by
        rw [heq, beq_eq_false_iff_ne]
        exact h
      rw [ih, List.lookup_cons, hne]

theorem lookup_filter_self (nodes : List (Place × FileNode)) :
    (nodes.filter (·.1 != place)).lookup place = none := by
  rw [List.lookup_eq_none_iff]
  intro x hx
  rw [bne_comm]
  exact (List.mem_filter.mp hx).2

theorem get?_set_self (h : place ≠ []) : (t.set place node).get? place = some node := by
  rw [get?_of_ne_nil h, set, List.lookup_cons, beq_self_eq_true]

theorem get?_set_of_ne (h : other ≠ place) : (t.set place node).get? other = t.get? other := by
  rcases eq_or_ne other [] with rfl | hother
  · rfl
  · rw [get?_of_ne_nil hother, get?_of_ne_nil hother, set, List.lookup_cons,
      beq_eq_false_iff_ne.mpr h]
    exact lookup_filter_ne _ h

theorem get?_erase_self (h : place ≠ []) : (t.erase place).get? place = none := by
  rw [get?_of_ne_nil h, erase]
  exact lookup_filter_self _

theorem get?_erase_of_ne (h : other ≠ place) : (t.erase place).get? other = t.get? other := by
  rcases eq_or_ne other [] with rfl | hother
  · rfl
  · rw [get?_of_ne_nil hother, get?_of_ne_nil hother, erase]
    exact lookup_filter_ne _ h

theorem ne_nil_of_get? (h : t.get? place ≠ some .directory) : place ≠ [] := by
  rintro rfl
  exact h (get?_nil t)

/-- The names in a directory are those at which something stands. -/
theorem mem_names_iff {name : String} :
    name ∈ t.names place ↔ t.get? (place ++ [name]) ≠ none := by
  have hne : place ++ [name] ≠ [] := by simp
  rw [get?_of_ne_nil hne, names, List.mem_filterMap]
  constructor
  · rintro ⟨⟨here, node⟩, hmem, hname⟩
    intro hnone
    dsimp only at hname
    split at hname
    · rename_i last hlast
      split at hname
      · rename_i hdirectory
        cases hname
        -- the parent of the node is the directory, and its last part is the name
        have hhere : here = place ++ [name] := by
          rw [← beq_iff_eq.mp hdirectory]
          exact (List.dropLast_append_getLast? name hlast).symm
        have := List.lookup_eq_none_iff.mp hnone ⟨here, node⟩ hmem
        simp [hhere] at this
      · cases hname
    · cases hname
  · intro h
    obtain ⟨node, hnode⟩ := Option.ne_none_iff_exists'.mp h
    obtain ⟨before, after, hnodes, -⟩ := List.lookup_eq_some_iff.mp hnode
    refine ⟨⟨place ++ [name], node⟩, ?_, ?_⟩
    · rw [hnodes]
      exact List.mem_append_right _ List.mem_cons_self
    · simp

/-! ### Files and directories at paths -/

theorem find_eq_file_iff : t.find p = .ok (place, .file content) ↔
    t.locate p = .ok place ∧ t.get? place = some (.file content) ∧ p.asDirectory = false := by
  constructor
  · intro h
    obtain ⟨here, hlocate, h⟩ := bind_eq_ok h
    split at h
    · cases h
    · rename_i hget
      split at h
      · cases h
      · rename_i hp
        cases h
        exact ⟨hlocate, hget, Bool.eq_false_iff.mpr hp⟩
    · cases h
  · rintro ⟨hlocate, hget, hp⟩
    simp only [find, hlocate, bind, Except.bind, hget, hp]
    rfl

theorem find_eq_directory_iff : t.find p = .ok (place, .directory) ↔
    t.locate p = .ok place ∧ t.get? place = some .directory := by
  constructor
  · intro h
    obtain ⟨here, hlocate, h⟩ := bind_eq_ok h
    split at h
    · cases h
    · split at h
      · cases h
      · cases h
    · rename_i hget
      cases h
      exact ⟨hlocate, hget⟩
  · rintro ⟨hlocate, hget⟩
    simp only [find, hlocate, bind, Except.bind, hget]

theorem read_eq_ok_iff : t.read p = .ok content ↔
    ∃ place, t.locate p = .ok place ∧ t.get? place = some (.file content) ∧
      p.asDirectory = false := by
  constructor
  · intro h
    obtain ⟨⟨place, node⟩, hfind, h⟩ := bind_eq_ok h
    split at h
    · cases h
      rename_i heq
      cases heq
      exact ⟨place, find_eq_file_iff.mp hfind⟩
    · cases h
  · rintro ⟨place, h⟩
    simp only [read, find_eq_file_iff.mpr h, bind, Except.bind]

theorem list_eq_ok {names : List String} (h : t.list p = .ok names) :
    ∃ place, t.locate p = .ok place ∧ names = t.names place := by
  obtain ⟨⟨place, node⟩, hfind, h⟩ := bind_eq_ok h
  split at h
  · cases h
    rename_i heq
    cases heq
    exact ⟨place, (find_eq_directory_iff.mp hfind).1, rfl⟩
  · cases h

theorem isDirectory_iff : t.isDirectory p = true ↔
    ∃ place, t.locate p = .ok place ∧ t.get? place = some .directory := by
  unfold isDirectory
  constructor
  · intro h
    split at h
    · rename_i hfind
      exact ⟨_, find_eq_directory_iff.mp hfind⟩
    · cases h
  · rintro ⟨place, h⟩
    rw [find_eq_directory_iff.mpr h]

theorem list_of_isDirectory (h : t.isDirectory p = true) : ∃ names, t.list p = .ok names := by
  obtain ⟨place, h⟩ := isDirectory_iff.mp h
  exact ⟨t.names place, by simp only [list, find_eq_directory_iff.mpr h, bind, Except.bind]⟩

theorem present_of_read (h : t.read p = .ok content) : t.present p = true := by
  obtain ⟨place, h⟩ := read_eq_ok_iff.mp h
  rw [present, find_eq_file_iff.mpr h]

/-- What is present is a directory or can be read. -/
theorem isDirectory_or_read (h : t.present p = true) :
    t.isDirectory p = true ∨ ∃ content, t.read p = .ok content := by
  unfold present at h
  split at h
  · rename_i node hfind
    obtain ⟨place, node | content⟩ := node
    · exact .inl (isDirectory_iff.mpr ⟨place, find_eq_directory_iff.mp hfind⟩)
    · exact .inr ⟨content, read_eq_ok_iff.mpr ⟨place, find_eq_file_iff.mp hfind⟩⟩
  · cases h

theorem not_isDirectory_of_read (h : t.read p = .ok content) : t.isDirectory p = false := by
  obtain ⟨place, h⟩ := read_eq_ok_iff.mp h
  rw [isDirectory, find_eq_file_iff.mpr h]

theorem present_of_isDirectory (h : t.isDirectory p = true) : t.present p = true := by
  obtain ⟨place, h⟩ := isDirectory_iff.mp h
  rw [present, find_eq_directory_iff.mpr h]

/-! ### What a change does -/

theorem apply_create_eq_ok (h : t.apply (.create p) = .ok t') :
    ∃ place, t.locate p = .ok place ∧ t.get? place ≠ some .directory ∧ p.asDirectory = false ∧
      t' = t.set place (.file .empty) := by
  obtain ⟨place, hlocate, h⟩ := bind_eq_ok h
  split at h
  · cases h
  · rename_i hget
    split at h
    · cases h
    · rename_i hp
      cases h
      exact ⟨place, hlocate, hget, Bool.eq_false_iff.mpr hp, rfl⟩

theorem apply_fill_eq_ok (h : t.apply (.fill p content) = .ok t') :
    ∃ place old, t.find p = .ok (place, .file old) ∧ t' = t.set place (.file content) := by
  obtain ⟨⟨place, node⟩, hfind, h⟩ := bind_eq_ok h
  split at h
  · rename_i heq
    cases heq
    cases h
    exact ⟨_, _, hfind, rfl⟩
  · cases h

theorem apply_rename_eq_ok (h : t.apply (.rename source target) = .ok t') :
    ∃ old content place, t.find source = .ok (old, .file content) ∧ t.locate target = .ok place ∧
      t.get? place ≠ some .directory ∧ t' = (t.erase old).set place (.file content) := by
  obtain ⟨⟨old, node⟩, hfind, h⟩ := bind_eq_ok h
  split at h
  · rename_i heq
    cases heq
    obtain ⟨place, hlocate, h⟩ := bind_eq_ok h
    split at h
    · cases h
    · rename_i hget
      cases h
      exact ⟨_, _, place, hfind, hlocate, hget, rfl⟩
  · cases h

theorem apply_remove_eq_ok (h : t.apply (.remove p) = .ok t') :
    ∃ place content, t.find p = .ok (place, .file content) ∧ t' = t.erase place := by
  obtain ⟨⟨place, node⟩, hfind, h⟩ := bind_eq_ok h
  split at h
  · rename_i heq
    cases heq
    cases h
    exact ⟨_, _, hfind, rfl⟩
  · cases h

/-! ### What a change leaves alone -/

/-- The trees have the same directories. -/
def SameDirectories (t t' : FileTree) : Prop :=
  ∀ place, t'.get? place = some .directory ↔ t.get? place = some .directory

theorem SameDirectories.trans (h : SameDirectories t t') (h' : SameDirectories t' t'') :
    SameDirectories t t'' :=
  fun place => (h' place).trans (h place)

theorem SameDirectories.keeps (h : SameDirectories t t') : Keeps t t' := fun place => (h place).mpr

theorem SameDirectories.symm (h : SameDirectories t t') : SameDirectories t' t :=
  fun place => (h place).symm

/-- From one tree to the other, the directories are the same, other places than those of
the set are as before, and whatever is new has a name without slashes. -/
structure Spares (t t' : FileTree) (S : Set Place) : Prop where
  directories : SameDirectories t t'
  elsewhere : ∀ place ∉ S, t'.get? place = t.get? place
  proper : ∀ place, t'.get? place ≠ none → t.get? place ≠ none ∨ IsProper place

theorem Spares.keeps (h : Spares t t' S) : Keeps t t' := h.directories.keeps

theorem Spares.refl (t : FileTree) (S : Set Place) : Spares t t S :=
  ⟨fun _ => Iff.rfl, fun _ _ => rfl, fun _ h => .inl h⟩

theorem Spares.mono (h : Spares t t' S) (hS : S ⊆ S') : Spares t t' S' :=
  ⟨h.directories, fun place hplace => h.elsewhere place fun hmem => hplace (hS hmem), h.proper⟩

theorem Spares.trans (h : Spares t t' S) (h' : Spares t' t'' S) : Spares t t'' S := by
  refine ⟨h.directories.trans h'.directories,
    fun place hplace => (h'.elsewhere place hplace).trans (h.elsewhere place hplace),
    fun place hplace => ?_⟩
  rcases h'.proper place hplace with hold | hproper
  · exact h.proper place hold
  · exact .inr hproper

theorem spares_set_file (h : t.get? place ≠ some .directory) (hproper : IsProper place) :
    Spares t (t.set place (.file content)) {place} := by
  refine ⟨fun other => ?_, fun other hother => get?_set_of_ne hother, fun other hother => ?_⟩
  · rcases eq_or_ne other place with rfl | hne
    · rw [get?_set_self (ne_nil_of_get? h)]
      exact ⟨fun he => (by cases he), fun he => (h he).elim⟩
    · rw [get?_set_of_ne hne]
  · rcases eq_or_ne other place with rfl | hne
    · exact .inr hproper
    · rw [get?_set_of_ne hne] at hother
      exact .inl hother

theorem spares_erase (h : t.get? place ≠ some .directory) : Spares t (t.erase place) {place} := by
  have hself := get?_erase_self (t := t) (ne_nil_of_get? h)
  refine ⟨fun other => ?_, fun other hother => get?_erase_of_ne hother, fun other hother => ?_⟩
  · rcases eq_or_ne other place with rfl | hne
    · rw [hself]
      exact ⟨fun he => (by cases he), fun he => (h he).elim⟩
    · rw [get?_erase_of_ne hne]
  · rcases eq_or_ne other place with rfl | hne
    · exact absurd hself hother
    · rw [get?_erase_of_ne hne] at hother
      exact .inl hother

theorem isDirectory_of_keeps (hkeeps : Keeps t t') (h : t.isDirectory p = true) :
    t'.isDirectory p = true := by
  obtain ⟨place, hlocate, hget⟩ := isDirectory_iff.mp h
  exact isDirectory_iff.mpr ⟨place, locate_of_keeps hkeeps hlocate, hkeeps place hget⟩

/-- A file is read as before if it is still there and the way to it is still open. -/
theorem read_of_keeps (hkeeps : Keeps t t')
    (hfile : ∀ place, p.place? = some place → t.get? place = some (.file content) →
      t'.get? place = some (.file content)) (h : t.read p = .ok content) :
    t'.read p = .ok content := by
  obtain ⟨place, hlocate, hget, hdirectory⟩ := read_eq_ok_iff.mp h
  exact read_eq_ok_iff.mpr ⟨place, locate_of_keeps hkeeps hlocate,
    hfile place (place?_of_locate hlocate) hget, hdirectory⟩

/-- A file is read as before if its place is not among those that changed. -/
theorem read_of_spares (h : Spares t t' S) (hp : ∀ place, p.place? = some place → place ∉ S)
    (hread : t.read p = .ok content) : t'.read p = .ok content :=
  read_of_keeps h.keeps
    (fun place hplace hget => (h.elsewhere place (hp place hplace)).trans hget) hread

/-! ### Making directories -/

/-- From one tree to the other, all that is new are directories, whose names hold no
slashes. -/
structure Grows (t t' : FileTree) : Prop where
  same_or_new : ∀ place, t'.get? place = t.get? place ∨
    t.get? place = none ∧ t'.get? place = some .directory
  proper : ∀ place, t'.get? place ≠ none → t.get? place ≠ none ∨ IsProper place

theorem Grows.get?_eq (h : Grows t t') (hnode : t.get? place = some node) :
    t'.get? place = some node := by
  rcases h.same_or_new place with hsame | ⟨hnone, -⟩
  · rw [hsame, hnode]
  · rw [hnone] at hnode
    cases hnode

theorem Grows.refl (t : FileTree) : Grows t t := ⟨fun _ => .inl rfl, fun _ h => .inl h⟩

theorem Grows.trans (h : Grows t t') (h' : Grows t' t'') : Grows t t'' := by
  refine ⟨fun place => ?_, fun place hplace => ?_⟩
  · rcases h.same_or_new place with hsame | ⟨hnone, hdirectory⟩
    · rw [← hsame]
      exact h'.same_or_new place
    · exact .inr ⟨hnone, h'.get?_eq hdirectory⟩
  · rcases h'.proper place hplace with hold | hproper
    · exact h.proper place hold
    · exact .inr hproper

theorem Grows.keeps (h : Grows t t') : Keeps t t' := fun _ hplace => h.get?_eq hplace

theorem read_of_grows (h : Grows t t') (hread : t.read p = .ok content) :
    t'.read p = .ok content :=
  read_of_keeps h.keeps (fun _ _ hget => h.get?_eq hget) hread

theorem grows_set_directory (h : t.get? place = none) (hproper : IsProper place) :
    Grows t (t.set place .directory) := by
  have hne : place ≠ [] := ne_nil_of_get? (t := t) (by simp [h])
  refine ⟨fun other => ?_, fun other hother => ?_⟩
  · rcases eq_or_ne other place with rfl | hother
    · exact .inr ⟨h, get?_set_self hne⟩
    · exact .inl (get?_set_of_ne hother)
  · rcases eq_or_ne other place with rfl | hne
    · exact .inr hproper
    · rw [get?_set_of_ne hne] at hother
      exact .inl hother

theorem leadsToDirectory_iff {steps : List String} : t.leadsToDirectory steps = true ↔
    ∃ place, t.follow [] steps = .ok place ∧ t.get? place = some .directory := by
  unfold leadsToDirectory
  constructor
  · intro h
    split at h
    · rename_i place hfollow
      split at h
      · rename_i hget
        exact ⟨place, hfollow, hget⟩
      · cases h
    · cases h
  · rintro ⟨place, hfollow, hget⟩
    rw [hfollow]
    dsimp only
    rw [hget]

theorem makeDirectory_grows {steps : List String} (hsteps : ∀ s ∈ steps, s ∈ p.steps)
    (h : t.makeDirectory steps = .ok t') :
    Grows t t' ∧ t'.leadsToDirectory steps = true := by
  obtain ⟨place, hfollow, h⟩ := bind_eq_ok h
  split at h
  · cases h
  · rename_i hget
    cases h
    have hgrows := grows_set_directory hget (isProper_of_steps hsteps (reach_of_follow hfollow))
    refine ⟨hgrows, leadsToDirectory_iff.mpr ⟨place, follow_of_keeps hgrows.keeps hfollow, ?_⟩⟩
    exact get?_set_self (ne_nil_of_get? (t := t) (by simp [hget]))

theorem makeDirectories_grows {inner : List String} (hinner : ∀ s ∈ inner, s ∈ p.steps)
    (h : t.makeDirectories inner = .ok t') :
    Grows t t' ∧ t'.leadsToDirectory inner.reverse = true := by
  induction inner generalizing t' with
  | nil =>
    cases h
    exact ⟨.refl _, leadsToDirectory_iff.mpr ⟨[], rfl, rfl⟩⟩
  | cons step outer ih =>
    have hsteps : ∀ s ∈ (step :: outer).reverse, s ∈ p.steps :=
      fun s hs => hinner s (List.mem_reverse.mp hs)
    rw [makeDirectories] at h
    split at h
    · rename_i hmade
      cases h
      exact makeDirectory_grows hsteps hmade
    · -- the outer directories are missing and are made first
      obtain ⟨around, haround, h⟩ := bind_eq_ok h
      have hgrows := (ih (fun s hs => hinner s (List.mem_cons_of_mem _ hs)) haround).1
      split at h
      · rename_i hmade
        cases h
        obtain ⟨hgrows', hleads⟩ := makeDirectory_grows hsteps hmade
        exact ⟨hgrows.trans hgrows', hleads⟩
      · split at h
        · rename_i hleads
          cases h
          exact ⟨hgrows, hleads⟩
        · cases h
    · -- any other failure is forgiven where the directory is there already
      split at h
      · rename_i hleads
        cases h
        exact ⟨.refl _, hleads⟩
      · cases h

/-- Once directories were made, the path leads to one. -/
theorem apply_makeDirectories_eq_ok (h : t.apply (.makeDirectories p) = .ok t') :
    Grows t t' ∧ t'.isDirectory p = true := by
  simp only [apply] at h
  split at h
  · cases h
  · rename_i hfault
    obtain ⟨hgrows, hleads⟩ :=
      makeDirectories_grows (p := p) (fun s hs => List.mem_reverse.mp hs) h
    rw [List.reverse_reverse] at hleads
    obtain ⟨place, hfollow, hget⟩ := leadsToDirectory_iff.mp hleads
    refine ⟨hgrows, isDirectory_iff.mpr ⟨place, ?_, hget⟩⟩
    rw [locate, hfault]
    exact hfollow

/-- Nothing is made where there is a directory already. -/
theorem apply_makeDirectories_of_isDirectory (h : t.isDirectory p = true) :
    t.apply (.makeDirectories p) = .ok t := by
  obtain ⟨place, hlocate, hget⟩ := isDirectory_iff.mp h
  unfold locate at hlocate
  split at hlocate
  · cases hlocate
  · rename_i hfault
    have hleads : t.leadsToDirectory p.steps = true :=
      leadsToDirectory_iff.mpr ⟨place, hlocate, hget⟩
    -- the innermost directory is tried first, and it exists
    have hexists : t.makeDirectory p.steps = .error .alreadyExists := by
      simp only [makeDirectory, hlocate, bind, Except.bind, hget]
    simp only [apply, hfault]
    rcases hsteps : p.steps.reverse with - | ⟨step, outer⟩
    · rfl
    · have hreverse : (step :: outer).reverse = p.steps := by
        rw [← hsteps, List.reverse_reverse]
      rw [makeDirectories, hreverse, hexists]
      simp only [hleads, if_true]

end FileTree

/-- The places whose files the change makes, writes or removes. -/
def Change.places : Change → Set Place
  | .makeDirectories _ => ∅
  | .create path | .fill path _ | .remove path => {place | path.place? = some place}
  | .rename source target => {place | source.place? = some place ∨ target.place? = some place}

namespace FileTree

variable {t t' : FileTree} {p : FilePath} {place : Place} {c : Change}

theorem isProper_of_locate (h : t.locate p = .ok place) : IsProper place :=
  isProper_of_steps (fun _ hs => hs) (place?_of_locate h)

/-- **A change to files leaves all other places alone.** -/
theorem apply_spares (h : t.apply c = .ok t') (hc : ∀ p, c ≠ .makeDirectories p) :
    Spares t t' c.places := by
  rcases c with p | p | ⟨p, content⟩ | ⟨source, target⟩ | p
  · exact absurd rfl (hc p)
  · obtain ⟨place, hlocate, hget, -, rfl⟩ := apply_create_eq_ok h
    refine (spares_set_file hget (isProper_of_locate hlocate)).mono ?_
    exact Set.singleton_subset_iff.mpr (place?_of_locate hlocate)
  · obtain ⟨place, old, hfind, rfl⟩ := apply_fill_eq_ok h
    obtain ⟨hlocate, hget, -⟩ := find_eq_file_iff.mp hfind
    refine (spares_set_file (by simp [hget]) (isProper_of_locate hlocate)).mono ?_
    exact Set.singleton_subset_iff.mpr (place?_of_locate hlocate)
  · obtain ⟨old, content, place, hfind, hlocate, hget, rfl⟩ := apply_rename_eq_ok h
    obtain ⟨hold, hgetOld, -⟩ := find_eq_file_iff.mp hfind
    have herase : Spares t (t.erase old) {old} := spares_erase (by simp [hgetOld])
    have hset : Spares (t.erase old) ((t.erase old).set place (.file content)) {place} := by
      -- a file may be moved to its own place
      refine spares_set_file ?_ (isProper_of_locate hlocate)
      rcases eq_or_ne place old with rfl | hne
      · rw [get?_erase_self (ne_nil_of_get? hget)]
        simp
      · rwa [get?_erase_of_ne hne]
    refine (herase.mono ?_).trans (hset.mono ?_)
    · exact Set.singleton_subset_iff.mpr (.inl (place?_of_locate hold))
    · exact Set.singleton_subset_iff.mpr (.inr (place?_of_locate hlocate))
  · obtain ⟨place, content, hfind, rfl⟩ := apply_remove_eq_ok h
    obtain ⟨hlocate, hget, -⟩ := find_eq_file_iff.mp hfind
    refine (spares_erase (by simp [hget])).mono ?_
    exact Set.singleton_subset_iff.mpr (place?_of_locate hlocate)

theorem read_of_fill {content : ByteArray} (h : t.apply (.fill p content) = .ok t') :
    t'.read p = .ok content := by
  obtain ⟨place, old, hfind, rfl⟩ := apply_fill_eq_ok h
  obtain ⟨hlocate, hget, hp⟩ := find_eq_file_iff.mp hfind
  have hfile : t.get? place ≠ some .directory := by simp [hget]
  have hspares := @spares_set_file t place content hfile (isProper_of_locate hlocate)
  exact read_eq_ok_iff.mpr ⟨place, locate_of_keeps hspares.keeps hlocate,
    get?_set_self (ne_nil_of_get? hfile), hp⟩

/-- A file that was moved is read where it was moved to. -/
theorem read_of_rename {source target : FilePath} {content : ByteArray}
    (htarget : target.asDirectory = false) (hread : t.read source = .ok content)
    (h : t.apply (.rename source target) = .ok t') : t'.read target = .ok content := by
  have hspares := apply_spares h nofun
  obtain ⟨old, moved, place, hfind, hlocate, hget, rfl⟩ := apply_rename_eq_ok h
  obtain ⟨place', hlocate', hcontent, -⟩ := read_eq_ok_iff.mp hread
  obtain ⟨hlocateOld, hmoved, -⟩ := find_eq_file_iff.mp hfind
  rw [hlocateOld] at hlocate'
  cases hlocate'
  rw [hmoved] at hcontent
  cases hcontent
  exact read_eq_ok_iff.mpr ⟨place, locate_of_keeps hspares.keeps hlocate,
    get?_set_self (ne_nil_of_get? hget), htarget⟩

end FileTree

end CampusQuery
