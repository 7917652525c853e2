/-
CampusQuery/Proofs/Storage/Removal.lean

Removing files from a directory.

In a directory that can be reached, a name stands below the place of the directory or cannot be
reached at all (`locate_join`), and which of both is a matter of the path alone.  So whether a file
there can be removed depends on the path and on the file, not on what else is in the directory
(`apply_remove_join_eq_ok_iff`), and several files can be removed in any order.  The tree that is
left is `without` them.
-/
import CampusQuery.Proofs.Storage.Change
import Mathlib.Data.List.Nodup

namespace CampusQuery

variable {t t' : FileTree} {p : FilePath} {place home : Place} {name : String} {S : Set Place}

/-! ### Well-formed trees -/

namespace FileTree

/-- The nodes have places of their own, and no name holds a slash. -/
structure WellFormed (t : FileTree) : Prop where
  distinct : (t.nodes.map Prod.fst).Nodup
  proper : ∀ place, t.get? place ≠ none → IsProper place

theorem wellFormed_of_nodes (hdistinct : (t.nodes.map Prod.fst).Nodup)
    (hproper : ∀ place ∈ t.nodes.map Prod.fst, IsProper place) : t.WellFormed := by
  refine ⟨hdistinct, fun place hplace => ?_⟩
  rcases eq_or_ne place [] with rfl | hne
  · exact fun name hname => absurd hname List.not_mem_nil
  · rw [get?_of_ne_nil hne] at hplace
    obtain ⟨node, hnode⟩ := Option.ne_none_iff_exists'.mp hplace
    obtain ⟨before, after, hnodes, -⟩ := List.lookup_eq_some_iff.mp hnode
    exact hproper place (by simp [hnodes])

theorem distinct_erase (place : Place) (h : (t.nodes.map Prod.fst).Nodup) :
    ((t.erase place).nodes.map Prod.fst).Nodup :=
  h.sublist (List.filter_sublist.map _)

theorem distinct_set (place : Place) (node : FileNode) (h : (t.nodes.map Prod.fst).Nodup) :
    ((t.set place node).nodes.map Prod.fst).Nodup := by
  refine List.nodup_cons.mpr ⟨fun hmem => ?_, distinct_erase place h⟩
  obtain ⟨x, hx, hplace⟩ := List.mem_map.mp hmem
  simpa [hplace] using (List.mem_filter.mp hx).2

theorem distinct_makeDirectory {steps : List String} (h : (t.nodes.map Prod.fst).Nodup)
    (hmade : t.makeDirectory steps = .ok t') : (t'.nodes.map Prod.fst).Nodup := by
  obtain ⟨place, -, hmade⟩ := bind_eq_ok hmade
  split at hmade
  · cases hmade
  · cases hmade
    exact distinct_set _ _ h

theorem distinct_makeDirectories {inner : List String} (h : (t.nodes.map Prod.fst).Nodup)
    (hmade : t.makeDirectories inner = .ok t') : (t'.nodes.map Prod.fst).Nodup := by
  -- the innermost step comes first, so the induction hypothesis is about the directories around it
  induction inner generalizing t' with
  | nil =>
    cases hmade
    exact h
  | cons step outer ih =>
    rw [makeDirectories] at hmade
    split at hmade
    · rename_i hinner
      cases hmade
      exact distinct_makeDirectory h hinner
    · obtain ⟨around, haround, hmade⟩ := bind_eq_ok hmade
      split at hmade
      · rename_i hinner
        cases hmade
        exact distinct_makeDirectory (ih haround) hinner
      · split at hmade
        · cases hmade
          exact ih haround
        · cases hmade
    · split at hmade
      · cases hmade
        exact h
      · cases hmade

/-- Every change keeps the places apart. -/
theorem distinct_apply {c : Change} (h : (t.nodes.map Prod.fst).Nodup)
    (happly : t.apply c = .ok t') : (t'.nodes.map Prod.fst).Nodup := by
  rcases c with p | p | ⟨p, content⟩ | ⟨source, target⟩ | p
  · simp only [apply] at happly
    split at happly
    · cases happly
    · exact distinct_makeDirectories h happly
  · obtain ⟨place, -, -, -, rfl⟩ := apply_create_eq_ok happly
    exact distinct_set _ _ h
  · obtain ⟨place, old, -, rfl⟩ := apply_fill_eq_ok happly
    exact distinct_set _ _ h
  · obtain ⟨old, content, place, -, -, -, rfl⟩ := apply_rename_eq_ok happly
    exact distinct_set _ _ (distinct_erase _ h)
  · obtain ⟨place, content, -, rfl⟩ := apply_remove_eq_ok happly
    exact distinct_erase _ h

/-- **Every change keeps a tree well-formed.** -/
theorem WellFormed.apply {c : Change} (h : t.WellFormed) (happly : t.apply c = .ok t') :
    t'.WellFormed := by
  refine ⟨distinct_apply h.distinct happly, fun place hplace => ?_⟩
  have hnew : t.get? place ≠ none ∨ IsProper place := by
    by_cases hc : ∃ p, c = .makeDirectories p
    · obtain ⟨p, rfl⟩ := hc
      exact (apply_makeDirectories_eq_ok happly).1.proper place hplace
    · exact (apply_spares happly fun p hp => hc ⟨p, hp⟩).proper place hplace
  exact hnew.elim (h.proper place) id

/-- The name under which a place stands in a directory. -/
def nameIn (home place : Place) : Option String :=
  match place.getLast? with
  | some name => if place.dropLast == home then some name else none
  | none => none

theorem nameIn_eq_some_iff : nameIn home place = some name ↔ place = home ++ [name] := by
  unfold nameIn
  constructor
  · intro h
    split at h
    · rename_i last hlast
      split at h
      · rename_i hhome
        cases h
        rw [← beq_iff_eq.mp hhome]
        exact (List.dropLast_append_getLast? _ hlast).symm
      · cases h
    · cases h
  · rintro rfl
    simp

theorem names_eq (t : FileTree) (home : Place) :
    t.names home = (t.nodes.map Prod.fst).filterMap (nameIn home) := by
  rw [names, List.filterMap_map]
  rfl

/-- In a well-formed tree the names in a directory are distinct. -/
theorem WellFormed.nodup_names (h : t.WellFormed) (home : Place) : (t.names home).Nodup := by
  rw [names_eq]
  refine h.distinct.filterMap fun place place' name hname hname' => ?_
  rw [nameIn_eq_some_iff.mp hname, nameIn_eq_some_iff.mp hname']

/-! ### Names in a directory -/

theorem enter_of_turn {directory : Place} {step : String} (h : turn directory step = .ok place)
    (hget : t.get? place = some .directory) : t.enter directory step = .ok place := by
  unfold turn at h
  unfold enter
  split
  · rename_i hup
    rwa [if_pos hup] at h
  · rename_i hup
    rw [if_neg hup] at h
    simp only [h, bind, Except.bind, hget]

/-- Behind a directory, one more segment leads where it leads from there. -/
theorem follow_append {directory : Place} {steps : List String}
    (h : t.follow directory steps = .ok home) (hget : t.get? home = some .directory)
    (name : String) : t.follow directory (steps ++ [name]) = turn home name := by
  induction steps generalizing directory with
  | nil =>
    cases h
    rfl
  | cons step rest ih =>
    rcases rest with - | ⟨next, rest⟩
    · -- the last segment was not entered before; it is now, as `home` is a directory
      have hturn : turn directory step = .ok home := h
      show (t.enter directory step >>= fun middle => t.follow middle [name]) = _
      rw [enter_of_turn hturn hget]
      rfl
    · obtain ⟨middle, hmiddle, h⟩ := bind_eq_ok (show
        (t.enter directory step >>= fun middle => t.follow middle (next :: rest)) = _ from h)
      show (t.enter directory step >>= fun middle => t.follow middle (next :: rest ++ [name])) = _
      rw [hmiddle]
      exact ih h

theorem fault?_of_locate (h : t.locate p = .ok home) : p.fault? = none := by
  unfold locate at h
  split at h
  · cases h
  · rename_i hfault
    exact hfault

theorem locate_of_fault {e : FileError} (h : p.fault? = some e) : t.locate p = .error e := by
  rw [locate, h]

/-- Where a name in a directory leads. -/
theorem locate_join (h : t.locate p = .ok home) (hget : t.get? home = some .directory)
    (hname : IsFileName name) (hfault : (p.join name).fault? = none) :
    t.locate (p.join name) = child home name := by
  have hfollow : t.follow [] p.steps = .ok home := by
    unfold locate at h
    rwa [fault?_of_locate h] at h
  have hturn : turn home name = child home name := by
    rw [turn, if_neg hname.ne_dots]
  rw [locate, hfault, FilePath.steps_join p hname, ← hturn, ← follow_append hfollow hget]

end FileTree

namespace FilePath

/-- A path without faults is relative, and not empty. -/
theorem exists_of_fault?_eq_none (h : p.fault? = none) :
    ∃ c cs, p.text.toList = c :: cs ∧ c ≠ '/' := by
  unfold fault? at h
  split at h
  · cases h
  · split at h
    · cases h
    · rename_i hempty
      split at h
      · cases h
      · split at h
        · cases h
        · rename_i hrelative
          rcases hp : p.text.toList with - | ⟨c, cs⟩
          · exact absurd (String.isEmpty_iff.mpr (String.toList_inj.mp hp)) hempty
          · refine ⟨c, cs, rfl, ?_⟩
            rintro rfl
            exact hrelative (by rw [isAbsolute, hp]; rfl)

/-- A path that begins with another character than a slash is not missing. -/
theorem fault?_ne_notFound {c : Char} {cs : List Char} (h : p.text.toList = c :: cs)
    (hc : c ≠ '/') : p.fault? ≠ some .notFound := by
  have hempty : ¬ p.text.isEmpty = true := by
    rw [String.isEmpty_iff]
    intro he
    rw [he] at h
    cases h
  have hrelative : ¬ p.isAbsolute = true := by
    rw [isAbsolute, h]
    simpa using hc
  unfold fault?
  rw [if_neg hempty, if_neg hrelative]
  split
  · simp
  · split
    · simp
    · simp

/-- A path in a directory is not missing, as it begins as that of the directory. -/
theorem fault?_join_ne_notFound (h : p.fault? = none) (hname : IsFileName name) :
    (p.join name).fault? ≠ some .notFound := by
  obtain ⟨c, cs, hp, hc⟩ := exists_of_fault?_eq_none h
  obtain ⟨rest, hjoin⟩ : ∃ rest, (p.join name).text.toList = c :: rest := by
    rw [join, isAbsolute_eq_false hname.noSlash]
    simp only [Bool.false_eq_true, if_false]
    split
    · exact ⟨cs ++ name.toList, by rw [String.toList_append, hp, List.cons_append]⟩
    · exact ⟨cs ++ "/".toList ++ name.toList, by
        rw [String.toList_append, String.toList_append, hp, List.cons_append, List.cons_append]⟩
  exact fault?_ne_notFound hjoin hc

end FilePath

namespace FileTree

/-- **Whether a file can be removed** depends on its path and on the file. -/
theorem apply_remove_join_eq_ok_iff (h : t.locate p = .ok home)
    (hget : t.get? home = some .directory) (hname : IsFileName name) :
    t.apply (.remove (p.join name)) = .ok t' ↔
      ((p.join name).fault? = none ∧ name.utf8ByteSize ≤ FilePath.maxNameBytes) ∧
        (∃ content, t.get? (home ++ [name]) = some (.file content)) ∧
          t' = t.erase (home ++ [name]) := by
  constructor
  · intro happly
    obtain ⟨place, content, hfind, rfl⟩ := apply_remove_eq_ok happly
    obtain ⟨hplace, hfile, -⟩ := find_eq_file_iff.mp hfind
    have hfault := fault?_of_locate hplace
    rw [locate_join h hget hname hfault, child] at hplace
    split at hplace
    · cases hplace
    · rename_i hshort
      obtain rfl := Except.ok.inj hplace
      exact ⟨⟨hfault, Nat.not_lt.mp hshort⟩, ⟨content, hfile⟩, rfl⟩
  · rintro ⟨⟨hfault, hshort⟩, ⟨content, hfile⟩, rfl⟩
    have hlocate := locate_join h hget hname hfault
    rw [child, if_neg (Nat.not_lt.mpr hshort)] at hlocate
    have hfind := find_eq_file_iff.mpr ⟨hlocate, hfile, p.asDirectory_join hname⟩
    simp only [apply, hfind, bind, Except.bind]

theorem locate_of_find_eq_notFound (h : t.find p = .error .notFound) :
    t.locate p = .error .notFound ∨ ∃ place, t.locate p = .ok place ∧ t.get? place = none := by
  rcases bind_eq_error h with hlocate | ⟨place, hlocate, h⟩
  · exact .inl hlocate
  · refine .inr ⟨place, hlocate, ?_⟩
    split at h
    · rename_i hnone
      exact hnone
    · split at h
      · cases h
      · cases h
    · cases h

theorem find_of_apply_remove_eq_notFound (h : t.apply (.remove p) = .error .notFound) :
    t.find p = .error .notFound := by
  rcases bind_eq_error h with hfind | ⟨x, -, h⟩
  · exact hfind
  · split at h
    · cases h
    · cases h

/-- What is there is never reported as missing. -/
theorem apply_remove_join_ne_notFound (h : t.locate p = .ok home)
    (hget : t.get? home = some .directory) (hname : IsFileName name)
    (hthere : t.get? (home ++ [name]) ≠ none) :
    t.apply (.remove (p.join name)) ≠ .error .notFound := by
  intro happly
  rcases locate_of_find_eq_notFound (find_of_apply_remove_eq_notFound happly) with
    hlocate | ⟨place, hlocate, hnone⟩
  · rcases hfault : (p.join name).fault? with - | e
    · rw [locate_join h hget hname hfault, child] at hlocate
      split at hlocate
      · cases hlocate
      · cases hlocate
    · rw [locate_of_fault hfault] at hlocate
      obtain rfl := Except.error.inj hlocate
      exact FilePath.fault?_join_ne_notFound (fault?_of_locate h) hname hfault
  · rw [locate_join h hget hname (fault?_of_locate hlocate), child] at hlocate
    split at hlocate
    · cases hlocate
    · cases hlocate
      exact hthere hnone

/-! ### Removing several files -/

/-- The tree with nothing at the places. -/
def without (t : FileTree) (gone : List Place) : FileTree := ⟨t.nodes.filter (·.1 ∉ gone)⟩

variable {gone : List Place}

theorem without_nil (t : FileTree) : t.without [] = t := by
  simp [without]

theorem without_erase (place : Place) (gone : List Place) :
    (t.erase place).without gone = t.without (place :: gone) := by
  simp only [without, erase, List.filter_filter, List.mem_cons, not_or, Bool.decide_and, bne,
    Bool.and_comm, decide_not, beq_eq_decide]

theorem get?_without_of_mem (hplace : place ∈ gone) (hne : place ≠ []) :
    (t.without gone).get? place = none := by
  rw [get?_of_ne_nil hne, List.lookup_eq_none_iff]
  intro x hx
  have hout := (List.mem_filter.mp hx).2
  rw [bne_iff_ne]
  rintro rfl
  simp [hplace] at hout

theorem get?_without_of_not_mem (hplace : place ∉ gone) :
    (t.without gone).get? place = t.get? place := by
  induction gone generalizing t with
  | nil => rw [without_nil]
  | cons first gone ih =>
    rw [List.mem_cons, not_or] at hplace
    rw [← without_erase, ih hplace.2, get?_erase_of_ne hplace.1]

theorem WellFormed.without (h : t.WellFormed) (gone : List Place) :
    (t.without gone).WellFormed := by
  refine ⟨h.distinct.sublist (List.filter_sublist.map _), fun place hplace => h.proper place ?_⟩
  by_cases hmem : place ∈ gone
  · rcases eq_or_ne place [] with rfl | hne
    · simp [get?_nil]
    · exact absurd (get?_without_of_mem hmem hne) hplace
  · rwa [get?_without_of_not_mem hmem] at hplace

/-- Removing files leaves directories and other files as they are. -/
theorem spares_without (hfiles : ∀ place ∈ gone, ∃ content, t.get? place = some (.file content)) :
    Spares t (t.without gone) {place | place ∈ gone} := by
  have hgone : ∀ place ∈ gone, t.get? place ≠ some .directory ∧
      (t.without gone).get? place = none := by
    intro place hplace
    obtain ⟨content, hfile⟩ := hfiles place hplace
    have hdirectory : t.get? place ≠ some .directory := by simp [hfile]
    exact ⟨hdirectory, get?_without_of_mem hplace (ne_nil_of_get? hdirectory)⟩
  refine ⟨fun place => ?_, fun place hplace => get?_without_of_not_mem hplace,
    fun place hplace => ?_⟩
  · by_cases hmem : place ∈ gone
    · simp [hgone place hmem]
    · rw [get?_without_of_not_mem hmem]
  · by_cases hmem : place ∈ gone
    · exact absurd (hgone place hmem).2 hplace
    · rw [get?_without_of_not_mem hmem] at hplace
      exact .inl hplace

theorem names_without (home : Place) : (t.without gone).names home =
    (t.names home).filter fun name => home ++ [name] ∉ gone := by
  have hnodes : (t.without gone).nodes.map Prod.fst =
      (t.nodes.map Prod.fst).filter fun place => place ∉ gone := by
    rw [List.filter_map]
    rfl
  rw [names_eq, names_eq, hnodes, List.filterMap_filter, List.filter_filterMap]
  refine List.filterMap_congr fun place _ => ?_
  rcases hname : nameIn home place with - | name
  · simp
  · rw [nameIn_eq_some_iff.mp hname]
    rfl

/-! ### Reading what was left alone -/

theorem find_of_keeps {x : Place × FileNode} (hkeeps : Keeps t t')
    (hsame : ∀ place, p.place? = some place → t'.get? place = t.get? place)
    (h : t.find p = .ok x) : t'.find p = .ok x := by
  obtain ⟨place, hlocate, h⟩ := bind_eq_ok h
  simp only [find, locate_of_keeps hkeeps hlocate, bind, Except.bind,
    hsame place (place?_of_locate hlocate)]
  exact h

/-- What is left alone is found as before. -/
theorem find_eq_ok_iff_of_spares {x : Place × FileNode} (h : Spares t t' S)
    (hp : ∀ place, p.place? = some place → place ∉ S) : t'.find p = .ok x ↔ t.find p = .ok x :=
  ⟨find_of_keeps h.directories.symm.keeps fun place hplace =>
      (h.elsewhere place (hp place hplace)).symm,
    find_of_keeps h.keeps fun place hplace => h.elsewhere place (hp place hplace)⟩

theorem read_eq_ok_iff_of_spares {content : ByteArray} (h : Spares t t' S)
    (hp : ∀ place, p.place? = some place → place ∉ S) :
    t'.read p = .ok content ↔ t.read p = .ok content := by
  rw [read, read, bind_eq_ok_iff, bind_eq_ok_iff]
  exact exists_congr fun x => and_congr_left fun _ => find_eq_ok_iff_of_spares h hp

theorem present_of_spares (h : Spares t t' S) (hp : ∀ place, p.place? = some place → place ∉ S) :
    t'.present p = t.present p := by
  have hpresent : ∀ s : FileTree, s.present p = true ↔ ∃ x, s.find p = .ok x := by
    intro s
    unfold present
    rcases s.find p with e | x
    · simp
    · simp
  rw [Bool.eq_iff_iff, hpresent, hpresent]
  exact exists_congr fun x => find_eq_ok_iff_of_spares h hp

end FileTree

end CampusQuery
