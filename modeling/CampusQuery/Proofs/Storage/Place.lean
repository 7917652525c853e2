/-
CampusQuery/Proofs/Storage/Place.lean

Where a path leads to.

Which place a path leads to can be read off the path (`FilePath.place?`); the tree only
decides whether the way there is open.  So two paths with different places never meet
in one file, and a way that is open stays open as long as no directory disappears
(`locate_of_keeps`).
-/
import CampusQuery.Proofs.Except
import CampusQuery.Storage.Tree

namespace CampusQuery

variable {t t' : FileTree} {p : FilePath} {place directory : Place} {name : String}

/-! ### Names -/

/-- The text can be the name of a file: it is one segment, which leads further down. -/
structure IsFileName (name : String) : Prop where
  noSlash : '/' ∉ name.toList
  ne_empty : name ≠ ""
  ne_dot : name ≠ "."
  ne_dots : name ≠ ".."

/-- A text with a long enough ending is no segment that leads elsewhere. -/
theorem IsFileName.of_append {stem ending : String} (hstem : '/' ∉ stem.toList)
    (hending : '/' ∉ ending.toList) (hlong : 2 < ending.length) : IsFileName (stem ++ ending) := by
  have hlength : 2 < (stem ++ ending).length := by
    rw [String.length_append]
    omega
  refine ⟨?_, ?_, ?_, ?_⟩
  · rw [String.toList_append, List.mem_append, not_or]
    exact ⟨hstem, hending⟩
  all_goals
    intro h
    rw [h] at hlength
    revert hlength
    decide

/-! ### Paths in a directory -/

namespace FilePath

theorem isAbsolute_eq_false (h : '/' ∉ name.toList) : (FilePath.mk name).isAbsolute = false := by
  rw [isAbsolute, beq_eq_false_iff_ne]
  intro he
  exact h (List.mem_of_mem_head? he)

/-- The segments of a path in a directory end in the name, after those of the
directory. -/
theorem segments_join (d : FilePath) (h : IsFileName name) :
    ∃ before, (d.join name).segments = before ++ [name] ∧
      (before.filter fun s => s != "" && s != ".") = d.steps := by
  have hsplit : (Text.split '/' name.toList).map String.ofList = [name] := by
    rw [Text.split_of_not_mem h.noSlash]
    simp
  rw [join, isAbsolute_eq_false h.noSlash]
  simp only [Bool.false_eq_true, if_false]
  split
  · rename_i hd
    rcases Bool.or_eq_true _ _ ▸ hd with hempty | hslash
    · -- the directory is the one in which the program runs
      have he : d.text = "" := by simpa using hempty
      refine ⟨[], ?_, ?_⟩
      · rw [segments, he]
        simpa using hsplit
      · rw [steps, segments, he]
        rfl
    · -- the last segment of the directory is empty and is replaced by the name
      obtain ⟨before, hb⟩ := List.getLast?_eq_some_iff.mp (beq_iff_eq.mp hslash)
      refine ⟨(Text.split '/' before).map String.ofList, ?_, ?_⟩
      · rw [segments, String.toList_append, hb, List.append_assoc, List.singleton_append,
          Text.split_append_cons, List.map_append, hsplit]
      · rw [steps, segments, hb, Text.split_append_cons, List.map_append, List.filter_append]
        simp [Text.split]
  · refine ⟨d.segments, ?_, rfl⟩
    rw [segments, String.toList_append, String.toList_append, List.append_assoc]
    show (Text.split '/' (d.text.toList ++ '/' :: name.toList)).map String.ofList = _
    rw [Text.split_append_cons, List.map_append, hsplit, segments]

theorem steps_join (d : FilePath) (h : IsFileName name) :
    (d.join name).steps = d.steps ++ [name] := by
  obtain ⟨before, hsegments, hbefore⟩ := segments_join d h
  rw [steps, hsegments, List.filter_append, hbefore]
  simp [h.ne_empty, h.ne_dot]

theorem asDirectory_join (d : FilePath) (h : IsFileName name) :
    (d.join name).asDirectory = false := by
  obtain ⟨before, hsegments, -⟩ := segments_join d h
  rw [asDirectory, hsegments]
  simp [h.ne_empty, h.ne_dot]

/-- The temporary file stands in the same directory. -/
theorem temporary_join (d : FilePath) (h : '/' ∉ name.toList) :
    (d.join name).temporary = d.join (name ++ ".tmp") := by
  have htemp : '/' ∉ (name ++ ".tmp").toList := by
    rw [String.toList_append, List.mem_append, not_or]
    exact ⟨h, by decide⟩
  rw [join, join, isAbsolute_eq_false h, isAbsolute_eq_false htemp]
  simp only [Bool.false_eq_true, if_false]
  split
  · rw [temporary, String.append_assoc]
  · rw [temporary, String.append_assoc, String.append_assoc]

end FilePath

/-! ### The place of a path -/

namespace FileTree

/-- Where one segment leads from a directory. -/
def turn (directory : Place) (step : String) : Except FileError Place :=
  if step = ".." then leave directory else child directory step

/-- Where segments lead if every directory on the way is there. -/
def reach (directory : Place) : List String → Option Place
  | [] => some directory
  | step :: rest =>
    match turn directory step with
    | .ok place => reach place rest
    | .error _ => none

theorem reach_append (directory : Place) (first rest : List String) :
    reach directory (first ++ rest) = (reach directory first).bind (reach · rest) := by
  induction first generalizing directory with
  | nil => rfl
  | cons step first ih =>
    rw [List.cons_append, reach, reach]
    split
    · exact ih _
    · rfl

theorem turn_of_enter {step : String} (h : t.enter directory step = .ok place) :
    turn directory step = .ok place := by
  unfold enter at h
  unfold turn
  split at h
  · rename_i hup
    rw [if_pos hup]
    exact h
  · rename_i hup
    rw [if_neg hup]
    obtain ⟨next, hnext, h⟩ := bind_eq_ok h
    rw [hnext]
    split at h
    · cases h
    · cases h
    · exact h

theorem reach_of_follow {segments : List String} (h : t.follow directory segments = .ok place) :
    reach directory segments = some place := by
  induction segments generalizing directory with
  | nil =>
    cases h
    rfl
  | cons step rest ih =>
    rw [reach]
    rcases rest with - | ⟨next, rest⟩
    · have hturn : turn directory step = .ok place := h
      rw [hturn]
      rfl
    · obtain ⟨middle, hmiddle, h⟩ := bind_eq_ok (show
        (t.enter directory step >>= fun middle => t.follow middle (next :: rest)) = _ from h)
      rw [turn_of_enter hmiddle]
      exact ih h

end FileTree

/-- The place that the path leads to, if every directory on the way is there. -/
def FilePath.place? (p : FilePath) : Option Place := FileTree.reach [] p.steps

/-- A path leads to its place or nowhere. -/
theorem FileTree.place?_of_locate (h : t.locate p = .ok place) : p.place? = some place := by
  unfold locate at h
  split at h
  · cases h
  · exact reach_of_follow h

/-- A name stands below its directory. -/
theorem FilePath.place?_join (d : FilePath) (h : IsFileName name)
    (hplace : (d.join name).place? = some place) :
    ∃ directory, d.place? = some directory ∧ place = directory ++ [name] := by
  rw [place?, steps_join d h, FileTree.reach_append] at hplace
  obtain ⟨directory, hdirectory, hplace⟩ := Option.bind_eq_some_iff.mp hplace
  refine ⟨directory, hdirectory, ?_⟩
  rw [FileTree.reach, FileTree.turn, if_neg h.ne_dots, FileTree.child] at hplace
  split at hplace
  · rename_i hok
    split at hok
    · cases hok
    · cases hok
      exact (Option.some.inj hplace).symm
  · cases hplace

/-! ### Places without slashes -/

/-- No name on the way to the place holds a slash. -/
def IsProper (place : Place) : Prop := ∀ name ∈ place, '/' ∉ name.toList

theorem Text.not_mem_of_mem_split {separator : Char} {cs part : List Char}
    (h : part ∈ Text.split separator cs) : separator ∉ part := by
  induction cs generalizing part with
  | nil =>
    rw [Text.split, List.mem_singleton] at h
    rw [h]
    exact List.not_mem_nil
  | cons c rest ih =>
    rw [Text.split] at h
    split at h
    · rcases List.mem_cons.mp h with rfl | h
      · exact List.not_mem_nil
      · exact ih h
    · rename_i hc
      split at h
      · rw [List.mem_singleton] at h
        rw [h, List.mem_singleton]
        exact fun e => hc e.symm
      · rename_i first others hsplit
        rw [hsplit] at ih
        rcases List.mem_cons.mp h with rfl | h
        · rw [List.mem_cons, not_or]
          exact ⟨fun e => hc e.symm, ih List.mem_cons_self⟩
        · exact ih (List.mem_cons_of_mem _ h)

theorem isProper_of_reach {segments : List String} (hdirectory : IsProper directory)
    (hsegments : ∀ s ∈ segments, '/' ∉ s.toList)
    (h : FileTree.reach directory segments = some place) : IsProper place := by
  induction segments generalizing directory with
  | nil => exact Option.some.inj h ▸ hdirectory
  | cons step rest ih =>
    obtain ⟨hstep, hrest⟩ := List.forall_mem_cons.mp hsegments
    rw [FileTree.reach] at h
    split at h
    · rename_i next hnext
      refine ih ?_ hrest h
      unfold FileTree.turn at hnext
      split at hnext
      · -- a step up drops a name
        unfold FileTree.leave at hnext
        split at hnext
        · cases hnext
        · cases hnext
          exact fun s hs => hdirectory s (List.dropLast_subset _ hs)
      · -- a step down adds its own
        unfold FileTree.child at hnext
        split at hnext
        · cases hnext
        · cases hnext
          intro s hs
          rcases List.mem_append.mp hs with hs | hs
          · exact hdirectory s hs
          · exact List.mem_singleton.mp hs ▸ hstep
    · cases h

theorem isProper_of_steps {outer : List String} (h : ∀ s ∈ outer, s ∈ p.steps)
    (hplace : FileTree.reach [] outer = some place) : IsProper place := by
  refine isProper_of_reach (fun _ hs => absurd hs List.not_mem_nil) (fun s hs => ?_) hplace
  obtain ⟨part, hpart, rfl⟩ := List.mem_map.mp (List.mem_filter.mp (h s hs)).1
  rw [String.toList_ofList]
  exact Text.not_mem_of_mem_split hpart

/-! ### Ways that stay open -/

namespace FileTree

/-- Every directory is still there. -/
def Keeps (t t' : FileTree) : Prop :=
  ∀ place, t.get? place = some .directory → t'.get? place = some .directory

theorem enter_of_keeps (hkeeps : Keeps t t') {step : String}
    (h : t.enter directory step = .ok place) : t'.enter directory step = .ok place := by
  unfold enter at h ⊢
  split at h
  · rename_i hup
    rw [if_pos hup]
    exact h
  · rename_i hup
    rw [if_neg hup]
    obtain ⟨next, hnext, h⟩ := bind_eq_ok h
    split at h
    · cases h
    · cases h
    · rename_i hdirectory
      simp only [hnext, bind, Except.bind, hkeeps next hdirectory]
      exact h

theorem follow_of_keeps (hkeeps : Keeps t t') {segments : List String}
    (h : t.follow directory segments = .ok place) : t'.follow directory segments = .ok place := by
  induction segments generalizing directory with
  | nil => exact h
  | cons step rest ih =>
    rcases rest with - | ⟨next, rest⟩
    · exact h
    · obtain ⟨middle, hmiddle, h⟩ := bind_eq_ok (show
        (t.enter directory step >>= fun middle => t.follow middle (next :: rest)) = _ from h)
      show (t'.enter directory step >>= fun middle => t'.follow middle (next :: rest)) = _
      rw [enter_of_keeps hkeeps hmiddle]
      exact ih h

theorem locate_of_keeps (hkeeps : Keeps t t') (h : t.locate p = .ok place) :
    t'.locate p = .ok place := by
  unfold locate at h ⊢
  split at h
  · cases h
  · exact follow_of_keeps hkeeps h

end FileTree

end CampusQuery
