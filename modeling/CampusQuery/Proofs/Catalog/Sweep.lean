/-
CampusQuery/Proofs/Catalog/Sweep.lean

What opening a catalog removes.

The sweep removes the files of datasets that the map does not list, as far as they can be removed
(`removable`), and reports the others.  Removing one file changes nothing for the others, so what is
removed and what is reported can be read off the files before the sweep (`runIn_sweep`), also if the
listing of the directory breaks off (`runIn_sweep_eq_error`).  After a sweep only files are left
that are listed or cannot be removed: a second sweep finds nothing to do and reports the same
(`swept_swept`).
-/
import CampusQuery.Proofs.Catalog.Reading
import CampusQuery.Proofs.Storage.Removal

namespace CampusQuery

variable {refuse : Refusals} {t u : FileTree} {w w' : World} {d : DataDirectory}
variable {home place : Place} {id : String} {ids listed names : List String}

namespace DataDirectory

/-! ### The directory of the dataset files -/

/-- The directory of the dataset files is there, at the place `home`. -/
structure IsHome (d : DataDirectory) (t : FileTree) (home : Place) : Prop where
  locate : t.locate d.datasetsPath = .ok home
  directory : t.get? home = some .directory

theorem IsHome.of_keeps (hkeeps : FileTree.Keeps t u) (h : d.IsHome t home) : d.IsHome u home :=
  ⟨FileTree.locate_of_keeps hkeeps h.locate, hkeeps home h.directory⟩

theorem list_eq_ok_iff : t.list d.datasetsPath = .ok names ↔
    ∃ home, d.IsHome t home ∧ names = t.names home := by
  constructor
  · intro h
    obtain ⟨⟨home, node⟩, hfind, h⟩ := bind_eq_ok h
    split at h
    · rename_i heq
      cases heq
      obtain ⟨hlocate, hget⟩ := FileTree.find_eq_directory_iff.mp hfind
      exact ⟨home, ⟨hlocate, hget⟩, (Except.ok.inj h).symm⟩
    · cases h
  · rintro ⟨home, ⟨hlocate, hget⟩, rfl⟩
    have hfind := FileTree.find_eq_directory_iff.mpr ⟨hlocate, hget⟩
    simp only [FileTree.list, hfind, bind, Except.bind]

/-! ### Orphans -/

theorem idOfFile?_eq_some_iff {name : String} : idOfFile? name = some id ↔ name = fileName id := by
  have hending : ".json".toList.isSuffixOf name.toList = true ↔
      ∃ stem, stem ++ ".json".toList = name.toList := List.isSuffixOf_iff_suffix
  unfold idOfFile?
  dsimp only
  constructor
  · intro h
    split at h
    · rename_i hsuffix
      obtain ⟨stem, hstem⟩ := hending.mp hsuffix
      have hid : id = String.ofList stem := by
        rw [← Option.some.inj h, ← hstem, List.length_append, Nat.add_sub_cancel, List.take_left]
      rw [← String.toList_inj, fileName, String.toList_append, hid, String.toList_ofList, hstem]
    · cases h
  · rintro rfl
    rw [if_pos (hending.mpr ⟨id.toList, by rw [fileName, String.toList_append]⟩), fileName,
      String.toList_append, List.length_append, Nat.add_sub_cancel, List.take_left,
      String.ofList_toList]

theorem mem_orphans_iff : id ∈ orphans listed names ↔ fileName id ∈ names ∧ id ∉ listed := by
  rw [orphans, List.mem_filter, List.mem_filterMap, Bool.not_eq_true', List.contains_eq_mem,
    decide_eq_false_iff_not]
  refine and_congr_left fun _ => ?_
  constructor
  · rintro ⟨name, hname, hid⟩
    rwa [← idOfFile?_eq_some_iff.mp hid]
  · exact fun hname => ⟨_, hname, idOfFile?_eq_some_iff.mpr rfl⟩

theorem nodup_orphans (h : names.Nodup) : (orphans listed names).Nodup := by
  refine (h.filterMap fun name name' id hid hid' => ?_).filter _
  rw [idOfFile?_eq_some_iff.mp hid, idOfFile?_eq_some_iff.mp hid']

/-- Names that are left out are orphans that are left out. -/
theorem orphans_filter (keep : String → Bool) : orphans listed (names.filter keep) =
    (orphans listed names).filter fun id => keep (fileName id) := by
  have hkeep : (names.filter keep).filterMap idOfFile? =
      (names.filterMap idOfFile?).filter fun id => keep (fileName id) := by
    rw [List.filterMap_filter, List.filter_filterMap]
    refine List.filterMap_congr fun name _ => ?_
    rcases hid : idOfFile? name with - | id
    · simp
    · rw [idOfFile?_eq_some_iff.mp hid]
      rfl
  rw [orphans, hkeep, orphans, List.filter_filter, List.filter_filter]
  exact List.filter_congr fun id _ => Bool.and_comm _ _

/-! ### Removing one file -/

/-- The file of a dataset can be removed. -/
def removable (d : DataDirectory) (refuse : Refusals) (t : FileTree) (id : String) : Bool :=
  (refuse.apply t (.remove (d.datasetPath id))).isOk

theorem removable_iff (hhome : d.IsHome t home) (hid : '/' ∉ id.toList) :
    d.removable refuse t id = true ↔ (refuse (.change (.remove (d.datasetPath id))) = none ∧
      (d.datasetPath id).fault? = none ∧ (fileName id).utf8ByteSize ≤ FilePath.maxNameBytes) ∧
        ∃ content, t.get? (home ++ [fileName id]) = some (.file content) := by
  have hremove : ∀ t', t.apply (.remove (d.datasetPath id)) = .ok t' ↔ _ := fun t' =>
    FileTree.apply_remove_join_eq_ok_iff hhome.locate hhome.directory (isFileName_fileName hid)
  constructor
  · intro h
    obtain ⟨t', h⟩ := exists_of_isOk h
    obtain ⟨hnone, happly⟩ := Refusals.answer_eq_ok_iff.mp h
    obtain ⟨hpath, hfile, -⟩ := (hremove t').mp happly
    exact ⟨⟨hnone, hpath⟩, hfile⟩
  · rintro ⟨⟨hnone, hpath⟩, hfile⟩
    have happly : refuse.apply t (.remove (d.datasetPath id)) = .ok _ :=
      Refusals.answer_eq_ok_iff.mpr ⟨hnone, (hremove _).mpr ⟨hpath, hfile, rfl⟩⟩
    exact congrArg Except.isOk happly

/-- Whether a file can be removed does not depend on other files. -/
theorem removable_congr (hhome : d.IsHome t home) (hhome' : d.IsHome u home)
    (hid : '/' ∉ id.toList)
    (hsame : u.get? (home ++ [fileName id]) = t.get? (home ++ [fileName id])) :
    d.removable refuse u id = d.removable refuse t id := by
  rw [Bool.eq_iff_iff, removable_iff hhome hid, removable_iff hhome' hid, hsame]

theorem runIn_removeDataset (hrefuse : ∀ p, refuse (.change (.remove p)) ≠ some .notFound)
    (hhome : d.IsHome w.files home) (hid : '/' ∉ id.toList)
    (hthere : w.files.get? (home ++ [fileName id]) ≠ none) :
    (d.removeDataset id).runIn refuse w =
      if d.removable refuse w.files id then
        (true, { w with files := w.files.erase (home ++ [fileName id]) })
      else (false, w) := by
  have hname := isFileName_fileName hid
  rw [removeDataset, Program.runIn_bind, removable, Program.changing, Program.runIn]
  rcases happly : refuse.apply w.files (.remove (d.datasetPath id)) with e | t
  · have hne : e ≠ .notFound := by
      rintro rfl
      unfold Refusals.apply Refusals.answer at happly
      split at happly
      · rename_i e he
        cases happly
        exact hrefuse _ he
      · exact FileTree.apply_remove_join_ne_notFound hhome.locate hhome.directory hname hthere
          happly
    cases e with
    | notFound => exact absurd rfl hne
    | _ => rfl
  · obtain ⟨-, happly⟩ := Refusals.answer_eq_ok_iff.mp happly
    obtain ⟨-, -, rfl⟩ := (FileTree.apply_remove_join_eq_ok_iff hhome.locate hhome.directory
      hname).mp happly
    rfl

/-! ### Removing all orphans -/

/-- The places of the files that can be removed. -/
def sweptPlaces (d : DataDirectory) (refuse : Refusals) (t : FileTree) (home : Place)
    (ids : List String) : List Place :=
  (ids.filter (d.removable refuse t)).map fun id => home ++ [fileName id]

theorem sweptPlaces_cons_of_pos (h : d.removable refuse t id = true) :
    d.sweptPlaces refuse t home (id :: ids) =
      (home ++ [fileName id]) :: d.sweptPlaces refuse t home ids :=
  congrArg (List.map _) (List.filter_cons_of_pos h)

theorem sweptPlaces_cons_of_neg (h : ¬ d.removable refuse t id = true) :
    d.sweptPlaces refuse t home (id :: ids) = d.sweptPlaces refuse t home ids :=
  congrArg (List.map _) (List.filter_cons_of_neg h)

theorem sweptPlaces_congr (h : ∀ id ∈ ids, d.removable refuse u id = d.removable refuse t id) :
    d.sweptPlaces refuse u home ids = d.sweptPlaces refuse t home ids :=
  congrArg (List.map _) (List.filter_congr h)

theorem append_fileName_inj {id' : String} (h : home ++ [fileName id] = home ++ [fileName id']) :
    id = id' :=
  fileName_inj.mp (List.singleton_inj.mp (List.append_cancel_left h))

theorem runIn_removeAll_cons (d : DataDirectory) (id : String) (ids : List String) (w : World) :
    (d.removeAll (id :: ids)).runIn refuse w =
      (if ((d.removeDataset id).runIn refuse w).1 then
          ((d.removeAll ids).runIn refuse ((d.removeDataset id).runIn refuse w).2).1
        else id :: ((d.removeAll ids).runIn refuse ((d.removeDataset id).runIn refuse w).2).1,
        ((d.removeAll ids).runIn refuse ((d.removeDataset id).runIn refuse w).2).2) := by
  rw [removeAll, Program.runIn_bind, Program.runIn_bind]
  rfl

/-- **Removing files one after the other** removes those that could be removed at the start. -/
theorem runIn_removeAll (hrefuse : ∀ p, refuse (.change (.remove p)) ≠ some .notFound)
    (hhome : d.IsHome w.files home) (hnodup : ids.Nodup) (hids : ∀ id ∈ ids, '/' ∉ id.toList)
    (hthere : ∀ id ∈ ids, w.files.get? (home ++ [fileName id]) ≠ none) :
    (d.removeAll ids).runIn refuse w =
      (ids.filter fun id => !d.removable refuse w.files id,
        { w with files := w.files.without (d.sweptPlaces refuse w.files home ids) }) := by
  induction ids generalizing w with
  | nil =>
    have hnone : d.sweptPlaces refuse w.files home [] = [] := rfl
    rw [hnone, FileTree.without_nil]
    rfl
  | cons id ids ih =>
    obtain ⟨hnew, hnodup⟩ := List.nodup_cons.mp hnodup
    obtain ⟨hid, hids⟩ := List.forall_mem_cons.mp hids
    obtain ⟨hhere, hthere⟩ := List.forall_mem_cons.mp hthere
    rw [runIn_removeAll_cons, runIn_removeDataset hrefuse hhome hid hhere]
    by_cases hremovable : d.removable refuse w.files id = true
    · -- the file is gone, and for the others nothing has changed
      obtain ⟨-, content, hfile⟩ := (removable_iff hhome hid).mp hremovable
      have hspares : FileTree.Spares w.files (w.files.erase (home ++ [fileName id])) _ :=
        FileTree.spares_erase (by simp [hfile])
      have hhome' := hhome.of_keeps hspares.keeps
      have hsame : ∀ id' ∈ ids, (w.files.erase (home ++ [fileName id])).get?
          (home ++ [fileName id']) = w.files.get? (home ++ [fileName id']) := by
        intro id' hid'
        refine FileTree.get?_erase_of_ne fun he => hnew ?_
        rwa [← append_fileName_inj he]
      have hcongr : ∀ id' ∈ ids,
          d.removable refuse (w.files.erase (home ++ [fileName id])) id' =
            d.removable refuse w.files id' := fun id' hid' =>
        removable_congr hhome hhome' (hids id' hid') (hsame id' hid')
      have hrest := @ih { w with files := w.files.erase (home ++ [fileName id]) } hhome' hnodup
        hids fun id' hid' => by rw [hsame id' hid']; exact hthere id' hid'
      rw [if_pos hremovable, hrest, sweptPlaces_congr hcongr, FileTree.without_erase,
        sweptPlaces_cons_of_pos hremovable, List.filter_cons_of_neg (by simp [hremovable])]
      refine congrArg (fun stuck => (stuck, _)) ?_
      exact List.filter_congr fun id' hid' => by rw [hcongr id' hid']
    · rw [if_neg hremovable, @ih w hhome hnodup hids hthere, sweptPlaces_cons_of_neg hremovable,
        List.filter_cons_of_pos (by simpa using hremovable)]
      rfl

/-- The files without those that a sweep removes. -/
def swept (d : DataDirectory) (refuse : Refusals) (t : FileTree) (home : Place)
    (listed : List String) : FileTree :=
  t.without (d.sweptPlaces refuse t home (orphans listed (t.names home)))

/-- The ids of the files that are not listed and cannot be removed. -/
def stuck (d : DataDirectory) (refuse : Refusals) (t : FileTree) (home : Place)
    (listed : List String) : List String :=
  (orphans listed (t.names home)).filter fun id => !d.removable refuse t id

theorem noSlash_of_mem_orphans (hwell : t.WellFormed) (hid : id ∈ orphans listed (t.names home)) :
    '/' ∉ id.toList := by
  have hthere := FileTree.mem_names_iff.mp (mem_orphans_iff.mp hid).1
  have hslash := hwell.proper _ hthere (fileName id) (by simp)
  rw [fileName, String.toList_append, List.mem_append, not_or] at hslash
  exact hslash.1

/-- A sweep removes what can be removed of the orphans that it meets. -/
theorem runIn_sweep_of_list (hrefuse : ∀ p, refuse (.change (.remove p)) ≠ some .notFound)
    (hwell : w.files.WellFormed) (hhome : d.IsHome w.files home) {found : FoundNames}
    (hlist : refuse.list w.files d.datasetsPath = .ok found)
    (hfound : found.texts <+: w.files.names home) :
    (d.sweep listed).runIn refuse w =
      (match found.failure with
        | some e => .error (.unreachable d.datasetsPath e)
        | none => .ok (((orphans listed found.texts).filter
            fun id => !d.removable refuse w.files id).mergeSort fun a b => a ≤ b),
        { w with
          files := w.files.without
            (d.sweptPlaces refuse w.files home (orphans listed found.texts)) }) := by
  have hmem : ∀ id ∈ orphans listed found.texts, id ∈ orphans listed (w.files.names home) :=
    fun id hid => mem_orphans_iff.mpr
      ⟨hfound.subset (mem_orphans_iff.mp hid).1, (mem_orphans_iff.mp hid).2⟩
  rw [sweep, Action.runIn_bind, Action.runIn_list, hlist]
  show ((liftM (d.removeAll _) : Action CatalogError _) >>= _).runIn refuse w = _
  rw [Action.runIn_lift_bind, runIn_removeAll hrefuse hhome
    (nodup_orphans ((hwell.nodup_names home).sublist hfound.sublist))
    (fun id hid => noSlash_of_mem_orphans hwell (hmem id hid))
    fun id hid => FileTree.mem_names_iff.mp (mem_orphans_iff.mp (hmem id hid)).1]
  rcases found.failure with - | e
  · rfl
  · rfl

/-- **What a sweep does** can be read off the files before it. -/
theorem runIn_sweep (hrefuse : ∀ p, refuse (.change (.remove p)) ≠ some .notFound)
    (hwell : w.files.WellFormed) (hhome : d.IsHome w.files home)
    (hlist : refuse.Completes d.datasetsPath (w.files.names home).length) :
    (d.sweep listed).runIn refuse w =
      (.ok ((d.stuck refuse w.files home listed).mergeSort fun a b => a ≤ b),
        { w with files := d.swept refuse w.files home listed }) := by
  have htexts := FoundNames.texts_whole (w.files.names home)
  have hsweep : (d.sweep listed).runIn refuse w = _ :=
    runIn_sweep_of_list hrefuse hwell hhome (hlist.list (list_eq_ok_iff.mpr ⟨home, hhome, rfl⟩))
      ⟨[], (List.append_nil _).trans htexts⟩
  rw [htexts] at hsweep
  exact hsweep

/-- The sweep removed what it could of the first orphans in the directory, and then the listing
broke off. -/
def SweepsSome (d : DataDirectory) (refuse : Refusals) (t u : FileTree) (listed : List String) :
    Prop :=
  ∃ home before rest e, d.IsHome t home ∧ t.names home = before ++ rest ∧
    refuse (.advance d.datasetsPath before.length) = some e ∧
    u = t.without (d.sweptPlaces refuse t home (orphans listed before))

/-- What a sweep meets in the directory. -/
theorem runIn_sweep_cases (hrefuse : ∀ p, refuse (.change (.remove p)) ≠ some .notFound)
    (hwell : w.files.WellFormed) {result : Except CatalogError (List String)}
    (h : (d.sweep listed).runIn refuse w = (result, w')) :
    (∃ home, d.IsHome w.files home ∧
        refuse.Completes d.datasetsPath (w.files.names home).length) ∨
      ∃ e, result = .error e ∧
        (w' = w ∨ ∃ u, d.SweepsSome refuse w.files u listed ∧ w' = { w with files := u }) := by
  rcases hlist : refuse.list w.files d.datasetsPath with e | found
  · rw [sweep, Action.runIn_bind, Action.runIn_list, hlist] at h
    obtain ⟨rfl, rfl⟩ := Prod.mk.inj h
    exact .inr ⟨_, rfl, .inl rfl⟩
  · rcases Refusals.list_cases hlist with
      ⟨names, hnames, rfl, hcompletes⟩ | ⟨before, rest, e, hnames, rfl, hfault⟩
    · obtain ⟨home, hhome, rfl⟩ := list_eq_ok_iff.mp hnames
      exact .inl ⟨home, hhome, hcompletes⟩
    · obtain ⟨home, hhome, hbefore⟩ := list_eq_ok_iff.mp hnames
      have htexts : (FoundNames.mk (before.map some) (some e)).texts = before :=
        FoundNames.texts_whole before
      rw [runIn_sweep_of_list hrefuse hwell hhome hlist
        (by rw [htexts, ← hbefore]; exact List.prefix_append _ _), htexts] at h
      obtain ⟨rfl, rfl⟩ := Prod.mk.inj h
      exact .inr ⟨_, rfl, .inr ⟨_, ⟨home, before, rest, e, hhome, hbefore.symm, hfault, rfl⟩, rfl⟩⟩

/-- A sweep ends well only where the directory can be listed. -/
theorem runIn_sweep_eq_ok (hrefuse : ∀ p, refuse (.change (.remove p)) ≠ some .notFound)
    (hwell : w.files.WellFormed) (h : (d.sweep listed).runIn refuse w = (.ok ids, w')) :
    ∃ home, d.IsHome w.files home ∧
      refuse.Completes d.datasetsPath (w.files.names home).length := by
  rcases runIn_sweep_cases hrefuse hwell h with hhome | ⟨e, he, -⟩
  · exact hhome
  · cases he

/-- A sweep fails only where the directory cannot be listed to its end.  Then nothing is removed, or
the orphans that were met before. -/
theorem runIn_sweep_eq_error (hrefuse : ∀ p, refuse (.change (.remove p)) ≠ some .notFound)
    (hwell : w.files.WellFormed) {e : CatalogError}
    (h : (d.sweep listed).runIn refuse w = (.error e, w')) :
    w' = w ∨ ∃ u, d.SweepsSome refuse w.files u listed ∧ w' = { w with files := u } := by
  rcases runIn_sweep_cases hrefuse hwell h with ⟨home, hhome, hcompletes⟩ | ⟨e', -, hfailed⟩
  · rw [runIn_sweep hrefuse hwell hhome hcompletes] at h
    cases (Prod.mk.inj h).1
  · exact hfailed

/-! ### The files after a sweep -/

/-- At the place stands the file of a dataset that is not listed. -/
structure IsOrphan (d : DataDirectory) (t : FileTree) (listed : List String) (id : String)
    (place : Place) : Prop where
  unlisted : id ∉ listed
  named : place ∈ d.below ["datasets", fileName id]
  there : t.get? place ≠ none

theorem IsHome.mem_below_iff {name : String} (hhome : d.IsHome t home) :
    place ∈ d.below ["datasets", name] ↔ place = home ++ [name] := by
  obtain ⟨base, hbase, rfl⟩ :=
    d.path.place?_join isFileName_datasets (FileTree.place?_of_locate hhome.locate)
  constructor
  · rintro ⟨base', hbase', rfl⟩
    obtain rfl := Option.some.inj (hbase.symm.trans hbase')
    simp
  · rintro rfl
    exact ⟨base, hbase, by simp⟩

theorem isOrphan_iff (hhome : d.IsHome t home) : d.IsOrphan t listed id place ↔
    id ∈ orphans listed (t.names home) ∧ place = home ++ [fileName id] := by
  rw [mem_orphans_iff, FileTree.mem_names_iff]
  constructor
  · rintro ⟨hunlisted, hnamed, hthere⟩
    obtain rfl := hhome.mem_below_iff.mp hnamed
    exact ⟨⟨hthere, hunlisted⟩, rfl⟩
  · rintro ⟨⟨hthere, hunlisted⟩, rfl⟩
    exact ⟨hunlisted, hhome.mem_below_iff.mpr rfl, hthere⟩

theorem mem_sweptPlaces_iff (hhome : d.IsHome t home) :
    place ∈ d.sweptPlaces refuse t home (orphans listed (t.names home)) ↔
      ∃ id, d.IsOrphan t listed id place ∧ d.removable refuse t id = true := by
  refine List.mem_map.trans ?_
  constructor
  · rintro ⟨id, hid, rfl⟩
    obtain ⟨horphan, hremovable⟩ := List.mem_filter.mp hid
    exact ⟨id, (isOrphan_iff hhome).mpr ⟨horphan, rfl⟩, hremovable⟩
  · rintro ⟨id, horphan, hremovable⟩
    obtain ⟨hid, rfl⟩ := (isOrphan_iff hhome).mp horphan
    exact ⟨id, List.mem_filter.mpr ⟨hid, hremovable⟩, rfl⟩

theorem isFile_of_removable (hwell : t.WellFormed) (hhome : d.IsHome t home)
    (horphan : d.IsOrphan t listed id place) (hremovable : d.removable refuse t id = true) :
    ∃ content, t.get? place = some (.file content) := by
  obtain ⟨hid, rfl⟩ := (isOrphan_iff hhome).mp horphan
  exact ((removable_iff hhome (noSlash_of_mem_orphans hwell hid)).mp hremovable).2

/-- A sweep touches the files of datasets only that are not listed. -/
theorem spares_swept (hwell : t.WellFormed) (hhome : d.IsHome t home) :
    FileTree.Spares t (d.swept refuse t home listed)
      {place | ∃ id ∉ listed, place ∈ d.below ["datasets", fileName id]} := by
  refine (FileTree.spares_without fun place hplace => ?_).mono fun place hplace => ?_
  · obtain ⟨id, horphan, hremovable⟩ := (mem_sweptPlaces_iff hhome).mp hplace
    exact isFile_of_removable hwell hhome horphan hremovable
  · obtain ⟨id, horphan, -⟩ := (mem_sweptPlaces_iff hhome).mp hplace
    exact ⟨id, horphan.unlisted, horphan.named⟩

theorem SweepsSome.refused (h : d.SweepsSome refuse t u listed) :
    ∃ met e, refuse (.advance d.datasetsPath met) = some e := by
  obtain ⟨home, before, rest, e, -, -, hrefused, -⟩ := h
  exact ⟨_, e, hrefused⟩

/-- Whatever the sweep met, nothing is gone but orphans that can be removed. -/
theorem SweepsSome.get? (h : d.SweepsSome refuse t u listed) (place : Place) :
    u.get? place = t.get? place ∨
      (∃ id, d.IsOrphan t listed id place ∧ d.removable refuse t id = true) ∧
        u.get? place = none := by
  obtain ⟨home, before, rest, e, hhome, hnames, -, rfl⟩ := h
  by_cases hmem : place ∈ d.sweptPlaces refuse t home (orphans listed before)
  · obtain ⟨id, hid, rfl⟩ := List.mem_map.mp hmem
    obtain ⟨hmet, hremovable⟩ := List.mem_filter.mp hid
    obtain ⟨hname, hunlisted⟩ := mem_orphans_iff.mp hmet
    have horphan : id ∈ orphans listed (t.names home) :=
      mem_orphans_iff.mpr ⟨hnames ▸ List.mem_append_left _ hname, hunlisted⟩
    exact .inr ⟨⟨id, (isOrphan_iff hhome).mpr ⟨horphan, rfl⟩, hremovable⟩,
      FileTree.get?_without_of_mem hmem (by simp)⟩
  · exact .inl (FileTree.get?_without_of_not_mem hmem)

/-! ### A second sweep -/

/-- The orphans that are left are those that cannot be removed. -/
theorem orphans_swept (hhome : d.IsHome t home) :
    orphans listed ((d.swept refuse t home listed).names home) =
      d.stuck refuse t home listed := by
  show orphans listed ((t.without _).names home) = _
  rw [FileTree.names_without, orphans_filter]
  refine List.filter_congr fun id hid => ?_
  have hmem : home ++ [fileName id] ∈
      d.sweptPlaces refuse t home (orphans listed (t.names home)) ↔
        d.removable refuse t id = true := by
    rw [mem_sweptPlaces_iff hhome]
    constructor
    · rintro ⟨id', horphan, hremovable⟩
      rwa [append_fileName_inj ((isOrphan_iff hhome).mp horphan).2]
    · exact fun hremovable => ⟨id, (isOrphan_iff hhome).mpr ⟨hid, rfl⟩, hremovable⟩
  simp only [decide_not, hmem, Bool.decide_eq_true]

theorem removable_swept (hwell : t.WellFormed) (hhome : d.IsHome t home)
    (hid : id ∈ d.stuck refuse t home listed) :
    d.removable refuse (d.swept refuse t home listed) id = false := by
  obtain ⟨horphan, hstuck⟩ := List.mem_filter.mp hid
  rw [Bool.not_eq_true'] at hstuck
  rw [removable_congr hhome (hhome.of_keeps (spares_swept hwell hhome).keeps)
    (noSlash_of_mem_orphans hwell horphan), hstuck]
  refine FileTree.get?_without_of_not_mem fun hmem => ?_
  obtain ⟨id', horphan', hremovable⟩ := (mem_sweptPlaces_iff hhome).mp hmem
  rw [append_fileName_inj ((isOrphan_iff hhome).mp horphan').2, hremovable] at hstuck
  cases hstuck

/-- **A second sweep** finds the same files that cannot be removed. -/
theorem stuck_swept (hwell : t.WellFormed) (hhome : d.IsHome t home) :
    d.stuck refuse (d.swept refuse t home listed) home listed = d.stuck refuse t home listed := by
  show (orphans listed ((d.swept refuse t home listed).names home)).filter _ = _
  rw [orphans_swept hhome, List.filter_eq_self]
  intro id hid
  rw [removable_swept hwell hhome hid]
  rfl

/-- **A second sweep** removes nothing. -/
theorem swept_swept (hwell : t.WellFormed) (hhome : d.IsHome t home) :
    d.swept refuse (d.swept refuse t home listed) home listed = d.swept refuse t home listed := by
  have hnone : d.sweptPlaces refuse (d.swept refuse t home listed) home
      (d.stuck refuse t home listed) = [] := by
    refine congrArg (List.map _) (List.filter_eq_nil_iff.mpr ?_)
    intro id hid
    rw [removable_swept hwell hhome hid]
    simp
  show FileTree.without _ (d.sweptPlaces refuse _ home (orphans listed _)) = _
  rw [orphans_swept hhome, hnone, FileTree.without_nil]

end DataDirectory

end CampusQuery
