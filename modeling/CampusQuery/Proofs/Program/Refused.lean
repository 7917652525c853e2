/-
CampusQuery/Proofs/Program/Refused.lean

Runs in a world that refuses some accesses to the files.

Which accesses are refused, and with which errors, is fixed (`Refusals`): an access that is refused
once is refused every time.  So a program has one run in a world (`Program.runIn`), and it is
possible to say what a second run does after a first.  It is one of the runs in which these accesses
can fail (`runs_runIn`), and where nothing is refused it is `Program.run` (`runIn_nothing`).  For
actions there is one equation for each way to build them, and an action ends well just if all its
parts do (`Action.runIn_bind_eq_ok_iff`).
-/
import CampusQuery.Proofs.Except
import CampusQuery.Proofs.Program.Runs

namespace CampusQuery

/-! ### Refusals -/

/-- The errors with which accesses are refused, whatever the files are. -/
abbrev Refusals := Access → Option FileError

namespace Refusals

variable {α : Type} {refuse : Refusals} {a : Access} {x : Except FileError α} {b : α}

/-- What comes of an access, where the files would let it have the result `x`. -/
def answer (refuse : Refusals) (a : Access) (x : Except FileError α) : Except FileError α :=
  match refuse a with
  | some e => .error e
  | none => x

theorem answer_eq_ok_iff : refuse.answer a x = .ok b ↔ refuse a = none ∧ x = .ok b := by
  unfold answer
  constructor
  · intro h
    split at h
    · cases h
    · rename_i hnone
      exact ⟨hnone, h⟩
  · rintro ⟨hnone, h⟩
    rw [hnone]
    exact h

theorem answer_eq_error {e : FileError} (h : refuse.answer a x = .error e) :
    refuse a = some e ∨ x = .error e := by
  unfold answer at h
  split at h
  · rename_i hrefused
    cases h
    exact .inl hrefused
  · exact .inr h

/-- An access that succeeded on some files succeeds on others if these allow it. -/
theorem answer_of_answer {β : Type} {y : Except FileError β} {c : β}
    (h : refuse.answer a x = .ok b) (hy : y = .ok c) : refuse.answer a y = .ok c :=
  answer_eq_ok_iff.mpr ⟨(answer_eq_ok_iff.mp h).1, hy⟩

/-- The files after a change. -/
def apply (refuse : Refusals) (t : FileTree) (c : Change) : Except FileError FileTree :=
  refuse.answer (.change c) (t.apply c)

/-- The names that are met in a directory in which so many were met before. -/
def meet (refuse : Refusals) (p : FilePath) (met : Nat) : List String → FoundNames
  | [] => ⟨[], refuse (.advance p met)⟩
  | name :: rest =>
    match refuse (.advance p met) with
    | some e => ⟨[], some e⟩
    | none =>
      let found := refuse.meet p (met + 1) rest
      ⟨some name :: found.met, found.failure⟩

/-- The names that are met in a directory. -/
def list (refuse : Refusals) (t : FileTree) (p : FilePath) : Except FileError FoundNames :=
  (refuse.answer (.list p) (t.list p)).map (refuse.meet p 0)

/-- A directory with so many names can be listed to its end. -/
def Completes (refuse : Refusals) (p : FilePath) (count : Nat) : Prop :=
  refuse (.list p) = none ∧ ∀ met ≤ count, refuse (.advance p met) = none

/-- The content of a file. -/
def read (refuse : Refusals) (t : FileTree) (p : FilePath) : Except FileError ByteArray :=
  refuse.answer (.read p) (t.read p)

/-- An access fails if it is refused, or if the files do not allow it. -/
def faults (refuse : Refusals) : Faults := fun t a e => refuse a = some e ∨ Faults.genuine t a e

/-- Nothing is refused. -/
def nothing : Refusals := fun _ => none

/-! ### Listings -/

variable {t : FileTree} {p : FilePath} {names : List String} {found : FoundNames}

/-- A listing meets all names, or breaks off after some of them. -/
theorem meet_cases (refuse : Refusals) (p : FilePath) (met : Nat) (names : List String) :
    (refuse.meet p met names = .whole names ∧
        ∀ i ≤ names.length, refuse (.advance p (met + i)) = none) ∨
      ∃ before rest e, names = before ++ rest ∧
        refuse.meet p met names = ⟨before.map some, some e⟩ ∧
        refuse (.advance p (met + before.length)) = some e := by
  induction names generalizing met with
  | nil =>
    rcases hrefuse : refuse (.advance p met) with - | e
    · refine .inl ⟨by rw [meet, hrefuse]; rfl, fun i hi => ?_⟩
      rw [Nat.le_zero.mp hi]
      exact hrefuse
    · exact .inr ⟨[], [], e, rfl, by rw [meet, hrefuse]; rfl, hrefuse⟩
  | cons name names ih =>
    rcases hrefuse : refuse (.advance p met) with - | e
    · rcases ih (met + 1) with ⟨hwhole, hfree⟩ | ⟨before, rest, e, rfl, hcut, hfault⟩
      · refine .inl ⟨by rw [meet, hrefuse, hwhole]; rfl, fun i hi => ?_⟩
        rcases i with - | i
        · exact hrefuse
        · rw [← Nat.add_assoc, Nat.add_right_comm]
          exact hfree i (Nat.le_of_succ_le_succ hi)
      · refine .inr ⟨name :: before, rest, e, rfl, by rw [meet, hrefuse, hcut]; rfl, ?_⟩
        rw [List.length_cons, ← Nat.add_assoc, Nat.add_right_comm]
        exact hfault
    · exact .inr ⟨[], name :: names, e, rfl, by rw [meet, hrefuse]; rfl, hrefuse⟩

theorem Completes.mono {count fewer : Nat} (hle : fewer ≤ count) (h : refuse.Completes p count) :
    refuse.Completes p fewer :=
  ⟨h.1, fun met hmet => h.2 met (Nat.le_trans hmet hle)⟩

/-- Where nothing keeps a listing from its end, it meets all names. -/
theorem Completes.list (h : refuse.Completes p names.length) (hlist : t.list p = .ok names) :
    refuse.list t p = .ok (.whole names) := by
  rw [Refusals.list, answer_eq_ok_iff.mpr ⟨h.1, hlist⟩]
  rcases refuse.meet_cases p 0 names with ⟨hwhole, -⟩ | ⟨before, rest, e, rfl, -, hfault⟩
  · exact congrArg Except.ok hwhole
  · have hle : before.length ≤ (before ++ rest).length := by simp
    rw [Nat.zero_add, h.2 _ hle] at hfault
    cases hfault

/-- **What a listing meets**: all names, or those up to one that it does not get to. -/
theorem list_cases (h : refuse.list t p = .ok found) :
    (∃ names, t.list p = .ok names ∧ found = .whole names ∧ refuse.Completes p names.length) ∨
      ∃ before rest e, t.list p = .ok (before ++ rest) ∧ found = ⟨before.map some, some e⟩ ∧
        refuse (.advance p before.length) = some e := by
  rw [Refusals.list] at h
  rcases hanswer : refuse.answer (.list p) (t.list p) with e | names
  · rw [hanswer] at h
    cases h
  · obtain ⟨hfree, hlist⟩ := answer_eq_ok_iff.mp hanswer
    rw [hanswer] at h
    cases h
    rcases refuse.meet_cases p 0 names with ⟨hwhole, hmet⟩ | ⟨before, rest, e, rfl, hcut, hfault⟩
    · refine .inl ⟨names, hlist, hwhole, hfree, fun met hle => ?_⟩
      rw [← Nat.zero_add met]
      exact hmet met hle
    · rw [Nat.zero_add] at hfault
      exact .inr ⟨before, rest, e, hlist, hcut, hfault⟩

theorem meets_of_list (h : refuse.list t p = .ok found) : Meets refuse.faults t p found := by
  rcases list_cases h with ⟨names, hlist, rfl, -⟩ | ⟨before, rest, e, hlist, rfl, hfault⟩
  · exact .of_list hlist
  · have htexts : (FoundNames.mk (before.map some) (some e)).texts = before :=
      FoundNames.texts_whole before
    refine .cut rest (by rw [htexts, hlist]) (.inl ?_)
    rwa [List.length_map]

theorem list_eq_error {e : FileError} (h : refuse.list t p = .error e) :
    refuse.faults t (.list p) e := by
  rw [Refusals.list] at h
  rcases hanswer : refuse.answer (.list p) (t.list p) with e' | names
  · rw [hanswer] at h
    cases h
    exact answer_eq_error hanswer
  · rw [hanswer] at h
    cases h

theorem completes_nothing {count : Nat} : nothing.Completes p count := ⟨rfl, fun _ _ => rfl⟩

theorem list_nothing (t : FileTree) (p : FilePath) :
    nothing.list t p = (t.list p).map .whole := by
  rcases hlist : t.list p with e | names
  · rw [Refusals.list, hlist]
    rfl
  · exact completes_nothing.list hlist

end Refusals

theorem World.files_log (w : World) (e : Journal.Entry) : (w.log e).files = w.files :=
  Program.World.files_put w (.entry e)

namespace Program

variable {α β : Type} {refuse : Refusals} {w : World}

/-- Runs a program to its end. -/
def runIn (refuse : Refusals) : Program α → World → α × World
  | .done a, w => (a, w)
  | .change c next, w =>
    match refuse.apply w.files c with
    | .ok files => (next (.ok ())).runIn refuse { w with files }
    | .error e => (next (.error e)).runIn refuse w
  | .ask q path next, w => (next (w.answer path q)).runIn refuse w
  | .list directory next, w => (next (refuse.list w.files directory)).runIn refuse w
  | .read path next, w => (next (refuse.read w.files path)).runIn refuse w
  | .reading r next, w =>
    (next (w.readings w.taken r)).runIn refuse { w with taken := w.taken + 1 }
  | .input next, w => (next w.input).runIn refuse w
  | .put o next, w => next.runIn refuse (w.put o)

/-- **Where nothing is refused**, a program runs as usual. -/
theorem runIn_nothing (p : Program α) (w : World) : p.runIn .nothing w = p.run w := by
  induction p generalizing w with
  | done a => rfl
  | change c next ih =>
    rw [runIn, run]
    have hfree : Refusals.nothing.apply w.files c = w.files.apply c := rfl
    rw [hfree]
    rcases w.files.apply c with e | files
    · exact ih _ _
    · exact ih _ _
  | list directory next ih =>
    rw [runIn, run, Refusals.list_nothing]
    exact ih _ _
  | put o next ih => exact ih _
  | _ =>
    rename_i ih
    exact ih _ _

/-- **Running where accesses are refused** is a run in which nothing else fails without a reason. -/
theorem runs_runIn (p : Program α) (w : World) :
    Runs refuse.faults p w.files (p.runIn refuse w).1 (p.runIn refuse w).2.files := by
  induction p generalizing w with
  | done a => exact .refl
  | change c next ih =>
    rw [runIn]
    split
    · rename_i files happly
      exact .head (.changed (Refusals.answer_eq_ok_iff.mp happly).2) (ih _ { w with files })
    · rename_i e happly
      exact .head (.unchanged (Refusals.answer_eq_error happly)) (ih _ w)
  | ask q path next ih =>
    rw [runIn, World.answer_eq]
    exact .head (.asked q path next _) (ih _ w)
  | list directory next ih =>
    rw [runIn]
    rcases hlist : refuse.list w.files directory with e | names
    · exact .head (.unlisted (Refusals.list_eq_error hlist)) (ih _ w)
    · exact .head (.listed (Refusals.meets_of_list hlist)) (ih _ w)
  | read path next ih =>
    rw [runIn]
    rcases hread : refuse.read w.files path with e | content
    · exact .head (.unread (Refusals.answer_eq_error hread)) (ih _ w)
    · exact .head (.read (Refusals.answer_eq_ok_iff.mp hread).2) (ih _ w)
  | reading r next ih =>
    exact .head (.reading r next _ _) (ih _ { w with taken := w.taken + 1 })
  | input next ih => exact .head (.input next _ _) (ih _ w)
  | put o next ih =>
    refine .head (.put o next _) ?_
    rw [← World.files_put w o]
    exact ih (w.put o)

/-- A run of two programs is a run of the first and then one of the second. -/
theorem runIn_bind (p : Program α) (f : α → Program β) (w : World) :
    (p >>= f).runIn refuse w = (f (p.runIn refuse w).1).runIn refuse (p.runIn refuse w).2 := by
  show (p.bind f).runIn refuse w = _
  induction p generalizing w with
  | done a => rfl
  | change c next ih =>
    rw [bind, runIn, runIn]
    split
    · exact ih _ _
    · exact ih _ _
  | put o next ih => exact ih _
  | _ =>
    rename_i ih
    exact ih _ _

theorem runIn_log (e : Journal.Entry) : (log e).runIn refuse w = ((), w.log e) := rfl

end Program

/-! ### Actions -/

namespace Action

variable {ε ε' α β : Type} {refuse : Refusals} {w w' : World}

/-- Runs an action to its end. -/
def runIn (refuse : Refusals) (x : Action ε α) (w : World) : Except ε α × World :=
  x.run.runIn refuse w

theorem runIn_bind (x : Action ε α) (f : α → Action ε β) :
    (x >>= f).runIn refuse w =
      match x.runIn refuse w with
      | (.ok a, w') => (f a).runIn refuse w'
      | (.error e, w') => (.error e, w') := by
  rw [runIn, ExceptT.run_bind, Program.runIn_bind]
  show _ = match x.run.runIn refuse w with | (.ok a, w') => _ | (.error e, w') => _
  rcases x.run.runIn refuse w with ⟨e | a, w'⟩
  · rfl
  · rfl

/-- An action ends well just if both its parts do. -/
theorem runIn_bind_eq_ok_iff {x : Action ε α} {f : α → Action ε β} {b : β} :
    (x >>= f).runIn refuse w = (.ok b, w') ↔
      ∃ a middle, x.runIn refuse w = (.ok a, middle) ∧
        (f a).runIn refuse middle = (.ok b, w') := by
  rw [runIn_bind]
  constructor
  · intro h
    split at h
    · rename_i a middle hx
      exact ⟨a, middle, hx, h⟩
    · cases h
  · rintro ⟨a, middle, hx, h⟩
    rw [hx]
    exact h

/-- An action fails in its first part or in its second. -/
theorem runIn_bind_eq_error {x : Action ε α} {f : α → Action ε β} {e : ε}
    (h : (x >>= f).runIn refuse w = (.error e, w')) :
    x.runIn refuse w = (.error e, w') ∨
      ∃ a middle, x.runIn refuse w = (.ok a, middle) ∧
        (f a).runIn refuse middle = (.error e, w') := by
  rw [runIn_bind] at h
  split at h
  · rename_i a middle hx
    exact .inr ⟨a, middle, hx, h⟩
  · rename_i e' w'' hx
    cases h
    exact .inl hx

theorem runIn_lift_bind (p : Program α) (f : α → Action ε β) :
    ((liftM p : Action ε α) >>= f).runIn refuse w =
      (f (p.runIn refuse w).1).runIn refuse (p.runIn refuse w).2 := by
  have hlift : (liftM p : Action ε α).runIn refuse w =
      (.ok (p.runIn refuse w).1, (p.runIn refuse w).2) := Program.runIn_bind p _ w
  rw [runIn_bind, hlift]

theorem runIn_orFail (wrap : ε → ε') (p : Program (Except ε α)) :
    (orFail wrap p).runIn refuse w =
      ((p.runIn refuse w).1.mapError wrap, (p.runIn refuse w).2) := by
  show (p >>= _).runIn refuse w = _
  rw [Program.runIn_bind]
  rcases (p.runIn refuse w).1 with e | a
  · rfl
  · rfl

variable {wrap : FileError → ε}

theorem runIn_change_eq_ok_iff {c : Change} :
    (orFail wrap (Program.changing c)).runIn refuse w = (.ok (), w') ↔
      ∃ t, refuse.apply w.files c = .ok t ∧ w' = { w with files := t } := by
  rw [runIn_orFail, Program.changing, Program.runIn]
  constructor
  · intro h
    split at h
    · rename_i t ht
      exact ⟨t, ht, (Prod.mk.inj h).2.symm⟩
    · cases h
  · rintro ⟨t, ht, rfl⟩
    rw [ht]
    rfl

theorem runIn_change_eq_error {c : Change} {e : ε}
    (h : (orFail wrap (Program.changing c)).runIn refuse w = (.error e, w')) : w' = w := by
  rw [runIn_orFail, Program.changing, Program.runIn] at h
  split at h
  · cases h
  · exact (Prod.mk.inj h).2.symm

theorem runIn_list (directory : FilePath) :
    (orFail wrap (Program.listing directory)).runIn refuse w =
      ((refuse.list w.files directory).mapError wrap, w) :=
  runIn_orFail wrap _

theorem runIn_read (path : FilePath) :
    (orFail wrap (Program.reads path)).runIn refuse w =
      ((refuse.read w.files path).mapError wrap, w) :=
  runIn_orFail wrap _

end Action

end CampusQuery
