/-
CampusQuery/Proofs/Program/Runs.lean

Runs in which accesses to the files fail, and runs that stop halfway.

A program goes on one request at a time (`Step`).  Which accesses can fail is a
parameter; an access that fails changes nothing, and a listing can fail halfway
(`Meets`).  Questions about paths are answered truthfully, the clock and the caller say
anything.  `Runs` relates the files before and
after a program that came to its end, `Stops` those before a program and those that it
leaves when it stops somewhere.  `Program.run` is the run in which only that fails which
the files do not allow (`runs_run`).
-/
import CampusQuery.Program.World
import Mathlib.Logic.Relation

namespace CampusQuery

/-! ### Failures -/

/-- An access to the files that can fail. -/
inductive Access where
  | change (c : Change)
  | list (directory : FilePath)
  /-- Going on in the listing of a directory in which so many names were met. -/
  | advance (directory : FilePath) (met : Nat)
  | read (path : FilePath)

/-- Which accesses can fail on which files, and with which errors. -/
abbrev Faults := FileTree → Access → FileError → Prop

namespace Faults

/-- Every access can fail at any time. -/
def any : Faults := fun _ _ _ => True

/-- No access fails. -/
def never : Faults := fun _ _ _ => False

/-- An access fails if the files do not allow it. -/
def genuine : Faults
  | t, .change c, e => t.apply c = .error e
  | t, .list directory, e => t.list directory = .error e
  | _, .advance _ _, _ => False
  | t, .read path, e => t.read path = .error e

end Faults

/-- The answer to a question about a path. -/
def FileTree.answer (t : FileTree) (path : FilePath) : PathQuestion → Bool
  | .present => t.present path
  | .isDirectory => t.isDirectory path
  | .isFile => t.isFile path

theorem World.answer_eq (w : World) (path : FilePath) (q : PathQuestion) :
    w.answer path q = w.files.answer path q := by
  cases q <;> rfl

/-- A listing of the directory can meet these names: all that are there, or the first of
them if going on failed.  Between them there can be names that are no texts. -/
inductive Meets (faults : Faults) (t : FileTree) (directory : FilePath) : FoundNames → Prop
  | whole {met : List (Option String)} (h : t.list directory = .ok (FoundNames.mk met none).texts) :
      Meets faults t directory ⟨met, none⟩
  | cut {met : List (Option String)} {e : FileError} (rest : List String)
      (h : t.list directory = .ok ((FoundNames.mk met (some e)).texts ++ rest))
      (hfault : faults t (.advance directory met.length) e) :
      Meets faults t directory ⟨met, some e⟩

theorem FoundNames.texts_whole (names : List String) : (FoundNames.whole names).texts = names := by
  rw [FoundNames.texts, FoundNames.whole, List.filterMap_map]
  exact List.filterMap_some

/-- A directory can be listed to its end. -/
theorem Meets.of_list {faults : Faults} {t : FileTree} {directory : FilePath}
    {names : List String} (h : t.list directory = .ok names) :
    Meets faults t directory (.whole names) :=
  .whole (h.trans (congrArg Except.ok (FoundNames.texts_whole names).symm))

/-- The names that were met are the first in the directory. -/
theorem Meets.exists_prefix {faults : Faults} {t : FileTree} {directory : FilePath}
    {found : FoundNames} (h : Meets faults t directory found) :
    ∃ names, t.list directory = .ok names ∧ found.texts <+: names := by
  cases h with
  | whole h => exact ⟨_, h, List.prefix_refl _⟩
  | cut rest h _ => exact ⟨_, h, List.prefix_append _ _⟩

theorem Meets.mono {faults faults' : Faults} {t : FileTree} {directory : FilePath}
    {found : FoundNames} (hfaults : ∀ t a e, faults t a e → faults' t a e)
    (h : Meets faults t directory found) :
    Meets faults' t directory found := by
  cases h with
  | whole h => exact .whole h
  | cut rest h hfault => exact .cut rest h (hfaults _ _ _ hfault)

namespace Program

variable {α β : Type} {faults : Faults}

/-! ### Steps -/

/-- One request of a program is answered. -/
inductive Step (faults : Faults) : Program α × FileTree → Program α × FileTree → Prop
  | changed {c : Change} {next : Except FileError Unit → Program α} {t t' : FileTree}
      (h : t.apply c = .ok t') : Step faults (.change c next, t) (next (.ok ()), t')
  | unchanged {c : Change} {next : Except FileError Unit → Program α} {t : FileTree}
      {e : FileError} (h : faults t (.change c) e) :
      Step faults (.change c next, t) (next (.error e), t)
  | asked (q : PathQuestion) (path : FilePath) (next : Bool → Program α) (t : FileTree) :
      Step faults (.ask q path next, t) (next (t.answer path q), t)
  | listed {directory : FilePath} {next : Except FileError FoundNames → Program α} {t : FileTree}
      {found : FoundNames} (h : Meets faults t directory found) :
      Step faults (.list directory next, t) (next (.ok found), t)
  | unlisted {directory : FilePath} {next : Except FileError FoundNames → Program α} {t : FileTree}
      {e : FileError} (h : faults t (.list directory) e) :
      Step faults (.list directory next, t) (next (.error e), t)
  | read {path : FilePath} {next : Except FileError ByteArray → Program α} {t : FileTree}
      {content : ByteArray} (h : t.read path = .ok content) :
      Step faults (.read path next, t) (next (.ok content), t)
  | unread {path : FilePath} {next : Except FileError ByteArray → Program α} {t : FileTree}
      {e : FileError} (h : faults t (.read path) e) :
      Step faults (.read path next, t) (next (.error e), t)
  | reading (r : Reading) (next : String → Program α) (t : FileTree) (text : String) :
      Step faults (.reading r next, t) (next text, t)
  | input (next : ByteArray → Program α) (t : FileTree) (sent : ByteArray) :
      Step faults (.input next, t) (next sent, t)
  | put (o : Output) (next : Program α) (t : FileTree) : Step faults (.put o next, t) (next, t)

/-- Any number of requests of a program are answered. -/
abbrev Steps (faults : Faults) : Program α × FileTree → Program α × FileTree → Prop :=
  Relation.ReflTransGen (Step faults)

/-- The program turns the files `t` into `u` and ends in the value `a`. -/
def Runs (faults : Faults) (p : Program α) (t : FileTree) (a : α) (u : FileTree) : Prop :=
  Steps faults (p, t) (.done a, u)

/-- The program was about to write a file and wrote something else, such as a part of
the content. -/
def Torn (p : Program α) (t u : FileTree) : Prop :=
  ∃ path content next part, p = .change (.fill path content) next ∧
    t.apply (.fill path part) = .ok u

/-- The program starts on the files `t`, stops somewhere, and leaves the files `u`.
A file that is being written can be left with any content; every other change takes
place or does not. -/
def Stops (faults : Faults) (p : Program α) (t u : FileTree) : Prop :=
  ∃ p' t', Steps faults (p, t) (p', t') ∧ (u = t' ∨ Torn p' t' u)

variable {t t' u : FileTree} {a a' : α} {b : β}

/-! ### Running in a world -/

theorem World.files_put (w : World) (o : Output) : (w.put o).files = w.files := by
  rcases o with e | text | s
  · show (w.log e).files = w.files
    unfold World.log
    split
    · rfl
    · split <;> rfl
  · rfl
  · rfl

/-- **Running a program** in a world is a run in which nothing fails without a reason. -/
theorem runs_run (p : Program α) (w : World) :
    Runs .genuine p w.files (p.run w).1 (p.run w).2.files := by
  induction p generalizing w with
  | done a => exact .refl
  | change c next ih =>
    rw [run]
    split
    · rename_i files happly
      exact .head (.changed happly) (ih _ { w with files })
    · rename_i e happly
      exact .head (.unchanged happly) (ih _ w)
  | ask q path next ih =>
    rw [run, World.answer_eq]
    exact .head (.asked q path next _) (ih _ w)
  | list directory next ih =>
    rw [run]
    rcases hlist : w.files.list directory with e | names
    · exact .head (.unlisted hlist) (ih _ w)
    · exact .head (.listed (.of_list hlist)) (ih _ w)
  | read path next ih =>
    rw [run]
    rcases hread : w.files.read path with e | content
    · exact .head (.unread hread) (ih _ w)
    · exact .head (.read hread) (ih _ w)
  | reading r next ih =>
    exact .head (.reading r next _ _) (ih _ { w with taken := w.taken + 1 })
  | input next ih => exact .head (.input next _ _) (ih _ w)
  | put o next ih =>
    refine .head (.put o next _) ?_
    rw [← World.files_put w o]
    exact ih (w.put o)

/-- Every access succeeds when the program runs in the world. -/
def succeeds : Program α → World → Bool
  | .done _, _ => true
  | .change c next, w =>
    match w.files.apply c with
    | .ok files => (next (.ok ())).succeeds { w with files }
    | .error _ => false
  | .ask q path next, w => (next (w.answer path q)).succeeds w
  | .list directory next, w =>
    match w.files.list directory with
    | .ok names => (next (.ok (.whole names))).succeeds w
    | .error _ => false
  | .read path next, w =>
    match w.files.read path with
    | .ok content => (next (.ok content)).succeeds w
    | .error _ => false
  | .reading r next, w => (next (w.readings w.taken r)).succeeds { w with taken := w.taken + 1 }
  | .input next, w => (next w.input).succeeds w
  | .put o next, w => next.succeeds (w.put o)

/-- If every access succeeds, running the program is a run in which nothing fails. -/
theorem runs_of_succeeds {p : Program α} {w : World} (h : p.succeeds w = true) :
    Runs .never p w.files (p.run w).1 (p.run w).2.files := by
  induction p generalizing w with
  | done a => exact .refl
  | change c next ih =>
    rw [succeeds] at h
    rw [run]
    rcases happly : w.files.apply c with e | files
    · rw [happly] at h
      cases h
    · rw [happly] at h
      exact .head (.changed happly) (ih _ h)
  | ask q path next ih =>
    rw [run, World.answer_eq]
    refine .head (.asked q path next _) (ih _ ?_)
    rwa [succeeds, World.answer_eq] at h
  | list directory next ih =>
    rw [succeeds] at h
    rw [run]
    rcases hlist : w.files.list directory with e | names
    · rw [hlist] at h
      cases h
    · rw [hlist] at h
      exact .head (.listed (.of_list hlist)) (ih _ h)
  | read path next ih =>
    rw [succeeds] at h
    rw [run]
    rcases hread : w.files.read path with e | content
    · rw [hread] at h
      cases h
    · rw [hread] at h
      exact .head (.read hread) (ih _ h)
  | reading r next ih => exact .head (.reading r next _ _) (ih _ h)
  | input next ih => exact .head (.input next _ _) (ih _ h)
  | put o next ih =>
    refine .head (.put o next _) ?_
    rw [← World.files_put w o]
    exact ih h

/-- With more failures there are more runs. -/
theorem Steps.mono {faults' : Faults} {s s' : Program α × FileTree}
    (hfaults : ∀ t a e, faults t a e → faults' t a e) (h : Steps faults s s') :
    Steps faults' s s' := by
  refine Relation.ReflTransGen.mono (fun _ _ hstep => ?_) _ _ h
  cases hstep with
  | changed h => exact .changed h
  | unchanged h => exact .unchanged (hfaults _ _ _ h)
  | asked q path next t => exact .asked q path next t
  | listed h => exact .listed (h.mono hfaults)
  | unlisted h => exact .unlisted (hfaults _ _ _ h)
  | read h => exact .read h
  | unread h => exact .unread (hfaults _ _ _ h)
  | reading r next t text => exact .reading r next t text
  | input next t sent => exact .input next t sent
  | put o next t => exact .put o next t

theorem Runs.mono {faults' : Faults} {p : Program α}
    (hfaults : ∀ t a e, faults t a e → faults' t a e) (h : Runs faults p t a u) :
    Runs faults' p t a u :=
  Steps.mono hfaults h

theorem Stops.mono {faults' : Faults} {p : Program α}
    (hfaults : ∀ t a e, faults t a e → faults' t a e) (h : Stops faults p t u) :
    Stops faults' p t u := by
  obtain ⟨p', t', hsteps, hu⟩ := h
  exact ⟨p', t', Steps.mono hfaults hsteps, hu⟩

/-! ### One program after another -/

/-- The first request is one of the first program, if there is one. -/
theorem step_bind {p : Program α} {f : α → Program β} {s : Program β × FileTree}
    (h : Step faults (p >>= f, t) s) :
    (∃ a, p = .done a ∧ Step faults (f a, t) s) ∨
      ∃ p' t', Step faults (p, t) (p', t') ∧ s = (p' >>= f, t') := by
  rcases p with a | ⟨c, next⟩ | ⟨q, path, next⟩ | ⟨directory, next⟩ | ⟨path, next⟩ | ⟨r, next⟩ |
    next | ⟨o, next⟩
  · exact .inl ⟨a, rfl, h⟩
  · cases h with
    | changed h => exact .inr ⟨_, _, .changed h, rfl⟩
    | unchanged h => exact .inr ⟨_, _, .unchanged h, rfl⟩
  · cases h
    exact .inr ⟨_, _, .asked q path next t, rfl⟩
  · cases h with
    | listed h => exact .inr ⟨_, _, .listed h, rfl⟩
    | unlisted h => exact .inr ⟨_, _, .unlisted h, rfl⟩
  · cases h with
    | read h => exact .inr ⟨_, _, .read h, rfl⟩
    | unread h => exact .inr ⟨_, _, .unread h, rfl⟩
  · cases h with
    | reading _ _ _ text => exact .inr ⟨_, _, .reading r next t text, rfl⟩
  · cases h with
    | input _ _ sent => exact .inr ⟨_, _, .input next t sent, rfl⟩
  · cases h
    exact .inr ⟨_, _, .put o next t, rfl⟩

/-- Either the first program still goes on, or it came to its end. -/
theorem steps_bind {p : Program α} {f : α → Program β} {s : Program β × FileTree}
    (h : Steps faults (p >>= f, t) s) :
    (∃ p' t', Steps faults (p, t) (p', t') ∧ s = (p' >>= f, t')) ∨
      ∃ a t', Runs faults p t a t' ∧ Steps faults (f a, t') s := by
  induction h with
  | refl => exact .inl ⟨p, t, .refl, rfl⟩
  | tail _ hstep ih =>
    rcases ih with ⟨p', t', hp, rfl⟩ | ⟨a, t', hp, hf⟩
    · rcases step_bind hstep with ⟨a, rfl, hf⟩ | ⟨p'', t'', hnext, rfl⟩
      · exact .inr ⟨a, t', hp, .single hf⟩
      · exact .inl ⟨p'', t'', hp.tail hnext, rfl⟩
    · exact .inr ⟨a, t', hp, hf.tail hstep⟩

theorem steps_done {s : Program α × FileTree} (h : Steps faults (.done a, t) s) :
    s = (.done a, t) := by
  rcases Relation.ReflTransGen.cases_head h with h | ⟨_, hstep, -⟩
  · exact h.symm
  · cases hstep

theorem runs_pure (h : Runs faults (pure a : Program α) t a' u) : a' = a ∧ u = t := by
  cases steps_done h
  exact ⟨rfl, rfl⟩

theorem not_torn_done : ¬ Torn (.done a) t u := by
  rintro ⟨_, _, _, _, h, -⟩
  cases h

theorem stops_pure (h : Stops faults (pure a : Program α) t u) : u = t := by
  obtain ⟨p', t', hsteps, hu⟩ := h
  cases steps_done hsteps
  rcases hu with rfl | htorn
  · rfl
  · exact (not_torn_done htorn).elim

theorem runs_bind {p : Program α} {f : α → Program β} (h : Runs faults (p >>= f) t b u) :
    ∃ a t', Runs faults p t a t' ∧ Runs faults (f a) t' b u := by
  rcases steps_bind h with ⟨p', t', hp, hs⟩ | h
  · obtain ⟨hbind, rfl⟩ := Prod.mk.inj hs
    rcases p' with a | _ | _ | _ | _ | _ | _ | _
    · refine ⟨a, u, hp, ?_⟩
      rw [Runs, hbind]
      exact .refl
    -- a program that still has requests does not end with the bind
    all_goals cases hbind
  · exact h

/-- A program that stops was in its first part or in its second. -/
theorem stops_bind {p : Program α} {f : α → Program β} (h : Stops faults (p >>= f) t u) :
    Stops faults p t u ∨ ∃ a t', Runs faults p t a t' ∧ Stops faults (f a) t' u := by
  obtain ⟨q, t', hsteps, hu⟩ := h
  rcases steps_bind hsteps with ⟨p', t'', hp, hs⟩ | ⟨a, t'', hp, hf⟩
  · obtain ⟨rfl, rfl⟩ := Prod.mk.inj hs
    rcases hu with rfl | ⟨path, content, next, part, hq, happly⟩
    · exact .inl ⟨p', u, hp, .inl rfl⟩
    · rcases p' with a | ⟨c, next'⟩ | _ | _ | _ | _ | _ | _
      · refine .inr ⟨a, t', hp, _, t', .refl, .inr ⟨path, content, next, part, hq, happly⟩⟩
      · -- the file that is torn is written by the first program
        injection hq with hc
        rw [hc] at hp
        exact .inl ⟨_, t', hp, .inr ⟨path, content, next', part, rfl, happly⟩⟩
      all_goals cases hq
  · exact .inr ⟨a, t'', hp, q, t', hf, hu⟩

theorem Runs.stops {p : Program α} (h : Runs faults p t a u) : Stops faults p t u :=
  ⟨_, u, h, .inl rfl⟩

/-! ### Programs that change nothing -/

/-- The program changes no files. -/
def Silent : Program α → Prop
  | .done _ => True
  | .change _ _ => False
  | .ask _ _ next => ∀ answer, (next answer).Silent
  | .list _ next => ∀ answer, (next answer).Silent
  | .read _ next => ∀ answer, (next answer).Silent
  | .reading _ next => ∀ text, (next text).Silent
  | .input next => ∀ sent, (next sent).Silent
  | .put _ next => next.Silent

theorem Silent.bind {p : Program α} {f : α → Program β} (hp : p.Silent)
    (hf : ∀ a, (f a).Silent) : (p >>= f).Silent := by
  induction p with
  | done a => exact hf a
  | change c next => exact hp.elim
  | put o next ih => exact ih hp
  | _ =>
    rename_i ih
    exact fun answer => ih answer (hp answer)

theorem Silent.step {p p' : Program α} (hp : p.Silent) (h : Step faults (p, t) (p', t')) :
    p'.Silent ∧ t' = t := by
  cases h with
  | changed _ => exact hp.elim
  | unchanged _ => exact hp.elim
  | put _ _ _ => exact ⟨hp, rfl⟩
  | _ => exact ⟨hp _, rfl⟩

theorem Silent.steps {p p' : Program α} (hp : p.Silent) (h : Steps faults (p, t) (p', t')) :
    p'.Silent ∧ t' = t := by
  -- the end is generalised with both its parts, for the induction on the steps
  generalize hs : (p', t') = s at h
  induction h generalizing p' t' with
  | refl =>
    cases hs
    exact ⟨hp, rfl⟩
  | @tail middle _ _ hstep ih =>
    cases hs
    obtain ⟨hmiddle, heq⟩ := ih (show (middle.1, middle.2) = middle from rfl)
    obtain ⟨hp', heq'⟩ := hmiddle.step hstep
    exact ⟨hp', heq'.trans heq⟩

theorem Silent.runs {p : Program α} (hp : p.Silent) (h : Runs faults p t a u) : u = t :=
  (hp.steps h).2

theorem Silent.stops {p : Program α} (hp : p.Silent) (h : Stops faults p t u) : u = t := by
  obtain ⟨p', t', hsteps, hu⟩ := h
  obtain ⟨hp', rfl⟩ := hp.steps hsteps
  rcases hu with rfl | ⟨_, _, _, _, rfl, -⟩
  · rfl
  · exact hp'.elim

theorem silent_take (r : Reading) : (take r).Silent := fun _ => trivial

theorem silent_log (e : Journal.Entry) : (log e).Silent := trivial

/-- An entry that is written before a value is returned does not matter. -/
theorem stops_log_pure {e : Journal.Entry} (h : Stops faults (log e >>= fun _ => pure a) t u) :
    u = t := by
  have hsilent : (log e >>= fun _ => pure a).Silent := (silent_log e).bind fun _ => trivial
  exact hsilent.stops h

theorem runs_log_pure {e : Journal.Entry} (h : Runs faults (log e >>= fun _ => pure a) t a' u) :
    a' = a ∧ u = t := by
  obtain ⟨_, t', hlog, hreturn⟩ := runs_bind h
  obtain ⟨rfl, rfl⟩ := runs_pure hreturn
  exact ⟨rfl, (silent_log e).runs hlog⟩

/-! ### Single requests -/

theorem runs_changing {c : Change} {r : Except FileError Unit}
    (h : Runs faults (changing c) t r u) :
    r = .ok () ∧ t.apply c = .ok u ∨ ∃ e, r = .error e ∧ u = t ∧ faults t (.change c) e := by
  rcases Relation.ReflTransGen.cases_head h with h | ⟨_, hstep, hrest⟩
  · cases h
  · cases hstep with
    | changed happly =>
      cases steps_done hrest
      exact .inl ⟨rfl, happly⟩
    | unchanged hfault =>
      cases steps_done hrest
      exact .inr ⟨_, rfl, rfl, hfault⟩

/-- A program stopped at its only change: before it, after it or within. -/
theorem stops_changing {c : Change} (h : Stops faults (changing c) t u) :
    u = t ∨ t.apply c = .ok u ∨
      ∃ path content part, c = .fill path content ∧ t.apply (.fill path part) = .ok u := by
  obtain ⟨p', t', hsteps, hu⟩ := h
  rcases Relation.ReflTransGen.cases_head hsteps with h | ⟨_, hstep, hrest⟩
  · cases h
    rcases hu with rfl | ⟨path, content, next, part, hp, happly⟩
    · exact .inl rfl
    · cases hp
      exact .inr (.inr ⟨path, content, part, rfl, happly⟩)
  · cases hstep with
    | changed happly =>
      cases steps_done hrest
      rcases hu with rfl | htorn
      · exact .inr (.inl happly)
      · exact (not_torn_done htorn).elim
    | unchanged _ =>
      cases steps_done hrest
      rcases hu with rfl | htorn
      · exact .inl rfl
      · exact (not_torn_done htorn).elim

theorem runs_asking {q : PathQuestion} {path : FilePath} {answer : Bool}
    (h : Runs faults (asking q path) t answer u) : answer = t.answer path q ∧ u = t := by
  rcases Relation.ReflTransGen.cases_head h with h | ⟨_, hstep, hrest⟩
  · cases h
  · cases hstep
    cases steps_done hrest
    exact ⟨rfl, rfl⟩

theorem runs_listing {directory : FilePath} {r : Except FileError FoundNames}
    (h : Runs faults (listing directory) t r u) :
    u = t ∧ ((∃ found, r = .ok found ∧ Meets faults t directory found) ∨
      ∃ e, r = .error e ∧ faults t (.list directory) e) := by
  rcases Relation.ReflTransGen.cases_head h with h | ⟨_, hstep, hrest⟩
  · cases h
  · cases hstep with
    | listed hmeets =>
      cases steps_done hrest
      exact ⟨rfl, .inl ⟨_, rfl, hmeets⟩⟩
    | unlisted hfault =>
      cases steps_done hrest
      exact ⟨rfl, .inr ⟨_, rfl, hfault⟩⟩

theorem runs_reads {path : FilePath} {r : Except FileError ByteArray}
    (h : Runs faults (reads path) t r u) :
    u = t ∧ ((∃ content, r = .ok content ∧ t.read path = .ok content) ∨
      ∃ e, r = .error e ∧ faults t (.read path) e) := by
  rcases Relation.ReflTransGen.cases_head h with h | ⟨_, hstep, hrest⟩
  · cases h
  · cases hstep with
    | read hread =>
      cases steps_done hrest
      exact ⟨rfl, .inl ⟨_, rfl, hread⟩⟩
    | unread hfault =>
      cases steps_done hrest
      exact ⟨rfl, .inr ⟨_, rfl, hfault⟩⟩

end Program

/-! ### Programs that may fail -/

namespace Action

open Program

variable {ε ε' α β : Type} {faults : Faults} {t u : FileTree}

theorem runs_pure {a : α} {r : Except ε α}
    (h : Runs faults (pure a : Action ε α).run t r u) : r = .ok a ∧ u = t :=
  Program.runs_pure h

theorem runs_bind {x : Action ε α} {f : α → Action ε β} {r : Except ε β}
    (h : Runs faults (x >>= f).run t r u) :
    (∃ a t', Runs faults x.run t (.ok a) t' ∧ Runs faults (f a).run t' r u) ∨
      ∃ e, Runs faults x.run t (.error e) u ∧ r = .error e := by
  rw [ExceptT.run_bind] at h
  obtain ⟨result, t', hx, hf⟩ := Program.runs_bind h
  rcases result with e | a
  · obtain ⟨rfl, rfl⟩ := Program.runs_pure hf
    exact .inr ⟨e, hx, rfl⟩
  · exact .inl ⟨a, t', hx, hf⟩

theorem stops_bind {x : Action ε α} {f : α → Action ε β} (h : Stops faults (x >>= f).run t u) :
    Stops faults x.run t u ∨
      ∃ a t', Runs faults x.run t (.ok a) t' ∧ Stops faults (f a).run t' u := by
  rw [ExceptT.run_bind] at h
  rcases Program.stops_bind h with hx | ⟨result, t', hx, hf⟩
  · exact .inl hx
  · rcases result with e | a
    · rw [Program.stops_pure hf]
      exact .inl hx.stops
    · exact .inr ⟨a, t', hx, hf⟩

theorem runs_lift {p : Program α} {r : Except ε α}
    (h : Runs faults (liftM p : Action ε α).run t r u) : ∃ a, Runs faults p t a u ∧ r = .ok a := by
  obtain ⟨a, t', hp, hpure⟩ := Program.runs_bind (f := fun a => pure (Except.ok a)) h
  obtain ⟨rfl, rfl⟩ := Program.runs_pure hpure
  exact ⟨a, hp, rfl⟩

theorem stops_lift {p : Program α} (h : Stops faults (liftM p : Action ε α).run t u) :
    Stops faults p t u := by
  rcases Program.stops_bind (f := fun a => pure (Except.ok a)) h with hp | ⟨a, t', hp, hpure⟩
  · exact hp
  · rw [Program.stops_pure hpure]
    exact hp.stops

theorem runs_lift_bind {p : Program α} {f : α → Action ε β} {r : Except ε β}
    (h : Runs faults ((liftM p : Action ε α) >>= f).run t r u) :
    ∃ a t', Runs faults p t a t' ∧ Runs faults (f a).run t' r u := by
  rcases runs_bind h with ⟨a, t', hp, hf⟩ | ⟨e, hp, -⟩
  · obtain ⟨_, hp, ha⟩ := runs_lift hp
    cases ha
    exact ⟨a, t', hp, hf⟩
  · obtain ⟨_, -, he⟩ := runs_lift hp
    cases he

theorem stops_lift_bind {p : Program α} {f : α → Action ε β}
    (h : Stops faults ((liftM p : Action ε α) >>= f).run t u) :
    Stops faults p t u ∨ ∃ a t', Runs faults p t a t' ∧ Stops faults (f a).run t' u := by
  rcases stops_bind h with hp | ⟨a, t', hp, hf⟩
  · exact .inl (stops_lift hp)
  · obtain ⟨_, hp, ha⟩ := runs_lift hp
    cases ha
    exact .inr ⟨a, t', hp, hf⟩

/-- What is only taken or logged first can be left out. -/
theorem runs_silent_bind {p : Program α} {f : α → Action ε β} {r : Except ε β} (hp : p.Silent)
    (h : Runs faults ((liftM p : Action ε α) >>= f).run t r u) :
    ∃ a, Runs faults (f a).run t r u := by
  obtain ⟨a, t', hrun, hf⟩ := runs_lift_bind h
  rw [hp.runs hrun] at hf
  exact ⟨a, hf⟩

theorem stops_silent_bind {p : Program α} {f : α → Action ε β} (hp : p.Silent)
    (h : Stops faults ((liftM p : Action ε α) >>= f).run t u) :
    u = t ∨ ∃ a, Stops faults (f a).run t u := by
  rcases stops_lift_bind h with hstop | ⟨a, t', hrun, hf⟩
  · exact .inl (hp.stops hstop)
  · rw [hp.runs hrun] at hf
    exact .inr ⟨a, hf⟩

theorem runs_orFail {wrap : ε → ε'} {p : Program (Except ε α)} {r : Except ε' α}
    (h : Runs faults (orFail wrap p).run t r u) :
    (∃ a, Runs faults p t (.ok a) u ∧ r = .ok a) ∨
      ∃ e, Runs faults p t (.error e) u ∧ r = .error (wrap e) := by
  obtain ⟨result, t', hp, hrest⟩ := Program.runs_bind h
  rcases result with e | a
  · obtain ⟨rfl, rfl⟩ := Program.runs_pure hrest
    exact .inr ⟨e, hp, rfl⟩
  · obtain ⟨rfl, rfl⟩ := Program.runs_pure hrest
    exact .inl ⟨a, hp, rfl⟩

theorem stops_orFail {wrap : ε → ε'} {p : Program (Except ε α)}
    (h : Stops faults (orFail wrap p).run t u) : Stops faults p t u := by
  rcases Program.stops_bind h with hp | ⟨result, t', hp, hrest⟩
  · exact hp
  · rcases result with e | a
    all_goals
      rw [Program.stops_pure hrest]
      exact hp.stops

theorem runs_orFail_bind {wrap : ε → ε'} {p : Program (Except ε α)} {f : α → Action ε' β}
    {r : Except ε' β} (h : Runs faults (orFail wrap p >>= f).run t r u) :
    (∃ a t', Runs faults p t (.ok a) t' ∧ Runs faults (f a).run t' r u) ∨
      ∃ e, Runs faults p t (.error e) u ∧ r = .error (wrap e) := by
  rcases runs_bind h with ⟨a, t', hp, hf⟩ | ⟨e, hp, rfl⟩
  · rcases runs_orFail hp with ⟨a', hok, ha⟩ | ⟨_, -, he⟩
    · cases ha
      exact .inl ⟨a, t', hok, hf⟩
    · cases he
  · rcases runs_orFail hp with ⟨_, -, ha⟩ | ⟨e', herror, he⟩
    · cases ha
    · cases he
      exact .inr ⟨e', herror, rfl⟩

theorem runs_change {wrap : FileError → ε'} {c : Change} {r : Except ε' Unit}
    (h : Runs faults (orFail wrap (changing c)).run t r u) :
    r = .ok () ∧ t.apply c = .ok u ∨
      ∃ e, r = .error (wrap e) ∧ u = t ∧ faults t (.change c) e := by
  rcases runs_orFail h with ⟨_, hp, rfl⟩ | ⟨e, hp, rfl⟩
  · rcases runs_changing hp with ⟨-, happly⟩ | ⟨e, he, -⟩
    · exact .inl ⟨rfl, happly⟩
    · cases he
  · rcases runs_changing hp with ⟨he, -⟩ | ⟨e', he, hu, hfault⟩
    · cases he
    · cases he
      exact .inr ⟨e, rfl, hu, hfault⟩

/-- A change that fails ends the action. -/
theorem runs_change_bind {wrap : FileError → ε'} {c : Change} {f : Unit → Action ε' β}
    {r : Except ε' β} (h : Runs faults (orFail wrap (changing c) >>= f).run t r u) :
    (∃ t', t.apply c = .ok t' ∧ Runs faults (f ()).run t' r u) ∨
      ∃ e, r = .error (wrap e) ∧ u = t ∧ faults t (.change c) e := by
  rcases runs_orFail_bind h with ⟨_, t', hp, hf⟩ | ⟨e, hp, rfl⟩
  · rcases runs_changing hp with ⟨-, happly⟩ | ⟨e, he, -⟩
    · exact .inl ⟨t', happly, hf⟩
    · cases he
  · rcases runs_changing hp with ⟨he, -⟩ | ⟨e', he, hu, hfault⟩
    · cases he
    · cases he
      exact .inr ⟨e, rfl, hu, hfault⟩

theorem stops_change_bind {wrap : FileError → ε'} {c : Change} {f : Unit → Action ε' β}
    (h : Stops faults (orFail wrap (changing c) >>= f).run t u) :
    Stops faults (changing c) t u ∨ ∃ t', t.apply c = .ok t' ∧ Stops faults (f ()).run t' u := by
  rcases stops_bind h with hc | ⟨_, t', hc, hf⟩
  · exact .inl (stops_orFail hc)
  · rcases runs_change hc with ⟨-, happly⟩ | ⟨e, he, -⟩
    · exact .inr ⟨t', happly, hf⟩
    · cases he

/-- A file that cannot be read ends the action. -/
theorem runs_read_bind {wrap : FileError → ε'} {path : FilePath} {f : ByteArray → Action ε' β}
    {r : Except ε' β} (h : Runs faults (orFail wrap (reads path) >>= f).run t r u) :
    (∃ content, t.read path = .ok content ∧ Runs faults (f content).run t r u) ∨
      ∃ e, r = .error (wrap e) ∧ u = t ∧ faults t (.read path) e := by
  rcases runs_orFail_bind h with ⟨content, t', hp, hf⟩ | ⟨e, hp, rfl⟩
  · obtain ⟨rfl, ⟨_, he, hread⟩ | ⟨_, he, -⟩⟩ := runs_reads hp
    · cases he
      exact .inl ⟨content, hread, hf⟩
    · cases he
  · obtain ⟨rfl, ⟨_, he, -⟩ | ⟨_, he, hfault⟩⟩ := runs_reads hp
    · cases he
    · cases he
      exact .inr ⟨e, rfl, rfl, hfault⟩

/-- A directory that cannot be listed ends the action. -/
theorem runs_list_bind {wrap : FileError → ε'} {directory : FilePath} {f : FoundNames → Action ε' β}
    {r : Except ε' β} (h : Runs faults (orFail wrap (listing directory) >>= f).run t r u) :
    (∃ found, Meets faults t directory found ∧ Runs faults (f found).run t r u) ∨
      ∃ e, r = .error (wrap e) ∧ u = t ∧ faults t (.list directory) e := by
  rcases runs_orFail_bind h with ⟨found, t', hp, hf⟩ | ⟨e, hp, rfl⟩
  · obtain ⟨rfl, ⟨_, he, hmeets⟩ | ⟨_, he, -⟩⟩ := runs_listing hp
    · cases he
      exact .inl ⟨found, hmeets, hf⟩
    · cases he
  · obtain ⟨rfl, ⟨_, he, -⟩ | ⟨_, he, hfault⟩⟩ := runs_listing hp
    · cases he
    · cases he
      exact .inr ⟨e, rfl, rfl, hfault⟩

end Action

end CampusQuery
