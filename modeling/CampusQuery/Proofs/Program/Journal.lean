/-
CampusQuery/Proofs/Program/Journal.lean

What programs write to the journal.

Here the files do not matter, and nothing is assumed of them: a program is followed from request to
request, and every access, question and reading can have any answer (`Program.Ends`).  All that is
kept of the world is its journal.  So what holds of every end of a program holds wherever accesses
fail, and whatever the files are; a run in a world is one of these ends (`ends_runIn`, `ends_run`).
A program that puts out nothing is quiet (`Program.Quiet`), and after other programs it is said
which entries were written (`World.Wrote`).
-/
import CampusQuery.Proofs.Program.Refused

namespace CampusQuery

open Journal (Entry)

variable {w w' w'' v v' : World}

/-! ### The journal -/

namespace World

variable {entries entries' : List Entry}

/-- What was written, and what will be written. -/
def journal (w : World) : Severity × List String × List String := (w.minimum, w.out, w.err)

theorem journal_log (h : w.journal = v.journal) (e : Entry) :
    (w.log e).journal = (v.log e).journal := by
  simp only [journal, Prod.mk.injEq] at h
  obtain ⟨hminimum, hout, herr⟩ := h
  unfold log
  rw [hminimum]
  split
  · simp only [journal, hminimum, hout, herr]
  · split
    · simp only [journal, hout, herr]
    · simp only [journal, hout, herr]

theorem journal_foldl_log (l : List Entry) (h : w.journal = v.journal) :
    (l.foldl log w).journal = (l.foldl log v).journal := by
  induction l generalizing w v with
  | nil => exact h
  | cons e l ih => exact ih (journal_log h e)

theorem files_foldl_log (l : List Entry) (w : World) : (l.foldl log w).files = w.files := by
  induction l generalizing w with
  | nil => rfl
  | cons e l ih => rw [List.foldl_cons, ih, files_log]

theorem journal_put (h : w.journal = v.journal) (o : Output) :
    (w.put o).journal = (v.put o).journal := by
  have hparts := h
  simp only [journal, Prod.mk.injEq] at hparts
  obtain ⟨hminimum, hout, herr⟩ := hparts
  cases o with
  | entry e => exact journal_log h e
  | line text => simp only [put, journal, hminimum, hout, herr]
  | minimum s => simp only [put, journal, hout, herr]

/-- From one world to another, these entries were written and nothing else. -/
def Wrote (w : World) (entries : List Entry) (w' : World) : Prop :=
  w'.journal = (entries.foldl log w).journal

theorem Wrote.append (h : w.Wrote entries w') (h' : w'.Wrote entries' w'') :
    w.Wrote (entries ++ entries') w'' := by
  rw [Wrote, List.foldl_append]
  exact h'.trans (journal_foldl_log entries' h)

/-- Nothing was put out before the entries were written. -/
theorem Wrote.after_quiet (h : w'.Wrote entries w'') (hquiet : w'.journal = w.journal) :
    w.Wrote entries w'' :=
  h.trans (journal_foldl_log entries hquiet)

/-- Nothing was put out after the entries were written. -/
theorem Wrote.then_quiet (h : w.Wrote entries w') (hquiet : w''.journal = w'.journal) :
    w.Wrote entries w'' :=
  hquiet.trans h

end World

namespace Program

variable {α β : Type} {refuse : Refusals} {a a' : α} {b : β}

/-! ### Ends -/

/-- From the world `w` the program can come to the value `a` and the world `w'`, if all requests can
have any answers.  Of the worlds only the journals count. -/
def Ends : Program α → World → α → World → Prop
  | .done b, w, a, w' => a = b ∧ w'.journal = w.journal
  | .change _ next, w, a, w' => ∃ answer, (next answer).Ends w a w'
  | .ask _ _ next, w, a, w' => ∃ answer, (next answer).Ends w a w'
  | .list _ next, w, a, w' => ∃ answer, (next answer).Ends w a w'
  | .read _ next, w, a, w' => ∃ answer, (next answer).Ends w a w'
  | .reading _ next, w, a, w' => ∃ text, (next text).Ends w a w'
  | .input next, w, a, w' => ∃ sent, (next sent).Ends w a w'
  | .put o next, w, a, w' => next.Ends (w.put o) a w'

theorem Ends.of_journal {p : Program α} (hv : v.journal = w.journal)
    (hv' : v'.journal = w'.journal) (h : p.Ends w a w') : p.Ends v a v' := by
  induction p generalizing w v with
  | done b => exact ⟨h.1, hv'.trans (h.2.trans hv.symm)⟩
  | put o next ih => exact ih (World.journal_put hv o) h
  | _ =>
    rename_i ih
    obtain ⟨answer, h⟩ := h
    exact ⟨answer, ih answer hv h⟩

/-- **Running where accesses are refused** is one way to come to an end. -/
theorem ends_runIn (p : Program α) (w : World) :
    p.Ends w (p.runIn refuse w).1 (p.runIn refuse w).2 := by
  induction p generalizing w with
  | done a => exact ⟨rfl, rfl⟩
  | change c next ih =>
    rw [runIn]
    split
    · rename_i files _
      -- the files change, the journal does not
      have hsame : w.journal = ({ w with files } : World).journal := rfl
      exact ⟨.ok (), (ih _ _).of_journal hsame rfl⟩
    · rename_i e _
      exact ⟨.error e, ih _ w⟩
  | ask q path next ih => exact ⟨_, ih _ w⟩
  | list directory next ih => exact ⟨_, ih _ w⟩
  | read path next ih => exact ⟨_, ih _ w⟩
  | reading r next ih =>
    have hsame : w.journal = ({ w with taken := w.taken + 1 } : World).journal := rfl
    exact ⟨_, (ih _ _).of_journal hsame rfl⟩
  | input next ih => exact ⟨_, ih _ w⟩
  | put o next ih => exact ih _

/-- **Running in a world** is one way to come to an end. -/
theorem ends_run (p : Program α) (w : World) : p.Ends w (p.run w).1 (p.run w).2 := by
  rw [← runIn_nothing]
  exact p.ends_runIn w

/-- A second program starts where the first one ended. -/
theorem ends_bind {p : Program α} {f : α → Program β} (h : (p >>= f).Ends w b w'') :
    ∃ a w', p.Ends w a w' ∧ (f a).Ends w' b w'' := by
  induction p generalizing w with
  | done a => exact ⟨a, w, ⟨rfl, rfl⟩, h⟩
  | put o next ih => exact ih h
  | _ =>
    rename_i ih
    obtain ⟨answer, h⟩ := h
    obtain ⟨a, w', hp, hf⟩ := ih answer h
    exact ⟨a, w', ⟨answer, hp⟩, hf⟩

theorem ends_pure (h : (pure a : Program α).Ends w a' w') : a' = a ∧ w'.journal = w.journal := h

/-- If a value is all that is returned after a program, its end is that of the program. -/
theorem Ends.then_pure {p : Program α} {b' : β} (hp : p.Ends w a w')
    (h : (pure b : Program β).Ends w' b' w'') : b' = b ∧ p.Ends w a w'' :=
  ⟨h.1, hp.of_journal rfl h.2⟩

theorem wrote_of_log {e : Entry} {u : Unit} (h : (log e).Ends w u w') : w.Wrote [e] w' := h.2

/-! ### Quiet programs -/

/-- The program puts out nothing. -/
def Quiet (p : Program α) : Prop := ∀ w a w', p.Ends w a w' → w'.journal = w.journal

theorem quiet_pure (a : α) : (pure a : Program α).Quiet := fun _ _ _ h => h.2

theorem Quiet.bind {p : Program α} {f : α → Program β} (hp : p.Quiet) (hf : ∀ a, (f a).Quiet) :
    (p >>= f).Quiet := by
  intro w b w'' h
  obtain ⟨a, w', hfirst, hsecond⟩ := ends_bind h
  exact (hf a _ _ _ hsecond).trans (hp _ _ _ hfirst)

theorem quiet_changing (c : Change) : (changing c).Quiet := fun _ _ _ ⟨_, h⟩ => h.2

theorem quiet_asking (q : PathQuestion) (path : FilePath) : (asking q path).Quiet :=
  fun _ _ _ ⟨_, h⟩ => h.2

theorem quiet_listing (directory : FilePath) : (listing directory).Quiet := fun _ _ _ ⟨_, h⟩ => h.2

theorem quiet_reads (path : FilePath) : (reads path).Quiet := fun _ _ _ ⟨_, h⟩ => h.2

theorem quiet_take (r : Reading) : (take r).Quiet := fun _ _ _ ⟨_, h⟩ => h.2

end Program

/-! ### Actions -/

namespace Action

open Program

variable {ε ε' α β : Type}

theorem ends_bind {x : Action ε α} {f : α → Action ε β} {result : Except ε β}
    (h : (x >>= f).run.Ends w result w'') :
    (∃ a w', x.run.Ends w (.ok a) w' ∧ (f a).run.Ends w' result w'') ∨
      ∃ e, x.run.Ends w (.error e) w'' ∧ result = .error e := by
  rw [ExceptT.run_bind] at h
  obtain ⟨first, w', hx, hf⟩ := Program.ends_bind h
  rcases first with e | a
  · obtain ⟨rfl, hx⟩ := hx.then_pure hf
    exact .inr ⟨e, hx, rfl⟩
  · exact .inl ⟨a, w', hx, hf⟩

theorem ends_lift {p : Program α} {result : Except ε α}
    (h : (liftM p : Action ε α).run.Ends w result w') : ∃ a, p.Ends w a w' ∧ result = .ok a := by
  obtain ⟨a, middle, hp, hpure⟩ := Program.ends_bind (f := fun a => pure (Except.ok a)) h
  obtain ⟨rfl, hp⟩ := hp.then_pure hpure
  exact ⟨a, hp, rfl⟩

theorem ends_lift_bind {p : Program α} {f : α → Action ε β} {result : Except ε β}
    (h : ((liftM p : Action ε α) >>= f).run.Ends w result w'') :
    ∃ a w', p.Ends w a w' ∧ (f a).run.Ends w' result w'' := by
  rcases ends_bind h with ⟨a, w', hp, hf⟩ | ⟨e, hp, -⟩
  · obtain ⟨_, hp, ha⟩ := ends_lift hp
    cases ha
    exact ⟨a, w', hp, hf⟩
  · obtain ⟨_, -, he⟩ := ends_lift hp
    cases he

theorem quiet_bind {x : Action ε α} {f : α → Action ε β} (hx : x.run.Quiet)
    (hf : ∀ a, (f a).run.Quiet) : (x >>= f).run.Quiet := by
  intro w result w'' h
  rcases ends_bind h with ⟨a, w', hfirst, hsecond⟩ | ⟨e, hfirst, -⟩
  · exact (hf a _ _ _ hsecond).trans (hx _ _ _ hfirst)
  · exact hx _ _ _ hfirst

theorem quiet_lift {p : Program α} (hp : p.Quiet) : (liftM p : Action ε α).run.Quiet :=
  Program.Quiet.bind hp fun a => quiet_pure (Except.ok a)

theorem quiet_orFail {wrap : ε → ε'} {p : Program (Except ε α)} (hp : p.Quiet) :
    (orFail wrap p).run.Quiet := by
  refine Program.Quiet.bind hp fun result => ?_
  rcases result with e | a
  · exact quiet_pure _
  · exact quiet_pure _

end Action

end CampusQuery
