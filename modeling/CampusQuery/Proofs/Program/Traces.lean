/-
CampusQuery/Proofs/Program/Traces.lean

What programs put out, one thing after another.

The journal shows what was written, but not what was dropped.  Here a program is followed from
request to request, with any answers, and everything that it puts out is kept in its order
(`Program.Puts`): entries, lines, and the changes of what is dropped.  Each such trace belongs to an
end of the program and each end to a trace (`Puts.ends`, `exists_puts`), so a fact about all traces
is one about all runs.  A quiet program has an empty trace (`Quiet.eq_nil`), and many others put out
entries only (`Program.Logs`).  Once nothing but errors is written, all that such a program changes
is the channel for errors (`World.foldl_log_of_error`).
-/
import CampusQuery.Proofs.Program.Journal

namespace CampusQuery

open Journal (Entry)

variable {w w' : World} {os os' : List Output}

namespace Output

/-- The entry, if it is one. -/
def entry? : Output → Option Entry
  | .entry e => some e
  | _ => none

theorem filterMap_entry? (entries : List Entry) :
    (entries.map Output.entry).filterMap entry? = entries := by
  rw [List.filterMap_map]
  exact List.filterMap_some

end Output

namespace World

/-! ### Worlds after a trace -/

/-- A world without files, in which nothing was put out. -/
def blank (s : Severity) : World := ⟨.empty, .empty, fun _ _ => "", 0, s, [], []⟩

theorem foldl_put_entries (entries : List Entry) (w : World) :
    (entries.map Output.entry).foldl put w = entries.foldl log w :=
  List.foldl_map

/-- Where only errors are written, nothing but the channel for errors changes. -/
theorem foldl_log_of_error (entries : List Entry) (h : w.minimum = .error) :
    entries.foldl log w =
      { w with err := w.err ++ (entries.filter (·.severity.reaches .error)).map Entry.text } := by
  induction entries generalizing w with
  | nil => simp
  | cons e entries ih =>
    rw [List.foldl_cons]
    rcases hreaches : e.severity.reaches .error with - | -
    · have hdropped : w.log e = w := by simp [log, h, hreaches]
      rw [hdropped, ih h, List.filter_cons_of_neg (by simp [hreaches])]
    · have hwritten : w.log e = { w with err := w.err ++ [e.text] } := by simp [log, h, hreaches]
      have hminimum : ({ w with err := w.err ++ [e.text] } : World).minimum = .error := h
      rw [hwritten, ih hminimum]
      simp [hreaches]

/-- Once all below errors are dropped, entries only go to the channel for errors. -/
theorem foldl_put_quiet (entries : List Entry) (w : World) :
    (Output.minimum .error :: entries.map .entry).foldl put w =
      { w with minimum := .error
               err := w.err ++ (entries.filter (·.severity.reaches .error)).map Entry.text } := by
  rw [List.foldl_cons, foldl_put_entries]
  exact foldl_log_of_error entries rfl

/-- What was put out does not get less. -/
theorem length_foldl_put_le (os : List Output) (w : World) :
    w.out.length + w.err.length ≤
      (os.foldl put w).out.length + (os.foldl put w).err.length := by
  induction os generalizing w with
  | nil => exact Nat.le_refl _
  | cons o os ih =>
    refine Nat.le_trans ?_ (ih _)
    cases o with
    | entry e =>
      rw [put, log]
      split
      · exact Nat.le_refl _
      · split <;> simp
    | line text => simp [put]
    | minimum s => exact Nat.le_refl _

end World

namespace Program

variable {α β : Type} {p : Program α} {a a' : α} {b : β}

/-! ### Traces -/

/-- If its requests have some answers, the program puts out `os`, in this order, and comes to the
value `a`. -/
def Puts : Program α → List Output → α → Prop
  | .done b, os, a => a = b ∧ os = []
  | .change _ next, os, a => ∃ answer, (next answer).Puts os a
  | .ask _ _ next, os, a => ∃ answer, (next answer).Puts os a
  | .list _ next, os, a => ∃ answer, (next answer).Puts os a
  | .read _ next, os, a => ∃ answer, (next answer).Puts os a
  | .reading _ next, os, a => ∃ text, (next text).Puts os a
  | .input next, os, a => ∃ sent, (next sent).Puts os a
  | .put o next, os, a => ∃ rest, os = o :: rest ∧ next.Puts rest a

/-- A trace is one of an end of the program, wherever this starts. -/
theorem Puts.ends (h : p.Puts os a) (w : World) : p.Ends w a (os.foldl World.put w) := by
  induction p generalizing os w with
  | done b => exact ⟨h.1, by rw [h.2]; rfl⟩
  | put o next ih =>
    obtain ⟨rest, rfl, h⟩ := h
    exact ih h (w.put o)
  | _ =>
    rename_i ih
    obtain ⟨answer, h⟩ := h
    exact ⟨answer, ih answer h w⟩

/-- **Every end has a trace**, and this accounts for the journal. -/
theorem exists_puts (h : p.Ends w a w') :
    ∃ os, p.Puts os a ∧ w'.journal = (os.foldl World.put w).journal := by
  induction p generalizing w with
  | done b => exact ⟨[], ⟨h.1, rfl⟩, h.2⟩
  | put o next ih =>
    obtain ⟨os, hputs, hjournal⟩ := ih h
    exact ⟨o :: os, ⟨os, rfl, hputs⟩, hjournal⟩
  | _ =>
    rename_i ih
    obtain ⟨answer, h⟩ := h
    obtain ⟨os, hputs, hjournal⟩ := ih answer h
    exact ⟨os, ⟨answer, hputs⟩, hjournal⟩

/-- The trace of two programs is that of the first and then that of the second. -/
theorem puts_bind {f : α → Program β} (h : (p >>= f).Puts os b) :
    ∃ a os₁ os₂, p.Puts os₁ a ∧ (f a).Puts os₂ b ∧ os = os₁ ++ os₂ := by
  induction p generalizing os with
  | done a => exact ⟨a, [], os, ⟨rfl, rfl⟩, h, rfl⟩
  | put o next ih =>
    obtain ⟨rest, rfl, h⟩ := h
    obtain ⟨a, os₁, os₂, hp, hf, rfl⟩ := ih h
    exact ⟨a, o :: os₁, os₂, ⟨os₁, rfl, hp⟩, hf, rfl⟩
  | _ =>
    rename_i ih
    obtain ⟨answer, h⟩ := h
    obtain ⟨a, os₁, os₂, hp, hf, hos⟩ := ih answer h
    exact ⟨a, os₁, os₂, ⟨answer, hp⟩, hf, hos⟩

theorem puts_map {f : α → β} (h : (f <$> p).Puts os b) : ∃ a, p.Puts os a ∧ b = f a := by
  rw [map_eq_pure_bind] at h
  obtain ⟨a, os₁, os₂, hp, ⟨rfl, rfl⟩, rfl⟩ := puts_bind h
  exact ⟨a, (List.append_nil os₁).symm ▸ hp, rfl⟩

theorem puts_pure (h : (pure a : Program α).Puts os a') : a' = a ∧ os = [] := h

theorem puts_put {o : Output} {u : Unit} (h : (put o (.done ()) : Program Unit).Puts os u) :
    os = [o] := by
  obtain ⟨rest, rfl, -, rfl⟩ := h
  rfl

/-! ### Quiet programs -/

/-- What changes no journal is nothing at all: an entry or a line is written where nothing is
dropped, and after a change of what is dropped it no longer matters what was dropped before. -/
theorem eq_nil_of_journal (h : ∀ w : World, (os.foldl World.put w).journal = w.journal) :
    os = [] := by
  rcases os with - | ⟨o, os⟩
  · rfl
  · have hfirst := h (.blank .trace)
    have hlength := World.length_foldl_put_le os ((World.blank .trace).put o)
    simp only [World.journal, List.foldl_cons, Prod.mk.injEq] at hfirst
    rw [hfirst.2.1, hfirst.2.2] at hlength
    cases o with
    | entry e =>
      have hreaches : e.severity.reaches .trace = true := by
        rcases e with ⟨severity, -, -⟩
        cases severity <;> rfl
      have hwritten : (World.blank .trace).put (.entry e) =
          if e.severity.reaches .error then { World.blank .trace with err := [e.text] }
          else { World.blank .trace with out := [e.text] } := by
        simp [World.put, World.log, World.blank, hreaches]
      rw [hwritten] at hlength
      split at hlength <;> exact absurd hlength (by simp [World.blank])
    | line text => exact absurd hlength (by simp [World.put])
    | minimum s =>
      have hsecond := h (.blank .info)
      simp only [World.journal, List.foldl_cons, Prod.mk.injEq] at hsecond
      have hminimum : Severity.trace = .info := hfirst.1.symm.trans hsecond.1
      cases hminimum

/-- **A quiet program** has an empty trace. -/
theorem Quiet.eq_nil (hp : p.Quiet) (h : p.Puts os a) : os = [] :=
  eq_nil_of_journal fun w => hp w a _ (h.ends w)

/-! ### Programs that only write entries -/

/-- The program puts out nothing but entries. -/
def Logs (p : Program α) : Prop :=
  ∀ os a, p.Puts os a → ∃ entries : List Entry, os = entries.map .entry

theorem Quiet.logs (hp : p.Quiet) : p.Logs := fun _ _ h => ⟨[], hp.eq_nil h⟩

theorem logs_pure (a : α) : (pure a : Program α).Logs := (quiet_pure a).logs

theorem logs_log (e : Entry) : (log e).Logs := fun _ _ h => ⟨[e], puts_put h⟩

theorem Logs.bind {f : α → Program β} (hp : p.Logs) (hf : ∀ a, (f a).Logs) : (p >>= f).Logs := by
  intro os b h
  obtain ⟨a, os₁, os₂, hfirst, hsecond, rfl⟩ := puts_bind h
  obtain ⟨entries, rfl⟩ := hp _ _ hfirst
  obtain ⟨entries', rfl⟩ := hf a _ _ hsecond
  exact ⟨entries ++ entries', List.map_append.symm⟩

theorem Logs.map {f : α → β} (hp : p.Logs) : (f <$> p).Logs := by
  rw [map_eq_pure_bind]
  exact hp.bind fun _ => logs_pure _

end Program

/-! ### Actions -/

namespace Action

open Program

variable {ε ε' α β : Type}

theorem puts_bind {x : Action ε α} {f : α → Action ε β} {result : Except ε β}
    (h : (x >>= f).run.Puts os result) :
    (∃ a os₁ os₂, x.run.Puts os₁ (.ok a) ∧ (f a).run.Puts os₂ result ∧ os = os₁ ++ os₂) ∨
      ∃ e, x.run.Puts os (.error e) ∧ result = .error e := by
  rw [ExceptT.run_bind] at h
  obtain ⟨first, os₁, os₂, hx, hf, rfl⟩ := Program.puts_bind h
  rcases first with e | a
  · obtain ⟨rfl, rfl⟩ := puts_pure hf
    rw [List.append_nil]
    exact .inr ⟨e, hx, rfl⟩
  · exact .inl ⟨a, os₁, os₂, hx, hf, rfl⟩

theorem puts_lift {p : Program α} {result : Except ε α}
    (h : (liftM p : Action ε α).run.Puts os result) : ∃ a, p.Puts os a ∧ result = .ok a := by
  obtain ⟨a, os₁, os₂, hp, hreturn, rfl⟩ :=
    Program.puts_bind (f := fun a => pure (Except.ok a)) h
  obtain ⟨rfl, rfl⟩ := puts_pure hreturn
  exact ⟨a, by rwa [List.append_nil], rfl⟩

theorem puts_lift_bind {p : Program α} {f : α → Action ε β} {result : Except ε β}
    (h : ((liftM p : Action ε α) >>= f).run.Puts os result) :
    ∃ a os₁ os₂, p.Puts os₁ a ∧ (f a).run.Puts os₂ result ∧ os = os₁ ++ os₂ := by
  rcases puts_bind h with ⟨a, os₁, os₂, hp, hf, rfl⟩ | ⟨e, hp, -⟩
  · obtain ⟨_, hp, ha⟩ := puts_lift hp
    cases ha
    exact ⟨a, os₁, os₂, hp, hf, rfl⟩
  · obtain ⟨_, -, he⟩ := puts_lift hp
    cases he

theorem logs_bind {x : Action ε α} {f : α → Action ε β} (hx : x.run.Logs)
    (hf : ∀ a, (f a).run.Logs) : (x >>= f).run.Logs := by
  rw [ExceptT.run_bind]
  refine hx.bind fun result => ?_
  rcases result with e | a
  · exact logs_pure _
  · exact hf a

theorem logs_lift {p : Program α} (hp : p.Logs) : (liftM p : Action ε α).run.Logs :=
  Program.Logs.bind hp fun a => logs_pure (Except.ok a)

theorem puts_orFail {wrap : ε → ε'} {p : Program (Except ε α)} {a : α}
    (h : (orFail wrap p).run.Puts os (.ok a)) : p.Puts os (.ok a) := by
  obtain ⟨result, os₁, os₂, hp, hreturn, rfl⟩ := Program.puts_bind h
  rcases result with e | a'
  · cases (puts_pure hreturn).1
  · obtain ⟨ha, rfl⟩ := puts_pure hreturn
    cases ha
    rwa [List.append_nil]

theorem logs_orFail {wrap : ε → ε'} {p : Program (Except ε α)} (hp : p.Logs) :
    (orFail wrap p).run.Logs := by
  refine Program.Logs.bind hp fun result => ?_
  rcases result with e | a
  · exact logs_pure _
  · exact logs_pure _

end Action

end CampusQuery
