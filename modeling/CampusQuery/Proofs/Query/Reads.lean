/-
CampusQuery/Proofs/Query/Reads.lean

A logic for the checks of a query document.

A check threads the target, the one dataset that the keys read so far have fixed, and
stops at the first fault.  `Reads kinds m P` says two things about a check `m` that
does not stop: it changes the target at most from open to some registered dataset, and
its result has the property `P` with respect to the dataset that is the target in the
end, however much later that is.  So what is proved of one clause still holds when all
clauses are read, and each reader needs only one lemma.

`Accepts kinds m P` is the same in both directions: every result that has the property
is found as well, whatever registered dataset it is about, unless the target is fixed
to another.
-/
import CampusQuery.Proofs.Except
import CampusQuery.Query.Check

namespace CampusQuery.Query

variable {α β : Type} {kinds : String → Option Kind}

/-! ### Targets -/

/-- The target stayed as it was, or was open and is fixed now. -/
def Target.Le (kinds : String → Option Kind) (s s' : Target) : Prop :=
  s' = s ∨ s = none ∧ ∃ id kind, s' = some (id, kind) ∧ kinds id = some kind

theorem Target.Le.refl (s : Target) : Target.Le kinds s s := .inl rfl

theorem Target.Le.trans {s s' s'' : Target} (h : Target.Le kinds s s')
    (h' : Target.Le kinds s' s'') : Target.Le kinds s s'' := by
  rcases h with rfl | ⟨rfl, h⟩
  · exact h'
  · rcases h' with rfl | ⟨rfl, -⟩
    · exact .inr ⟨rfl, h⟩
    · obtain ⟨_, _, h, -⟩ := h
      cases h

theorem Target.Le.eq_of_some {first second : String × Kind}
    (h : Target.Le kinds (some first) (some second)) : second = first := by
  rcases h with h | ⟨h, -⟩
  · exact Option.some.inj h
  · cases h

/-! ### Checks that do not stop -/

/-- What a check that does not stop does to the target, and what its result has to do
with the final target. -/
def Reads (kinds : String → Option Kind) (m : Check α) (P : String → Kind → α → Prop) : Prop :=
  ∀ s a s', m s = .ok (a, s') →
    Target.Le kinds s s' ∧ ∀ id kind, Target.Le kinds s' (some (id, kind)) → P id kind a

theorem bind_apply_eq_ok {m : Check α} {f : α → Check β} {s s'' : Target} {b : β} :
    (m >>= f) s = .ok (b, s'') ↔ ∃ a s', m s = .ok (a, s') ∧ f a s' = .ok (b, s'') := by
  show (m s >>= fun x => f x.1 x.2) = _ ↔ _
  rcases m s with e | ⟨a, s'⟩
  · constructor
    · intro h
      cases h
    · rintro ⟨_, _, h, -⟩
      cases h
  · constructor
    · intro h
      exact ⟨a, s', rfl, h⟩
    · rintro ⟨_, _, h, hf⟩
      cases h
      exact hf

theorem reads_pure {a : α} {P : String → Kind → α → Prop} (h : ∀ id kind, P id kind a) :
    Reads kinds (pure a) P := by
  intro s b s' hb
  cases hb
  exact ⟨.refl s, fun id kind _ => h id kind⟩

theorem reads_throw (e : QueryError) {P : String → Kind → α → Prop} :
    Reads kinds (throw e) P := by
  intro s a s' h
  cases h

/-- What a check that carries no target along finds out. -/
theorem reads_lift {m : Except QueryError α} {P : String → Kind → α → Prop}
    (h : ∀ a, m = .ok a → ∀ id kind, P id kind a) : Reads kinds (liftM m : Check α) P := by
  rcases m with e | a
  · intro s b s' hb
    cases hb
  · intro s b s' hb
    cases hb
    exact ⟨.refl s, fun id kind _ => h a rfl id kind⟩

theorem Reads.mono {m : Check α} {P Q : String → Kind → α → Prop} (h : Reads kinds m P)
    (hpq : ∀ id kind a, P id kind a → Q id kind a) : Reads kinds m Q := by
  intro s a s' hm
  obtain ⟨hle, hP⟩ := h s a s' hm
  exact ⟨hle, fun id kind ht => hpq id kind a (hP id kind ht)⟩

/-- One check after another. -/
theorem Reads.bind {m : Check α} {f : α → Check β} {P : String → Kind → α → Prop}
    {Q : String → Kind → β → Prop} (hm : Reads kinds m P)
    (hf : ∀ a, Reads kinds (f a) fun id kind b => P id kind a → Q id kind b) :
    Reads kinds (m >>= f) Q := by
  intro s b s'' h
  obtain ⟨a, s', ha, hb⟩ := bind_apply_eq_ok.mp h
  obtain ⟨hle, hP⟩ := hm s a s' ha
  obtain ⟨hle', hQ⟩ := hf a s' b s'' hb
  exact ⟨hle.trans hle', fun id kind ht => hQ id kind ht (hP id kind (hle'.trans ht))⟩

/-! ### Keys -/

/-- The key names the field of the dataset, which has the given kind. -/
def Names (id : String) (kind : Kind) (key : String) (field : Field) : Prop :=
  ∃ name, QualifiedKey.ofText? key = some ⟨id, name⟩ ∧ Field.ofName? kind name = some field

theorem bindTo_eq_ok {id : String} {kind : Kind} {s s' : Target}
    (h : bindTo kinds id s = .ok (kind, s')) : s' = some (id, kind) ∧ Target.Le kinds s s' := by
  unfold bindTo at h
  rcases s with - | ⟨first, k⟩
  · rcases hk : kinds id with - | k
    · simp [hk] at h
    · simp only [hk, Except.ok.injEq, Prod.mk.injEq] at h
      obtain ⟨rfl, rfl⟩ := h
      exact ⟨rfl, .inr ⟨rfl, id, k, rfl, hk⟩⟩
  · by_cases hid : first = id
    · subst hid
      simp only [if_true, Except.ok.injEq, Prod.mk.injEq] at h
      obtain ⟨rfl, rfl⟩ := h
      exact ⟨rfl, .refl _⟩
    · simp [hid] at h

theorem reads_bindTo (id : String) :
    Reads kinds (bindTo kinds id) fun id' kind' kind => id' = id ∧ kind' = kind := by
  intro s kind s' h
  obtain ⟨rfl, hle⟩ := bindTo_eq_ok h
  refine ⟨hle, fun id' kind' ht => ?_⟩
  exact Prod.mk.inj ht.eq_of_some

/-- A key that is resolved names its field. -/
theorem reads_resolve (clause key : String) :
    Reads kinds (resolve kinds clause key) fun id kind field => Names id kind key field := by
  rw [resolve]
  rcases hkey : QualifiedKey.ofText? key with - | parts
  · exact reads_throw _
  · refine (reads_bindTo parts.dataset).bind fun kind => ?_
    rcases hfield : Field.ofName? kind parts.field with - | field
    · exact reads_throw _
    · refine reads_pure ?_
      rintro id _ ⟨rfl, rfl⟩
      exact ⟨parts.field, hkey, hfield⟩

/-! ### Checks that give exactly some results -/

/-- The check gives every result that has the property with respect to a registered dataset
which the target leaves open, and goes on leaving it open. -/
def Finds (kinds : String → Option Kind) (m : Check α) (P : String → Kind → α → Prop) : Prop :=
  ∀ s id kind a, Target.Le kinds s (some (id, kind)) → P id kind a →
    ∃ s', m s = .ok (a, s') ∧ Target.Le kinds s' (some (id, kind))

/-- The results of the check are exactly those that have the property with respect to the
dataset that is the target in the end. -/
structure Accepts (kinds : String → Option Kind) (m : Check α) (P : String → Kind → α → Prop) :
    Prop where
  reads : Reads kinds m P
  finds : Finds kinds m P

variable {P : String → Kind → α → Prop} {m : Check α}

theorem accepts_pure (a : α) : Accepts kinds (pure a) fun _ _ b => b = a where
  reads := reads_pure fun _ _ => rfl
  finds := by
    rintro s id kind b hle rfl
    exact ⟨s, rfl, hle⟩

/-- A check that always stops, where nothing has the property. -/
theorem accepts_throw {e : QueryError} (h : ∀ id kind a, ¬ P id kind a) :
    Accepts kinds (throw e) P where
  reads := reads_throw e
  finds := fun _ id kind a _ ha => absurd ha (h id kind a)

theorem accepts_throw_bind {e : QueryError} {f : β → Check α} (h : ∀ id kind a, ¬ P id kind a) :
    Accepts kinds ((throw e : Check β) >>= f) P :=
  accepts_throw h

theorem accepts_malformed {fault : DocumentFault} (h : ∀ id kind a, ¬ P id kind a) :
    Accepts kinds (malformed fault) P :=
  accepts_throw h

theorem accepts_lift (m : Except QueryError α) :
    Accepts kinds (liftM m : Check α) fun _ _ a => m = .ok a where
  reads := reads_lift fun _ h _ _ => h
  finds := by
    rintro s id kind a hle rfl
    exact ⟨s, rfl, hle⟩

theorem Accepts.congr {P' : String → Kind → α → Prop} (h : Accepts kinds m P)
    (e : ∀ id kind a, P id kind a ↔ P' id kind a) : Accepts kinds m P' where
  reads := h.reads.mono fun id kind a => (e id kind a).mp
  finds := fun s id kind a hle ha => h.finds s id kind a hle ((e id kind a).mpr ha)

/-- One check after another: the results of the second for the results of the first. -/
theorem Accepts.bind {f : α → Check β} {Q : α → String → Kind → β → Prop}
    (hm : Accepts kinds m P) (hf : ∀ a, Accepts kinds (f a) (Q a)) :
    Accepts kinds (m >>= f) fun id kind b => ∃ a, P id kind a ∧ Q a id kind b where
  reads := hm.reads.bind fun a => (hf a).reads.mono fun _ _ _ hb ha => ⟨a, ha, hb⟩
  finds := by
    rintro s id kind b hle ⟨a, ha, hb⟩
    obtain ⟨s', hs', hle'⟩ := hm.finds s id kind a hle ha
    obtain ⟨s'', hs'', hle''⟩ := (hf a).finds s' id kind b hle' hb
    exact ⟨s'', bind_apply_eq_ok.mpr ⟨a, s', hs', hs''⟩, hle''⟩

/-- Where the target is fixed, a result that has the property is found, and the target stays. -/
theorem Accepts.eq_ok {id : String} {kind : Kind} {a : α} (h : Accepts kinds m P)
    (ha : P id kind a) : m (some (id, kind)) = .ok (a, some (id, kind)) := by
  obtain ⟨s', hs', -⟩ := h.finds _ id kind a (.refl _) ha
  rcases (h.reads _ _ _ hs').1 with rfl | ⟨hopen, -⟩
  · exact hs'
  · cases hopen

theorem accepts_bindTo (id : String) :
    Accepts kinds (bindTo kinds id) fun id' kind' kind => id' = id ∧ kind' = kind where
  reads := reads_bindTo id
  finds := by
    rintro s _ _ kind (hs | ⟨rfl, id', kind', e, hkind⟩) ⟨rfl, rfl⟩
    · subst hs
      exact ⟨_, by rw [bindTo, if_pos rfl], .refl _⟩
    · cases e
      exact ⟨_, by simp only [bindTo, hkind], .refl _⟩

/-- The field that a key is resolved to is the one that it names. -/
theorem accepts_resolve (clause key : String) :
    Accepts kinds (resolve kinds clause key) fun id kind field => Names id kind key field where
  reads := reads_resolve clause key
  finds := by
    rintro s id kind field hle ⟨name, hkey, hfield⟩
    obtain ⟨s', hs', hle'⟩ := (accepts_bindTo id).finds s id kind kind hle ⟨rfl, rfl⟩
    refine ⟨s', ?_, hle'⟩
    simp only [resolve, hkey]
    exact bind_apply_eq_ok.mpr ⟨kind, s', hs', by rw [hfield]; rfl⟩

end CampusQuery.Query
