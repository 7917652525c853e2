/-
CampusQuery/Proofs/Filter/Glob.lean

What patterns mean.  `Glob p s` says that the text `s` arises from the pattern `p`
when every asterisk in it is replaced by some text, wherever the asterisks stand.

A `Wildcard` only knows asterisks at the two ends.  The main results are that exactly
the patterns without an asterisk further in are read as one
(`ofText?_eq_none_iff`), and that for these `Wildcard.fits` decides `Glob`
(`fits_iff_glob`).
-/
import Mathlib.Data.List.Infix
import CampusQuery.Filter.Wildcard

namespace CampusQuery

/-! ### Globs -/

/-- The text arises from the pattern when every asterisk is replaced by some text. -/
inductive Glob : List Char → List Char → Prop
  | nil : Glob [] []
  | char {c p s} : c ≠ '*' → Glob p s → Glob (c :: p) (c :: s)
  | star {p s} (t : List Char) : Glob p s → Glob ('*' :: p) (t ++ s)

/-- `Glob`, decided by trying every text for every asterisk. -/
def globs : List Char → List Char → Bool
  | [], s => s.isEmpty
  | c :: p, s =>
    if c = '*' then s.tails.any (globs p)
    else
      match s with
      | [] => false
      | d :: s => d == c && globs p s

theorem glob_nil_iff {s : List Char} : Glob [] s ↔ s = [] := by
  constructor
  · rintro ⟨⟩
    rfl
  · rintro rfl
    exact .nil

theorem glob_star_iff {p s : List Char} : Glob ('*' :: p) s ↔ ∃ t, t <:+ s ∧ Glob p t := by
  constructor
  · intro h
    cases h with
    | char hc _ => exact absurd rfl hc
    | star t h => exact ⟨_, List.suffix_append t _, h⟩
  · rintro ⟨t, ⟨u, rfl⟩, h⟩
    exact .star u h

theorem glob_cons_iff {c : Char} {p s : List Char} (hc : c ≠ '*') :
    Glob (c :: p) s ↔ ∃ t, s = c :: t ∧ Glob p t := by
  constructor
  · intro h
    cases h with
    | char _ h => exact ⟨_, rfl, h⟩
    | star _ _ => exact absurd rfl hc
  · rintro ⟨t, rfl, h⟩
    exact .char hc h

/-- Text without asterisks stands for itself. -/
theorem glob_append_iff {core : List Char} (h : '*' ∉ core) {p s : List Char} :
    Glob (core ++ p) s ↔ ∃ t, s = core ++ t ∧ Glob p t := by
  induction core generalizing s with
  | nil => simp
  | cons c core ih =>
    rw [List.mem_cons, not_or] at h
    rw [List.cons_append, glob_cons_iff (Ne.symm h.1)]
    simp only [ih h.2, List.cons_append]
    constructor
    · rintro ⟨_, rfl, t, rfl, ht⟩
      exact ⟨t, rfl, ht⟩
    · rintro ⟨t, rfl, ht⟩
      exact ⟨_, rfl, t, rfl, ht⟩

theorem globs_iff {p s : List Char} : globs p s = true ↔ Glob p s := by
  induction p generalizing s with
  | nil => simp [globs, glob_nil_iff]
  | cons c p ih =>
    by_cases hc : c = '*'
    · subst hc
      simp only [globs, if_true, List.any_eq_true, List.mem_tails, glob_star_iff, ih]
    · rw [glob_cons_iff hc]
      cases s with
      | nil => simp [globs, hc]
      | cons d s =>
        simp only [globs, if_neg hc, Bool.and_eq_true, beq_iff_eq, ih, List.cons.injEq]
        constructor
        · rintro ⟨rfl, h⟩
          exact ⟨s, ⟨rfl, rfl⟩, h⟩
        · rintro ⟨_, ⟨rfl, rfl⟩, h⟩
          exact ⟨rfl, h⟩

instance (p s : List Char) : Decidable (Glob p s) := decidable_of_iff _ globs_iff

/-! ### Patterns with asterisks at the ends -/

namespace Wildcard

/-- No asterisk stands between the first and the last character. -/
def WellFormed (pattern : String) : Prop := '*' ∉ pattern.toList.tail.dropLast

instance (pattern : String) : Decidable (WellFormed pattern) :=
  inferInstanceAs (Decidable (_ ∉ _))

/-- The pattern as it was written. -/
def chars (w : Wildcard) : List Char :=
  (if w.openStart then ['*'] else []) ++ (w.core ++ if w.openEnd then ['*'] else [])

/-- An asterisk before the last character is one before the end, unless the text ends
in one. -/
theorem mem_dropLast_iff {c : Char} {cs : List Char} (h : cs.getLast? ≠ some c) :
    c ∈ cs.dropLast ↔ c ∈ cs := by
  rcases List.eq_nil_or_concat cs with rfl | ⟨front, last, rfl⟩
  · rfl
  · rw [List.concat_eq_append] at h ⊢
    rw [List.getLast?_concat, ne_eq, Option.some.injEq] at h
    simp [Ne.symm h]

/-- What remains between the asterisks at the ends is free of asterisks exactly when no
asterisk stands further in. -/
theorem ofText?_eq_none_iff {pattern : String} :
    ofText? pattern = none ↔ ¬ WellFormed pattern := by
  rw [WellFormed, not_not]
  rcases h : pattern.toList with - | ⟨c, cs⟩
  · simp [ofText?, h]
  · by_cases hc : c = '*'
    · subst hc
      by_cases hl : cs.getLast? = some '*'
      · simp [ofText?, h, hl]
      · simp [ofText?, h, hl, mem_dropLast_iff hl]
    · -- the first character is no asterisk, so it may as well stay
      have hfirst : '*' ∈ (c :: cs).dropLast ↔ '*' ∈ cs.dropLast := by
        cases cs with
        | nil => simp
        | cons d cs => simp [Ne.symm hc]
      by_cases hl : (c :: cs).getLast? = some '*'
      · simp [ofText?, h, hc, hl, hfirst]
      · have hwhole := mem_dropLast_iff hl
        rw [hfirst] at hwhole
        simp only [ofText?, h, List.head?_cons, List.tail_cons, hwhole]
        simp [hc, Ne.symm hc, hl]

/-- A pattern is what was taken off its ends and the core between. -/
theorem chars_of_ofText? {pattern : String} {w : Wildcard} (h : ofText? pattern = some w) :
    pattern.toList = w.chars ∧ '*' ∉ w.core := by
  simp only [ofText?, Option.ite_none_left_eq_some, Option.some.injEq] at h
  obtain ⟨hcore, rfl⟩ := h
  refine ⟨?_, by simpa using hcore⟩
  have hend : ∀ cs : List Char,
      ((if cs.getLast? == some '*' then cs.dropLast else cs) ++
        if cs.getLast? == some '*' then ['*'] else []) = cs := by
    intro cs
    rcases List.eq_nil_or_concat cs with rfl | ⟨front, last, rfl⟩
    · rfl
    · by_cases hl : last = '*' <;> simp [hl]
  simp only [chars, hend]
  rcases pattern.toList with - | ⟨c, cs⟩
  · rfl
  · by_cases hc : c = '*' <;> simp [hc]

theorem occursIn_iff {core cs : List Char} : occursIn core cs = true ↔ core <:+: cs := by
  induction cs with
  | nil => simp [occursIn]
  | cons c cs ih =>
    rw [occursIn, Bool.or_eq_true, List.isPrefixOf_iff_prefix, ih, List.infix_cons_iff]

/-- Fitting a pattern is being an instance of it. -/
theorem fits_iff_glob {pattern : String} {w : Wildcard} (h : ofText? pattern = some w)
    (text : String) : w.fits text = true ↔ Glob pattern.toList text.toList := by
  obtain ⟨hchars, hcore⟩ := chars_of_ofText? h
  rw [hchars]
  obtain ⟨openStart, core, openEnd⟩ := w
  have hstar : ∀ s, Glob (core ++ ['*']) s ↔ core <+: s := by
    intro s
    simp only [glob_append_iff hcore, glob_star_iff, glob_nil_iff]
    constructor
    · rintro ⟨t, rfl, -⟩
      exact List.prefix_append core t
    · rintro ⟨t, rfl⟩
      exact ⟨t, rfl, [], List.nil_suffix, rfl⟩
  have hself : ∀ s, Glob core s ↔ s = core := by
    intro s
    simpa [glob_nil_iff] using glob_append_iff hcore (p := []) (s := s)
  cases openStart <;> cases openEnd
  · simp [fits, chars, hself]
  · simp [fits, chars, hstar]
  · simp [fits, chars, glob_star_iff, hself]
  · simp only [fits, chars, if_true, List.singleton_append, glob_star_iff, hstar, occursIn_iff,
      List.infix_iff_prefix_suffix]
    constructor
    · rintro ⟨t, h1, h2⟩
      exact ⟨t, h2, h1⟩
    · rintro ⟨t, h2, h1⟩
      exact ⟨t, h1, h2⟩

end Wildcard

end CampusQuery
