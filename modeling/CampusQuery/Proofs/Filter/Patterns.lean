/-
CampusQuery/Proofs/Filter/Patterns.lean

Which texts are patterns, and what a pattern fits.

Asterisks are told apart by their positions: an inner one has a character before it and one behind
it (`HasInnerAsterisk`).  Taking asterisks off both ends leaves one exactly if there is an inner
one, also where the two ends overlap, as in `*` and `**` (`wellFormed_iff`).  The main result
(`reads_edge_globs`) puts this together with the meaning of patterns: reading fails for exactly
these texts, with an error of its own, and every other pattern fits exactly its instances.
-/
import CampusQuery.Proofs.Filter.Holds

namespace CampusQuery.Wildcard

/-- An asterisk stands at a position that is neither the first nor the last. -/
def HasInnerAsterisk (pattern : String) : Prop :=
  ∃ i, 0 < i ∧ i + 1 < pattern.toList.length ∧ pattern.toList[i]? = some '*'

/-- The elements between the first and the last are those at the positions between. -/
theorem mem_dropLast_tail_iff {c : Char} {cs : List Char} :
    c ∈ cs.tail.dropLast ↔ ∃ i, 0 < i ∧ i + 1 < cs.length ∧ cs[i]? = some c := by
  rw [List.mem_iff_getElem?]
  constructor
  · rintro ⟨i, hi⟩
    rw [List.getElem?_dropLast, List.getElem?_tail, List.length_tail,
      Option.ite_none_right_eq_some] at hi
    exact ⟨i + 1, Nat.succ_pos i, by omega, hi.2⟩
  · rintro ⟨i, hpos, hlast, hi⟩
    obtain ⟨j, rfl⟩ := Nat.exists_eq_succ_of_ne_zero hpos.ne'
    refine ⟨j, ?_⟩
    rw [List.getElem?_dropLast, List.getElem?_tail, List.length_tail]
    exact Option.ite_none_right_eq_some.mpr ⟨by omega, hi⟩

theorem wellFormed_iff {pattern : String} : WellFormed pattern ↔ ¬ HasInnerAsterisk pattern := by
  rw [WellFormed, mem_dropLast_tail_iff, HasInnerAsterisk]

/-- A malformed pattern is refused by name, by every store and for every field. -/
theorem select_like_of_ofText? {pattern : String} (h : ofText? pattern = none)
    (store : RecordStore) (field : Field) :
    (Filter.like field pattern).select store = .error (.invalidWildcard pattern) := by
  rw [Filter.select, h]

/-- **Patterns are globs with asterisks at the ends.**  A text is no pattern if and only if it has
an inner asterisk; selecting by it then fails with the code for that.  Every other text is a
pattern, and fits exactly the texts that arise from it when each asterisk is replaced by some
text. -/
theorem reads_edge_globs (pattern : String) :
    (ofText? pattern = none ↔ HasInnerAsterisk pattern) ∧
    (ofText? pattern = none → ∀ store field,
      (Filter.like field pattern).select store = .error (.invalidWildcard pattern) ∧
        (QueryError.invalidWildcard pattern).code = "CAMPUS_INVALID_WILDCARD") ∧
    ∀ w, ofText? pattern = some w →
      ∀ text, w.fits text = true ↔ Glob pattern.toList text.toList := by
  refine ⟨?_, fun h store field => ⟨select_like_of_ofText? h store field, rfl⟩,
    fun _ h => fits_iff_glob h⟩
  rw [ofText?_eq_none_iff, wellFormed_iff, not_not]

/-- A lone asterisk opens one end, two open both, and three are one too many. -/
example : ofText? "*" = some ⟨true, [], false⟩ ∧ ofText? "**" = some ⟨true, [], true⟩ ∧
    ofText? "***" = none := by decide +kernel

end CampusQuery.Wildcard
