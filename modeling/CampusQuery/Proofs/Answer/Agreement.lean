/-
CampusQuery/Proofs/Answer/Agreement.lean

When two documents have the same answer.

An answer depends on the document through the records that satisfy WHERE, the rows that these are
made into, and the first malformed pattern if there is one.  Documents of one dataset that
agree on these have the same answer (`answer_eq_of_rows`, `answer_of_malformed`), however
different they are.
-/
import CampusQuery.Proofs.Answer.Columns

namespace CampusQuery.Query

variable {view : CatalogView} {document document' : Json} {q q' : Query}

theorem matching_congr {store : RecordStore}
    (h : ∀ r ∈ store.records.toList, Matches document' r ↔ Matches document r) :
    matching document' store = matching document store := by
  unfold matching
  exact List.filter_congr fun r hr => decide_eq_decide.mpr (h r hr)

theorem matches_congr (h : document'.get? "WHERE" = document.get? "WHERE") (r : Record) :
    Matches document' r ↔ Matches document r := by
  rw [Matches, Matches, h]

theorem patternsOf_congr (h : document'.get? "WHERE" = document.get? "WHERE") :
    patternsOf document' = patternsOf document := by
  rw [patternsOf, patternsOf, h]

/-- The first malformed pattern of an accepted document is reported. -/
theorem answer_of_malformed (hq : ofJson view.kinds document = .ok q) {pattern : String}
    (h : Filter.firstMalformed? (patternsOf document) = some pattern) :
    view.answer document = .error (.rejected (.invalidWildcard pattern)) := by
  obtain ⟨hkinds, hspells⟩ := spells_of_ofJson hq
  obtain ⟨store, hstore, -⟩ := Option.map_eq_some_iff.mp hkinds
  rcases hfilter : q.filter with - | f
  · rw [patternsOf_eq_nil hq hfilter] at h
    cases h
  · rw [← hspells.patterns f hfilter] at h
    simp only [CatalogView.answer, CatalogView.answerWith, hq, CatalogView.run, hstore, runOn,
      Filter.selectOptional, hfilter, Filter.select_of_malformed store f h]

/-- Documents about one dataset have the same answer if the same number of rows is counted, and the
same rows are left of them in the end. -/
theorem answer_eq_of_rows (hq : ofJson view.kinds document = .ok q)
    (hq' : ofJson view.kinds document' = .ok q') (hdataset : q'.dataset = q.dataset)
    (hpatterns : ∀ p ∈ patternsOf document, Wildcard.WellFormed p)
    (hpatterns' : ∀ p ∈ patternsOf document', Wildcard.WellFormed p)
    (hrows : ∀ store : RecordStore, store.kind = q.kind →
      (q'.rawRows (matching document' store)).length =
          (q.rawRows (matching document store)).length ∧
        q'.projected (q'.ordered (q'.rawRows (matching document' store))) =
          q.projected (q.ordered (q.rawRows (matching document store)))) :
    view.answer document' = view.answer document := by
  obtain ⟨store, hstore, hkind, hanswer⟩ := answer_eq hq hpatterns
  obtain ⟨store', hstore', -, hanswer'⟩ := answer_eq hq' hpatterns'
  rw [hdataset, hstore] at hstore'
  obtain rfl := Option.some.inj hstore'
  obtain ⟨hlength, hrows⟩ := hrows store hkind
  rw [hanswer, hanswer', hlength, hrows, hdataset]

end CampusQuery.Query
