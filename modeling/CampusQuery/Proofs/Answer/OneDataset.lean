/-
CampusQuery/Proofs/Answer/OneDataset.lean

An answer depends on one dataset at most.

The document alone tells which one that is: the first that its references name.  Checking asks for
no other (`Query.ofJson_congr`), and what is accepted is a query about that one
(`Query.Grammar.Document.datasetOf?`), so it is the only one whose records are looked at.
-/
import CampusQuery.Answer.Run
import CampusQuery.Proofs.Catalog.Registry
import CampusQuery.Proofs.Query.Documents

namespace CampusQuery.Query

variable {document : Json}

/-- Two catalogs answer alike if they agree on the dataset that the document names. -/
theorem answerWith_congr {view view' : CatalogView} {kinds kinds' : String → Option Kind}
    (h : ∀ id ∈ datasetOf? (references document), kinds id = kinds' id ∧ view id = view' id) :
    view.answerWith kinds document = view'.answerWith kinds' document := by
  unfold CatalogView.answerWith
  rw [ofJson_congr fun id hid => (h id hid).1]
  rcases hq : ofJson kinds' document with e | q
  · rfl
  · have hdataset := (ofJson_eq_ok.mp hq).2.datasetOf?
    show view.run q = view'.run q
    rw [CatalogView.run, CatalogView.run, (h q.dataset hdataset).2]

theorem answer_congr {view view' : CatalogView}
    (h : ∀ id ∈ datasetOf? (references document), view id = view' id) :
    view.answer document = view'.answer document := by
  refine answerWith_congr fun id hid => ⟨?_, h id hid⟩
  rw [CatalogView.kinds, CatalogView.kinds, h id hid]

/-- The rows of a query are those of its dataset. -/
theorem dataset_of_run {view : CatalogView} {q : Query} {answer : Answer}
    (h : view.run q = .ok answer) : answer.dataset = q.dataset := by
  unfold CatalogView.run at h
  split at h
  · simp only [runOn] at h
    split at h
    · cases h
    · split at h
      · cases h
      · cases h
        rfl
  · cases h

/-- What a document is answered with comes from the dataset that the document names. -/
theorem dataset_of_answerWith {view : CatalogView} {kinds : String → Option Kind}
    {answer : Answer} (h : view.answerWith kinds document = .ok answer) :
    datasetOf? (references document) = some answer.dataset := by
  unfold CatalogView.answerWith at h
  rcases hq : ofJson kinds document with e | q
  · rw [hq] at h
    cases h
  · rw [hq] at h
    rw [dataset_of_run h]
    exact (ofJson_eq_ok.mp hq).2.datasetOf?

/-- **An answer depends on one dataset only**, whether it is rows or a fault; rows are always those
of that dataset.  In particular, no other dataset that is added or removed changes the answer. -/
theorem answer_reads_one_dataset (document : Json) :
    (∀ (view view' : CatalogView) (kinds kinds' : String → Option Kind),
      (∀ id ∈ datasetOf? (references document), kinds id = kinds' id ∧ view id = view' id) →
      view.answerWith kinds document = view'.answerWith kinds' document) ∧
    (∀ (view : CatalogView) (kinds : String → Option Kind) (answer : Answer),
      view.answerWith kinds document = .ok answer →
      datasetOf? (references document) = some answer.dataset) ∧
    ∀ r : Registry,
      (∀ d : Dataset, d.id ∉ datasetOf? (references document) →
        (r.insert d).view.answer document = r.view.answer document) ∧
      ∀ id ∉ datasetOf? (references document),
        (r.erase id).view.answer document = r.view.answer document := by
  refine ⟨fun _ _ _ _ h => answerWith_congr h, fun _ _ _ h => dataset_of_answerWith h,
    fun r => ⟨fun d hd => ?_, fun removed hid => ?_⟩⟩
  · refine answer_congr fun id hid => ?_
    have hne : id ≠ d.id := fun e => hd (e ▸ hid)
    rw [Registry.view, Registry.view, Registry.find?_insert, if_neg hne]
  · refine answer_congr fun id hid' => ?_
    have hne : id ≠ removed := fun e => hid (e ▸ hid')
    rw [Registry.view, Registry.view, Registry.find?_erase, if_neg hne]

end CampusQuery.Query
