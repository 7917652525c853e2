/-
CampusQuery/Proofs/Query/Documents.lean

Exactly the documents of the grammar are accepted, and each as the query that it stands for.

The lemmas about clauses leave one thing open: a document that is read must fix a dataset, which is
looked at after all clauses.  The references of a document fix it, and every document of the
grammar has one, in GROUP or in COLUMNS (`Grammar.Document.datasetOf?`).
-/
import CampusQuery.Proofs.Query.References

namespace CampusQuery.Query

variable {kinds : String → Option Kind}

/-! ### Clauses that may be missing or empty -/

theorem accepts_readTransformations (v : Option Json) :
    Accepts kinds (readTransformations kinds v) fun id kind t =>
      Option.Rel (Grammar.Transformed id kind) v t := by
  unfold readTransformations
  split
  · exact (accepts_pure none).congr fun id kind t => by cases t <;> simp
  · rename_i v
    refine ((accepts_readTransformation v).bind fun t => accepts_pure (some t)).congr
      fun id kind t => ?_
    cases t <;> simp

theorem accepts_readWhere (members : List (String × Json)) :
    Accepts kinds (readWhere kinds members) fun id kind f =>
      Grammar.Where id kind (.object members) f := by
  rcases members with - | ⟨m, members⟩
  · refine (accepts_pure none).congr fun id kind f => ?_
    constructor
    · rintro rfl
      exact .empty
    · intro h
      cases h with
      | empty => rfl
      | condition h => cases h
  · refine ((accepts_readFilter (m :: members)).bind fun f => accepts_pure (some f)).congr
      fun id kind f => ?_
    constructor
    · rintro ⟨f, hf, rfl⟩
      exact .condition hf
    · intro h
      cases h with
      | condition h => exact ⟨_, h, rfl⟩

/-! ### The dataset of a document -/

theorem texts_map {α : Type} (f : α → String) (l : List α) :
    Json.texts (.array (l.map fun a => .text (f a))) = l.map f := by
  rw [Json.texts, List.filterMap_map]
  exact congrFun List.filterMap_eq_map l

theorem Names.dataset {id key : String} {kind : Kind} {field : Field}
    (h : Names id kind key field) :
    (QualifiedKey.ofText? key).map QualifiedKey.dataset = some id := by
  obtain ⟨name, hkey, -⟩ := h
  rw [hkey, Option.map_some]

section Named

variable {id : String} {kind : Kind} {v : Json}

theorem Grammar.Group.datasetOf? {group : List GroupKey} (h : Grammar.Group id kind v group) :
    datasetOf? v.texts = some id := by
  rw [h.items, texts_map]
  refine datasetOf?_eq_some (mt List.map_eq_nil_iff.mp h.ne_nil) fun key hkey => ?_
  obtain ⟨g, hg, rfl⟩ := List.mem_map.mp hkey
  exact (h.names g hg).dataset

theorem Grammar.Columns.datasetOf? {columns : List Column}
    (h : Grammar.Columns id kind none v columns) : datasetOf? v.texts = some id := by
  rw [h.items, texts_map]
  refine datasetOf?_eq_some (mt List.map_eq_nil_iff.mp h.ne_nil) fun key hkey => ?_
  obtain ⟨c, hc, rfl⟩ := List.mem_map.mp hkey
  obtain ⟨field, -, hnames⟩ := h.fits c hc
  exact hnames.dataset

theorem Grammar.Transformed.datasetOf? {t : Transformation}
    (h : Grammar.Transformed id kind v t) : datasetOf? (transformationKeys v) = some id := by
  obtain ⟨g, hg, hgroup⟩ := h.group
  rw [transformationKeys, hg, datasetOf?_append, Option.map_some, Option.getD_some,
    hgroup.datasetOf?, Option.some_or]

theorem Grammar.Options.datasetOf? {columns : List Column} {order : Option Order}
    (h : Grammar.Options id kind none v columns order) :
    datasetOf? (optionKeys none v) = some id := by
  obtain ⟨c, hc, hcolumns⟩ := h.listed
  rw [optionKeys, hc]
  exact hcolumns.datasetOf?

/-- A document of the grammar is about the dataset of its query. -/
theorem Grammar.Document.datasetOf? {q : Query} (h : Grammar.Document v q) :
    datasetOf? (references v) = some q.dataset := by
  have hfields : Query.datasetOf? (fieldKeys v) = some q.dataset := by
    rcases h.plain_or_grouped with ⟨hv, ht⟩ | ⟨_, _, hv, -, htransformed⟩
    · obtain ⟨options, hoptions, ho⟩ := h.options
      rw [ht] at ho
      rw [fieldKeys_of_none hv hoptions]
      exact ho.datasetOf?
    · rw [fieldKeys_of_some hv]
      exact htransformed.datasetOf?
  rw [references, datasetOf?_append, hfields, Option.some_or]

end Named

/-! ### Documents -/

/-- TRANSFORMATIONS or COLUMNS has fixed the target. -/
theorem exists_target {id : String} {kind : Kind} {transformations : Option Json}
    {options : List (String × Json)} {t : Option Transformation} {columns : List Column}
    {order : Option Order} {s₁ s₂ : Target}
    (ht : readTransformations kinds transformations none = .ok (t, s₁))
    (hread : readOptions kinds t options s₁ = .ok ((columns, order), s₂))
    (htransformation : Option.Rel (Grammar.Transformed id kind) transformations t)
    (ho : Grammar.Options id kind t (.object options) columns order) :
    ∃ target, s₂ = some target := by
  cases htransformation with
  | none =>
    cases ht
    have hfixed := (follows_readOptions none options).fixes _ _ _ hread
    rw [ho.datasetOf?] at hfixed
    obtain ⟨target, hs, -⟩ := Option.map_eq_some_iff.mp hfixed
    exact ⟨target, hs⟩
  | some hv =>
    obtain ⟨_, _, ht, h⟩ := bind_apply_eq_ok.mp ht
    cases h
    have hfixed := (follows_readTransformation _).fixes _ _ _ ht
    rw [hv.datasetOf?] at hfixed
    obtain ⟨target, rfl, -⟩ := Option.map_eq_some_iff.mp hfixed
    exact ⟨target, (follows_readOptions _ options).keeps _ _ _ _ hread⟩

/-- TRANSFORMATIONS and OPTIONS are read as what they stand for, and fix the target. -/
theorem exists_readOptions {id : String} {kind : Kind} {transformations : Option Json}
    {options : List (String × Json)} {t : Option Transformation} {columns : List Column}
    {order : Option Order} (hkind : kinds id = some kind)
    (ht : Option.Rel (Grammar.Transformed id kind) transformations t)
    (ho : Grammar.Options id kind t (.object options) columns order) :
    ∃ s, readTransformations kinds transformations none = .ok (t, s) ∧
      readOptions kinds t options s = .ok ((columns, order), some (id, kind)) := by
  obtain ⟨s₁, htransformation, hle₁⟩ := (accepts_readTransformations transformations).finds none
    id kind t (.inr ⟨rfl, _, _, rfl, hkind⟩) ht
  obtain ⟨s₂, hread, hle₂⟩ := (accepts_readOptions t options).finds s₁
    id kind (columns, order) hle₁ ho
  obtain ⟨target, rfl⟩ := exists_target htransformation hread ht ho
  obtain rfl := hle₂.eq_of_some
  exact ⟨s₁, htransformation, hread⟩

/-- The clauses are read as the query that they stand for. -/
theorem readClauses_eq_ok_iff {transformations : Option Json}
    {options filter : List (String × Json)} {q : Query} :
    (∃ s, readClauses kinds transformations options filter none = .ok (q, s)) ↔
      kinds q.dataset = some q.kind ∧
        Option.Rel (Grammar.Transformed q.dataset q.kind) transformations q.transformation ∧
        Grammar.Options q.dataset q.kind q.transformation (.object options) q.columns q.order ∧
        Grammar.Where q.dataset q.kind (.object filter) q.filter := by
  unfold readClauses
  constructor
  · rintro ⟨s, h⟩
    obtain ⟨t, s₁, ht, h₁⟩ := bind_apply_eq_ok.mp h
    obtain ⟨⟨columns, order⟩, s₂, ho, h₂⟩ := bind_apply_eq_ok.mp h₁
    obtain ⟨where?, s₃, hw, h₃⟩ := bind_apply_eq_ok.mp h₂
    obtain ⟨target, s₄, hget, h₄⟩ := bind_apply_eq_ok.mp h₃
    cases hget
    rcases s₃ with - | ⟨dataset, kind⟩
    · cases h₄
    · cases h₄
      -- every clause is about the dataset that is the target in the end
      obtain ⟨hle₁, ht⟩ := (accepts_readTransformations transformations).reads _ _ _ ht
      obtain ⟨hle₂, ho⟩ := (accepts_readOptions t options).reads _ _ _ ho
      obtain ⟨hle₃, hw⟩ := (accepts_readWhere filter).reads _ _ _ hw
      have hle := (hle₁.trans hle₂).trans hle₃
      refine ⟨?_, ht _ _ (hle₂.trans hle₃), ho _ _ hle₃, hw _ _ (.refl _)⟩
      rcases hle with e | ⟨-, id, kind, e, hkind⟩
      · cases e
      · cases e
        exact hkind
  · obtain ⟨dataset, kind, where?, columns, order, t⟩ := q
    rintro ⟨hkind, htransformation, ho, hw⟩
    obtain ⟨s₁, ht, hread⟩ := exists_readOptions hkind htransformation ho
    refine ⟨some (dataset, kind), bind_apply_eq_ok.mpr ⟨t, s₁, ht, ?_⟩⟩
    refine bind_apply_eq_ok.mpr ⟨(columns, order), _, hread, ?_⟩
    exact bind_apply_eq_ok.mpr ⟨where?, _, (accepts_readWhere filter).eq_ok hw,
      bind_apply_eq_ok.mpr ⟨some (dataset, kind), some (dataset, kind), rfl, rfl⟩⟩

theorem ofJson_eq_ok_iff_read {document : Json} {q : Query} :
    ofJson kinds document = .ok q ↔ ∃ s, read kinds document none = .ok (q, s) := by
  unfold ofJson StateT.run'
  rcases read kinds document none with e | ⟨q', s⟩
  · constructor
    · intro h
      cases h
    · rintro ⟨_, h⟩
      cases h
  · constructor
    · intro h
      cases h
      exact ⟨s, rfl⟩
    · rintro ⟨_, h⟩
      cases h
      rfl

/-- A document is read clause by clause if it has the right members. -/
theorem read_eq_readClauses {document : Json} {options filter : List (String × Json)}
    (hmembers : ∃ members, document = .object members ∧ ∀ m ∈ members, m.1 ∈ clauses)
    (hoptions : document.get? "OPTIONS" = some (.object options))
    (hfilter : document.get? "WHERE" = some (.object filter)) :
    read kinds document = readClauses kinds (document.get? "TRANSFORMATIONS") options filter := by
  obtain ⟨members, rfl, hclauses⟩ := hmembers
  have hany : ¬ (members.any fun m => !clauses.contains m.1) = true := by simpa using hclauses
  simp only [read, getNonNull?_of_get? hfilter (by simp),
    getNonNull?_of_get? hoptions (by simp), if_neg hany]

/-- A document is read as a query just if it stands for the query and the query's dataset is
registered. -/
theorem ofJson_eq_ok {document : Json} {q : Query} :
    ofJson kinds document = .ok q ↔
      kinds q.dataset = some q.kind ∧ Grammar.Document document q := by
  rw [ofJson_eq_ok_iff_read]
  constructor
  · rintro ⟨s, h⟩
    cases document with
    | object members =>
      rcases hfilter : (Json.object members).getNonNull? "WHERE" with - | filter
      · simp only [read, hfilter] at h
        cases h
      rcases hoptions : (Json.object members).getNonNull? "OPTIONS" with - | options
      · simp only [read, hfilter, hoptions] at h
        cases h
      simp only [read, hfilter, hoptions] at h
      split at h
      · cases h
      · rename_i hclauses
        split at h
        · obtain ⟨hkind, ht, ho, hw⟩ := readClauses_eq_ok_iff.mp ⟨s, h⟩
          refine ⟨hkind, ⟨members, rfl, by simpa using hclauses⟩, ht,
            ⟨_, get?_of_getNonNull? hoptions, ho⟩, _, get?_of_getNonNull? hfilter, hw⟩
        · cases h
        · cases h
    | _ => cases h
  · rintro ⟨hkind, hmembers, ht, ⟨options, hoptions, ho⟩, filter, hfilter, hw⟩
    obtain ⟨optionMembers, rfl, -⟩ := ho.members
    obtain ⟨filterMembers, rfl⟩ := hw.exists_members
    rw [read_eq_readClauses hmembers hoptions hfilter]
    exact readClauses_eq_ok_iff.mpr ⟨hkind, ht, ho, hw⟩

/-- **Exactly the documents of the grammar are accepted**, and each is read as the query that it
stands for. -/
theorem accepts_grammar (kinds : String → Option Kind) (document : Json) :
    (∀ q, ofJson kinds document = .ok q ↔
      kinds q.dataset = some q.kind ∧ Grammar.Document document q) ∧
      ((∃ e, ofJson kinds document = .error e) ↔
        ¬ ∃ q : Query, kinds q.dataset = some q.kind ∧ Grammar.Document document q) := by
  refine ⟨fun q => ofJson_eq_ok, ?_⟩
  simp only [← ofJson_eq_ok]
  rcases ofJson kinds document with e | q <;> simp

end CampusQuery.Query
