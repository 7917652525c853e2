/-
CampusQuery/Proofs/Query/Conditions.lean

WHERE is read as the grammar says.

The reader goes by the tag of a condition, and so do the rules of the grammar
(`condition_iff`).  The main result is by recursion on the document: one lemma for the members of a
condition and one for the parts of a connective, each calling the other.
-/
import CampusQuery.Proofs.Query.Grammar

namespace CampusQuery.Query

variable {kinds : String → Option Kind}

/-! ### Comparisons -/

theorem accepts_singleEntry (tag : String) (body : Json) :
    Accepts kinds (singleEntry tag body) fun _ _ entry => body = .object [entry] := by
  unfold singleEntry
  split
  · exact (accepts_pure _).congr fun _ _ _ => by simp [eq_comm]
  · rename_i hne
    exact accepts_malformed fun _ _ entry h => hne entry (Json.object.inj h)
  · rename_i hne _
    exact accepts_malformed fun _ _ entry h => hne entry h

theorem accepts_readComparison (relation : Comparison) (body : Json) :
    Accepts kinds (readComparison kinds relation body) fun id kind f =>
      ∃ key field n, body = .object [(key, .number n)] ∧ Names id kind key field ∧
        field.isNumeric = true ∧ f = .compare relation field n.toBinary64 := by
  unfold readComparison
  refine ((accepts_singleEntry relation.tag body).bind fun entry =>
    (accepts_resolve relation.tag entry.1).bind (Q := fun field _ _ f => ∃ n,
      entry.2 = .number n ∧ field.isNumeric = true ∧ f = .compare relation field n.toBinary64)
      fun field => ?_).congr fun id kind f => ?_
  · obtain ⟨key, value⟩ := entry
    by_cases hnumeric : field.isNumeric = true
    · rw [hnumeric]
      cases value with
      | number n => exact (accepts_pure _).congr fun _ _ f => by simp
      | _ => exact accepts_throw (by simp)
    · rw [Bool.not_eq_true] at hnumeric
      rw [hnumeric]
      exact accepts_throw_bind (by simp)
  · constructor
    · rintro ⟨⟨key, value⟩, rfl, field, hnames, n, rfl, hnumeric, rfl⟩
      exact ⟨key, field, n, rfl, hnames, hnumeric, rfl⟩
    · rintro ⟨key, field, n, rfl, hnames, hnumeric, rfl⟩
      exact ⟨(key, .number n), rfl, field, hnames, n, rfl, hnumeric, rfl⟩

theorem accepts_readPattern (body : Json) :
    Accepts kinds (readPattern kinds body) fun id kind f =>
      ∃ key field pattern, body = .object [(key, .text pattern)] ∧ Names id kind key field ∧
        field.isNumeric = false ∧ f = .like field pattern := by
  unfold readPattern
  refine ((accepts_singleEntry "IS" body).bind fun entry =>
    (accepts_resolve "IS" entry.1).bind (Q := fun field _ _ f => ∃ pattern,
      entry.2 = .text pattern ∧ field.isNumeric = false ∧ f = .like field pattern)
      fun field => ?_).congr fun id kind f => ?_
  · obtain ⟨key, value⟩ := entry
    by_cases hnumeric : field.isNumeric = true
    · rw [hnumeric]
      exact accepts_throw_bind (by simp)
    · rw [Bool.not_eq_true] at hnumeric
      rw [hnumeric]
      cases value with
      | text pattern => exact (accepts_pure _).congr fun _ _ f => by simp
      | _ => exact accepts_throw (by simp)
  · constructor
    · rintro ⟨⟨key, value⟩, rfl, field, hnames, pattern, rfl, htext, rfl⟩
      exact ⟨key, field, pattern, rfl, hnames, htext, rfl⟩
    · rintro ⟨key, field, pattern, rfl, hnames, htext, rfl⟩
      exact ⟨(key, .text pattern), rfl, field, hnames, pattern, rfl, htext, rfl⟩

/-- The forms of a condition, by its tag. -/
theorem condition_iff {id tag : String} {kind : Kind} {body : Json} {f : Filter} :
    Grammar.Condition id kind (.object [(tag, body)]) f ↔
      (tag = "AND" ∧ ∃ items parts, body = .array items ∧ items ≠ [] ∧
        List.Forall₂ (Grammar.Condition id kind) items parts ∧ f = .and parts) ∨
      (tag = "OR" ∧ ∃ items parts, body = .array items ∧ items ≠ [] ∧
        List.Forall₂ (Grammar.Condition id kind) items parts ∧ f = .or parts) ∨
      (tag = "NOT" ∧ ∃ inner, Grammar.Condition id kind body inner ∧ f = .not inner) ∨
      (tag = "IS" ∧ ∃ key field pattern, body = .object [(key, .text pattern)] ∧
        Names id kind key field ∧ field.isNumeric = false ∧ f = .like field pattern) ∨
      ∃ relation : Comparison, tag = relation.tag ∧ ∃ key field n,
        body = .object [(key, .number n)] ∧ Names id kind key field ∧ field.isNumeric = true ∧
          f = .compare relation field n.toBinary64 := by
  constructor
  · intro h
    cases h with
    | and hne hparts => exact .inl ⟨rfl, _, _, rfl, hne, hparts, rfl⟩
    | or hne hparts => exact .inr (.inl ⟨rfl, _, _, rfl, hne, hparts, rfl⟩)
    | not h => exact .inr (.inr (.inl ⟨rfl, _, h, rfl⟩))
    | like hnames htext =>
      exact .inr (.inr (.inr (.inl ⟨rfl, _, _, _, rfl, hnames, htext, rfl⟩)))
    | compare relation hnames hnumeric =>
      exact .inr (.inr (.inr (.inr ⟨relation, rfl, _, _, _, rfl, hnames, hnumeric, rfl⟩)))
  · rintro (⟨rfl, items, parts, rfl, hne, hparts, rfl⟩ |
      ⟨rfl, items, parts, rfl, hne, hparts, rfl⟩ | ⟨rfl, inner, h, rfl⟩ |
      ⟨rfl, key, field, pattern, rfl, hnames, htext, rfl⟩ |
      ⟨relation, rfl, key, field, n, rfl, hnames, hnumeric, rfl⟩)
    · exact .and hne hparts
    · exact .or hne hparts
    · exact .not h
    · exact .like hnames htext
    · exact .compare relation hnames hnumeric

/-- No comparison has the tag of another form. -/
theorem tag_ne (relation : Comparison) :
    "AND" ≠ relation.tag ∧ "OR" ≠ relation.tag ∧ "NOT" ≠ relation.tag ∧ "IS" ≠ relation.tag := by
  cases relation <;> decide

theorem tag_inj {r s : Comparison} : r.tag = s.tag ↔ r = s := by
  cases r <;> cases s <;> decide

theorem ofTag?_eq_some_iff {tag : String} {relation : Comparison} :
    Comparison.ofTag? tag = some relation ↔ relation.tag = tag := by
  constructor
  · intro h
    simpa using List.find?_some h
  · rintro rfl
    cases relation <;> decide

/-- A connective over the conditions in an array that is not empty. -/
theorem accepts_connective (make : List Filter → Filter) (tag : String) {body : Json}
    (h : ∀ items, body = .array items → Accepts kinds (readParts kinds tag items)
      fun id kind parts => List.Forall₂ (Grammar.Condition id kind) items parts) :
    Accepts kinds
      (match body with
        | .array (first :: rest) => do return make (← readParts kinds tag (first :: rest))
        | _ => malformed (.listEmpty tag))
      fun id kind f => ∃ items parts, body = .array items ∧ items ≠ [] ∧
        List.Forall₂ (Grammar.Condition id kind) items parts ∧ f = make parts := by
  split
  · rename_i first rest
    refine ((h _ rfl).bind fun parts => accepts_pure (make parts)).congr fun id kind f => ?_
    constructor
    · rintro ⟨parts, hparts, rfl⟩
      exact ⟨_, parts, rfl, List.cons_ne_nil _ _, hparts, rfl⟩
    · rintro ⟨items, parts, e, -, hparts, rfl⟩
      cases e
      exact ⟨parts, hparts, rfl⟩
  · rename_i hne
    refine accepts_malformed fun id kind f => ?_
    rintro ⟨items, parts, e, hnil, -⟩
    obtain ⟨first, rest, rfl⟩ := List.exists_cons_of_ne_nil hnil
    exact hne first rest e

mutual

/-- The filter that the members of an object are read as is the one that they spell. -/
theorem accepts_readFilter (members : List (String × Json)) :
    Accepts kinds (readFilter kinds members) fun id kind f =>
      Grammar.Condition id kind (.object members) f := by
  match members with
  | [(tag, body)] =>
    refine Accepts.congr ?_ fun id kind f => condition_iff.symm
    unfold readFilter
    split
    · rename_i htag
      subst htag
      refine (accepts_connective .and "AND" fun items h => ?_).congr fun id kind f => ?_
      · subst h
        exact accepts_readParts "AND" items
      · simp [tag_ne]
    · split
      · rename_i htag
        subst htag
        refine (accepts_connective .or "OR" fun items h => ?_).congr fun id kind f => ?_
        · subst h
          exact accepts_readParts "OR" items
        · simp [tag_ne]
      · split
        · rename_i htag
          subst htag
          split
          · rename_i inner
            refine ((accepts_readFilter inner).bind fun f =>
              accepts_pure (Filter.not f)).congr fun id kind f => ?_
            simp [tag_ne]
          · rename_i hne
            refine accepts_malformed fun id kind f h => ?_
            obtain ⟨inner, hinner, -⟩ :
                ∃ inner, Grammar.Condition id kind body inner ∧ f = .not inner := by
              simpa [tag_ne] using h
            obtain ⟨members, e⟩ := hinner.exists_members
            exact hne members e
        · split
          · rename_i htag
            subst htag
            exact (accepts_readPattern body).congr fun id kind f => by simp [tag_ne]
          · split
            · rename_i hand hor hnot his _ relation hrelation
              obtain rfl := ofTag?_eq_some_iff.mp hrelation
              refine (accepts_readComparison relation body).congr fun id kind f => ?_
              simp [hand, hor, hnot, his, tag_inj]
            · rename_i hand hor hnot his _ hunknown
              refine accepts_malformed fun id kind f h => ?_
              simp only [hand, hor, hnot, his, false_and, false_or] at h
              obtain ⟨relation, rfl, -⟩ := h
              rw [ofTag?_eq_some_iff.mpr rfl] at hunknown
              cases hunknown
  | [] =>
    unfold readFilter
    exact accepts_malformed fun id kind f h => nomatch h
  | _ :: _ :: _ =>
    unfold readFilter
    exact accepts_malformed fun id kind f h => nomatch h

/-- The same for the parts of a conjunction or disjunction. -/
theorem accepts_readParts (tag : String) (items : List Json) :
    Accepts kinds (readParts kinds tag items) fun id kind parts =>
      List.Forall₂ (Grammar.Condition id kind) items parts := by
  match items with
  | [] =>
    rw [readParts]
    exact (accepts_pure []).congr fun _ _ parts => by simp
  | item :: rest =>
    unfold readParts
    cases item with
    | object members =>
      refine ((accepts_readFilter members).bind fun part => (accepts_readParts tag rest).bind
        fun parts => accepts_pure (part :: parts)).congr fun id kind parts => ?_
      rw [List.forall₂_cons_left_iff]
      simp only [exists_and_left]
    | _ =>
      refine accepts_malformed fun id kind parts h => ?_
      cases h with
      | cons h _ => cases h

end

end CampusQuery.Query
