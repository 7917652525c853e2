/-
CampusQuery/Proofs/Query/References.lean

Which dataset a document is about is settled before any dataset is asked for.

The keys of a document come in the order in which they are checked (`references`), and the first
of them that can be split names a dataset (`datasetOf?`).  A check follows a list of keys
(`Follows`) if it asks for no dataset but the one that these keys name first, and for none at
all if the target is fixed already.  Checks that follow keys can be put together, so each
reader needs only one lemma.
-/
import CampusQuery.Proofs.Query.Meaning
import CampusQuery.Proofs.Query.Clauses
import CampusQuery.Proofs.Query.Conditions

namespace CampusQuery

/-! ### The keys of a document -/

/-- The keys in the filter that a value spells, depth first and from left to right. -/
def Json.conditionKeys : Json → List String
  | .object [("AND", .array parts)] => parts.flatMap conditionKeys
  | .object [("OR", .array parts)] => parts.flatMap conditionKeys
  | .object [("NOT", inner)] => conditionKeys inner
  | .object [(_, .object [(key, _)])] => [key]
  | _ => []

namespace Query

/-- The keys that stand for fields, in the order in which they are checked. -/
def references (document : Json) : List String :=
  fieldKeys document ++ ((document.get? "WHERE").map Json.conditionKeys).getD []

/-- The dataset that is named first. -/
def datasetOf? (keys : List String) : Option String :=
  keys.findSome? fun key => (QualifiedKey.ofText? key).map QualifiedKey.dataset

theorem datasetOf?_append (keys keys' : List String) :
    datasetOf? (keys ++ keys') = (datasetOf? keys).or (datasetOf? keys') :=
  List.findSome?_append

/-- Keys of one dataset name that dataset first. -/
theorem datasetOf?_eq_some {keys : List String} {id : String} (hne : keys ≠ [])
    (h : ∀ key ∈ keys, (QualifiedKey.ofText? key).map QualifiedKey.dataset = some id) :
    datasetOf? keys = some id := by
  obtain ⟨key, rest, rfl⟩ := List.exists_cons_of_ne_nil hne
  rw [datasetOf?, List.findSome?_cons, h key List.mem_cons_self]

/-! ### Checks that follow keys -/

variable {α β : Type} {keys keys' : List String}

/-- A check that asks for the dataset that the keys name first, if the target is open, and for no
other; it leaves that dataset as the target.  A target that is fixed stays. -/
structure Follows (m : (String → Option Kind) → Check α) (keys : List String) : Prop where
  asks : ∀ kinds kinds' s, (s = none → ∀ id ∈ datasetOf? keys, kinds id = kinds' id) →
    m kinds s = m kinds' s
  fixes : ∀ kinds a s, m kinds none = .ok (a, s) → s.map Prod.fst = datasetOf? keys
  keeps : ∀ kinds target a s, m kinds (some target) = .ok (a, s) → s = some target

theorem follows_pure (a : α) : Follows (fun _ => pure a) [] where
  asks := fun _ _ _ _ => rfl
  fixes := by
    rintro _ _ _ ⟨⟩
    rfl
  keeps := by
    rintro _ _ _ _ ⟨⟩
    rfl

theorem follows_lift (m : Except QueryError α) : Follows (fun _ => (liftM m : Check α)) [] := by
  rcases m with e | a
  · exact ⟨fun _ _ _ _ => rfl, nofun, nofun⟩
  · exact follows_pure a

theorem follows_get : Follows (fun _ => (get : Check Target)) [] where
  asks := fun _ _ _ _ => rfl
  fixes := by
    rintro _ _ _ ⟨⟩
    rfl
  keeps := by
    rintro _ _ _ _ ⟨⟩
    rfl

/-- A check that stops follows any keys. -/
theorem follows_throw (e : QueryError) (keys : List String) :
    Follows (fun _ => (throw e : Check α)) keys :=
  ⟨fun _ _ _ _ => rfl, nofun, nofun⟩

theorem follows_malformed (fault : DocumentFault) (keys : List String) :
    Follows (fun _ => (malformed fault : Check α)) keys :=
  follows_throw _ keys

/-- One check after another follows the keys of both. -/
theorem Follows.bind {m : (String → Option Kind) → Check α}
    {f : α → (String → Option Kind) → Check β} (hm : Follows m keys)
    (hf : ∀ a, Follows (f a) keys') :
    Follows (fun kinds => m kinds >>= fun a => f a kinds) (keys ++ keys') where
  asks := by
    intro kinds kinds' s h
    have hfirst : m kinds s = m kinds' s := by
      refine hm.asks kinds kinds' s fun hs id hid => h hs id ?_
      rw [datasetOf?_append, Option.mem_def.mp hid]
      rfl
    show (m kinds s >>= fun x => f x.1 kinds x.2) = (m kinds' s >>= fun x => f x.1 kinds' x.2)
    rw [← hfirst]
    rcases hrun : m kinds s with e | ⟨a, s'⟩
    · rfl
    · refine (hf a).asks kinds kinds' s' fun hs' id hid => ?_
      subst hs'
      -- the target is open still, so the first keys name no dataset
      rcases s with - | target
      · refine h rfl id ?_
        rw [datasetOf?_append, ← hm.fixes kinds a none hrun]
        exact hid
      · cases hm.keeps kinds target a none hrun
  fixes := by
    intro kinds b s'' h
    obtain ⟨a, s', ha, hb⟩ := bind_apply_eq_ok.mp h
    have hfixes := hm.fixes kinds a s' ha
    rw [datasetOf?_append, ← hfixes]
    rcases s' with - | target
    · exact (hf a).fixes kinds b s'' hb
    · rw [(hf a).keeps kinds target b s'' hb]
      rfl
  keeps := by
    intro kinds target b s'' h
    obtain ⟨a, s', ha, hb⟩ := bind_apply_eq_ok.mp h
    rw [hm.keeps kinds target a s' ha] at hb
    exact (hf a).keeps kinds target b s'' hb

/-- What comes last and reads no key adds none. -/
theorem Follows.bind_nil {m : (String → Option Kind) → Check α}
    {f : α → (String → Option Kind) → Check β} (hm : Follows m keys)
    (hf : ∀ a, Follows (f a) []) : Follows (fun kinds => m kinds >>= fun a => f a kinds) keys := by
  have h := hm.bind hf
  rwa [List.append_nil] at h

theorem Follows.map {m : (String → Option Kind) → Check α} (hm : Follows m keys) (g : α → β) :
    Follows (fun kinds => m kinds >>= fun a => pure (g a)) keys :=
  hm.bind_nil fun a => follows_pure (g a)

/-! ### Keys -/

theorem follows_bindTo {key : String} {parts : QualifiedKey}
    (h : QualifiedKey.ofText? key = some parts) :
    Follows (fun kinds => bindTo kinds parts.dataset) [key] := by
  have hdataset : datasetOf? [key] = some parts.dataset := by
    simp [datasetOf?, h]
  refine ⟨fun kinds kinds' s hkinds => ?_, fun kinds kind s hrun => ?_,
    fun kinds target kind s hrun => ?_⟩
  · unfold bindTo
    rcases s with - | target
    · rw [hkinds rfl parts.dataset (Option.mem_def.mpr hdataset)]
    · rfl
  · rw [(bindTo_eq_ok hrun).1, hdataset]
    rfl
  · rcases (bindTo_eq_ok hrun).2 with rfl | ⟨hopen, -⟩
    · rfl
    · cases hopen

theorem follows_resolve (clause key : String) :
    Follows (fun kinds => resolve kinds clause key) [key] := by
  unfold resolve
  rcases hkey : QualifiedKey.ofText? key with - | parts
  · exact follows_throw _ _
  · refine (follows_bindTo hkey).bind_nil fun kind => ?_
    rcases Field.ofName? kind parts.field with - | field
    · exact follows_throw _ _
    · exact follows_pure field

/-! ### TRANSFORMATIONS -/

theorem follows_readGroup (items : List Json) :
    Follows (fun kinds => readGroup kinds items) (items.filterMap Json.text?) := by
  induction items with
  | nil => exact follows_pure []
  | cons item rest ih =>
    cases item with
    | text key =>
      exact (follows_resolve "GROUP" key).bind fun field => ih.map (⟨key, field⟩ :: ·)
    | _ => exact follows_malformed _ _

/-- The aggregate of a field, as a rule spells it after its name. -/
theorem follows_applied (name : String) (aggregate : Aggregate) (key : String) :
    Follows
      (fun kinds => do
        let field ← resolve kinds "APPLY" key
        if aggregate.needsNumbers && !field.isNumeric then
          throw (.typeMismatch (.needsNumbers aggregate.token key))
        return (⟨name, aggregate, field⟩ : ApplyRule)) [key] := by
  refine (follows_resolve "APPLY" key).bind_nil fun field => ?_
  split
  · exact follows_throw _ _
  · exact follows_pure _

theorem follows_readRule (taken : List String) (v : Json) :
    Follows (fun kinds => readRule kinds taken v)
      ((NamedRule.ofJson? v).map NamedRule.key).toList := by
  unfold readRule
  split
  · rename_i name body
    refine (follows_lift (checkRuleName taken name)).bind fun _ => ?_
    split
    · rename_i token target
      split
      · exact follows_malformed _ _
      · rename_i aggregate htoken
        split
        · rename_i key
          rw [NamedRule.ofJson?, htoken]
          exact follows_applied name aggregate key
        · exact follows_malformed _ _
    · exact follows_malformed _ _
    · exact follows_malformed _ _
  · exact follows_malformed _ _
  · exact follows_malformed _ _

theorem follows_readRules (taken : List String) (items : List Json) :
    Follows (fun kinds => readRules kinds taken items)
      ((items.filterMap NamedRule.ofJson?).map NamedRule.key) := by
  induction items generalizing taken with
  | nil => exact follows_pure []
  | cons item rest ih =>
    have hkeys : ((item :: rest).filterMap NamedRule.ofJson?).map NamedRule.key =
        ((NamedRule.ofJson? item).map NamedRule.key).toList ++
          (rest.filterMap NamedRule.ofJson?).map NamedRule.key := by
      rcases hitem : NamedRule.ofJson? item with - | n <;> simp [hitem]
    rw [hkeys]
    exact (follows_readRule taken item).bind fun rule => (ih (rule.name :: taken)).map (rule :: ·)

/-- The keys of a TRANSFORMATIONS. -/
def transformationKeys (v : Json) : List String :=
  ((v.get? "GROUP").map Json.texts).getD [] ++
    ((((v.get? "APPLY").bind Json.items?).getD []).filterMap NamedRule.ofJson?).map NamedRule.key

theorem follows_readTransformation (v : Json) :
    Follows (fun kinds => readTransformation kinds v) (transformationKeys v) := by
  unfold readTransformation
  split
  · split
    · rename_i group apply hgroup happly
      split
      · exact follows_malformed _ _
      · rw [transformationKeys, get?_of_getNonNull? hgroup, get?_of_getNonNull? happly]
        split
        · rename_i first rest
          refine (follows_readGroup (first :: rest)).bind fun keys => ?_
          split
          · rename_i rules
            exact (follows_readRules _ rules).map _
          · exact follows_malformed _ _
        · exact follows_malformed _ _
    · exact follows_malformed _ _
  · exact follows_malformed _ _

/-! ### OPTIONS -/

/-- The keys of a COLUMNS: with TRANSFORMATIONS they are names, and none of them is looked up. -/
def listedKeys (t : Option Transformation) (columns : Json) : List String :=
  match t with
  | none => columns.texts
  | some _ => []

theorem follows_readColumns (t : Option Transformation) (items : List Json) :
    Follows (fun kinds => readColumns kinds t items) (listedKeys t (.array items)) := by
  induction items with
  | nil =>
    cases t with
    | none => exact follows_pure []
    | some t => exact follows_pure []
  | cons item rest ih =>
    cases item with
    | text key =>
      have hcons (c : Column) := (follows_pure c).bind fun c => ih.map (c :: ·)
      unfold readColumns
      rcases t with - | t
      · exact (follows_resolve "COLUMNS" key).bind fun field => hcons ⟨key, some field⟩
      · by_cases hmem : (columnNames t).contains key = true
        · simp only [if_pos hmem]
          exact hcons ⟨key, none⟩
        · simp only [if_neg hmem]
          exact follows_throw _ _
    | _ => exact follows_malformed _ _

/-- The keys of an OPTIONS. -/
def optionKeys (t : Option Transformation) (v : Json) : List String :=
  ((v.get? "COLUMNS").map (listedKeys t)).getD []

theorem optionKeys_some (t : Transformation) (v : Json) : optionKeys (some t) v = [] := by
  rw [optionKeys]
  rcases v.get? "COLUMNS" with - | columns
  · rfl
  · rfl

theorem follows_readOptions (t : Option Transformation) (members : List (String × Json)) :
    Follows (fun kinds => readOptions kinds t members) (optionKeys t (.object members)) := by
  simp only [readOptions]
  split
  · exact follows_malformed _ _
  · rename_i columns hcolumns
    by_cases hlength : members.length ≠ if ((Json.object members).get? "ORDER").isSome then 2 else 1
    · simp only [if_pos hlength]
      exact follows_malformed _ _
    · simp only [if_neg hlength]
      rw [optionKeys, get?_of_getNonNull? hcolumns]
      split
      · rename_i first rest
        refine (follows_readColumns t (first :: rest)).bind_nil fun columns => ?_
        split
        · exact follows_pure _
        · rename_i order _
          exact (follows_lift (readOrder columns order)).map _
      · exact follows_malformed _ _

/-! ### WHERE -/

theorem conditionKeys_leaf {tag key : String} {value : Json} (h : tag ≠ "NOT") :
    Json.conditionKeys (.object [(tag, .object [(key, value)])]) = [key] := by
  rw [Json.conditionKeys]
  exact h

/-- A comparison follows the key of its only member, whatever is done with the field. -/
theorem follows_comparison {tag : String} (htag : tag ≠ "NOT") (body : Json)
    {f : String × Json → Field → Check Filter}
    (hf : ∀ entry field, Follows (fun _ => f entry field) []) :
    Follows
      (fun kinds => singleEntry tag body >>= fun entry =>
        resolve kinds tag entry.1 >>= fun field => f entry field)
      (Json.conditionKeys (.object [(tag, body)])) := by
  unfold singleEntry
  split
  · rename_i entry
    rw [conditionKeys_leaf htag]
    exact (follows_resolve tag entry.1).bind_nil fun field => hf entry field
  · exact follows_malformed _ _
  · exact follows_malformed _ _

theorem follows_readComparison (relation : Comparison) (body : Json) :
    Follows (fun kinds => readComparison kinds relation body)
      (Json.conditionKeys (.object [(relation.tag, body)])) := by
  have htag : relation.tag ≠ "NOT" := by
    cases relation <;> decide
  refine follows_comparison htag body fun entry field => ?_
  by_cases hnumeric : field.isNumeric = true
  · rw [hnumeric]
    rcases entry.2.binary64? with - | bound
    · exact follows_throw _ _
    · exact follows_pure _
  · rw [Bool.not_eq_true] at hnumeric
    rw [hnumeric]
    exact follows_throw _ _

theorem follows_readPattern (body : Json) :
    Follows (fun kinds => readPattern kinds body)
      (Json.conditionKeys (.object [("IS", body)])) := by
  refine follows_comparison (by decide) body fun entry field => ?_
  by_cases hnumeric : field.isNumeric = true
  · rw [hnumeric]
    exact follows_throw _ _
  · rw [Bool.not_eq_true] at hnumeric
    rw [hnumeric]
    rcases entry.2.text? with - | pattern
    · exact follows_throw _ _
    · exact follows_pure _

mutual

/-- Reading the members of a condition follows its keys. -/
theorem follows_readFilter (members : List (String × Json)) :
    Follows (fun kinds => readFilter kinds members) (Json.conditionKeys (.object members)) := by
  match members with
  | [(tag, body)] =>
    unfold readFilter
    split
    · rename_i htag
      subst htag
      split
      · rename_i first rest
        rw [Json.conditionKeys]
        exact (follows_readParts "AND" (first :: rest)).map _
      · exact follows_malformed _ _
    · split
      · rename_i htag
        subst htag
        split
        · rename_i first rest
          rw [Json.conditionKeys]
          exact (follows_readParts "OR" (first :: rest)).map _
        · exact follows_malformed _ _
      · split
        · rename_i htag
          subst htag
          split
          · rename_i inner
            rw [Json.conditionKeys]
            exact (follows_readFilter inner).map _
          · exact follows_malformed _ _
        · split
          · rename_i htag
            subst htag
            exact follows_readPattern body
          · split
            · rename_i relation hrelation
              obtain rfl := ofTag?_eq_some_iff.mp hrelation
              exact follows_readComparison relation body
            · exact follows_malformed _ _
  | [] =>
    unfold readFilter
    exact follows_malformed _ _
  | _ :: _ :: _ =>
    unfold readFilter
    exact follows_malformed _ _

/-- The same for the parts of a conjunction or disjunction. -/
theorem follows_readParts (tag : String) (items : List Json) :
    Follows (fun kinds => readParts kinds tag items) (items.flatMap Json.conditionKeys) := by
  match items with
  | [] =>
    unfold readParts
    exact follows_pure []
  | item :: rest =>
    unfold readParts
    cases item with
    | object members =>
      exact (follows_readFilter members).bind fun part =>
        (follows_readParts tag rest).map (part :: ·)
    | _ => exact follows_malformed _ _

end

theorem follows_readWhere (members : List (String × Json)) :
    Follows (fun kinds => readWhere kinds members) (Json.conditionKeys (.object members)) := by
  rcases members with - | ⟨m, members⟩
  · have hkeys : Json.conditionKeys (.object []) = [] := by
      simp [Json.conditionKeys]
    rw [hkeys]
    exact follows_pure none
  · exact (follows_readFilter (m :: members)).map some

/-! ### Documents -/

theorem fieldKeys_of_none {document options : Json}
    (hplain : document.get? "TRANSFORMATIONS" = none)
    (hoptions : document.get? "OPTIONS" = some options) :
    fieldKeys document = optionKeys none options := by
  rw [fieldKeys, hplain]
  show columnKeys document = _
  rw [columnKeys, hoptions]
  rfl

theorem fieldKeys_of_some {document v : Json} (hv : document.get? "TRANSFORMATIONS" = some v) :
    fieldKeys document = transformationKeys v := by
  rw [fieldKeys, hv]
  show groupKeys document ++ (applyRules document).map NamedRule.key = _
  rw [groupKeys, applyRules, hv]
  rfl

/-- The query is made of what the clauses are read as. -/
theorem follows_finish (t : Option Transformation) (read : List Column × Option Order)
    (filter : Option Filter) :
    Follows
      (fun _ => do
        match ← get with
        | some (dataset, kind) => return (⟨dataset, kind, filter, read.1, read.2, t⟩ : Query)
        | none => malformed .noDataset : (String → Option Kind) → Check Query) [] := by
  refine follows_get.bind fun target => ?_
  rcases target with - | target
  · exact follows_malformed _ _
  · exact follows_pure _

/-- WHERE and all after it, once the other clauses are read. -/
theorem follows_readClauses {document : Json} {options filter : List (String × Json)}
    (hoptions : document.get? "OPTIONS" = some (.object options))
    (hfilter : document.get? "WHERE" = some (.object filter)) :
    Follows
      (fun kinds => readClauses kinds (document.get? "TRANSFORMATIONS") options filter)
      (references document) := by
  have hrest (t : Option Transformation) := (follows_readOptions t options).bind fun read =>
    (follows_readWhere filter).bind_nil (follows_finish t read)
  rw [references, hfilter]
  rcases hv : document.get? "TRANSFORMATIONS" with - | v
  · rw [fieldKeys_of_none hv hoptions]
    exact hrest none
  · rw [fieldKeys_of_some hv]
    simp only [readClauses, readTransformations, bind_assoc, pure_bind]
    refine (follows_readTransformation v).bind fun t => ?_
    have hnames := hrest (some t)
    rwa [optionKeys_some, List.nil_append] at hnames

/-- **A document is checked by its references.** -/
theorem follows_read (document : Json) :
    Follows (fun kinds => read kinds document) (references document) := by
  unfold read
  split
  · rename_i members
    split
    · rename_i filter options hfilter hoptions
      split
      · exact follows_malformed _ _
      · split
        · exact follows_readClauses (get?_of_getNonNull? hoptions) (get?_of_getNonNull? hfilter)
        · exact follows_malformed _ _
        · exact follows_malformed _ _
    · exact follows_malformed _ _
  · exact follows_malformed _ _

/-- What a document is read as depends on one dataset at most, which the document names. -/
theorem ofJson_congr {kinds kinds' : String → Option Kind} {document : Json}
    (h : ∀ id ∈ datasetOf? (references document), kinds id = kinds' id) :
    ofJson kinds document = ofJson kinds' document := by
  unfold ofJson StateT.run'
  rw [(follows_read document).asks kinds kinds' none fun _ => h]

end Query

end CampusQuery
