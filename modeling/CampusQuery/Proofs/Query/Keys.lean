/-
CampusQuery/Proofs/Query/Keys.lean

Keys of fields.

A key is split at its underscore, and only if it has exactly one, so the two parts and the key
determine each other (`ofText?_eq_some_iff`).  Valid ids have no underscore, nor have the names of
fields, and no two fields have one name, not even of different kinds (`Field.name_inj`).  So the id
and the name, joined by an underscore, are split where they were joined, and there is no other key
by which the checks of a query come to the field (`HasOneKey`).
-/
import Mathlib.Data.List.TakeWhile
import CampusQuery.Catalog.Registry
import CampusQuery.Proofs.Query.Reads

namespace CampusQuery

variable {kinds : String → Option Kind} {s : Query.Target} {id id' key name : String}
variable {kind : Kind} {field field' : Field} {parts : QualifiedKey}

/-! ### Splitting -/

namespace Query

/-- Neither part of a key has an underscore. -/
theorem plain_of_ofText? (h : QualifiedKey.ofText? key = some parts) :
    '_' ∉ parts.dataset.toList ∧ '_' ∉ parts.field.toList := by
  simp only [QualifiedKey.ofText?] at h
  split at h
  · rename_i field hsplit
    split at h
    · cases h
    · rename_i hplain
      obtain rfl := Option.some.inj h
      refine ⟨fun hmem => ?_, by simpa using hplain⟩
      rw [String.toList_ofList] at hmem
      exact absurd (List.mem_takeWhile_imp hmem) (by decide)
  · cases h

/-- A key that was split is its two parts, joined by an underscore. -/
theorem toText_of_ofText? (h : QualifiedKey.ofText? key = some parts) : parts.toText = key := by
  simp only [QualifiedKey.ofText?] at h
  split at h
  · rename_i c field hsplit
    split at h
    · cases h
    · obtain rfl := Option.some.inj h
      -- what the first part does not go on with is the underscore
      have hc : c = '_' := by
        have hne : key.toList.dropWhile (· != '_') ≠ [] := by simp [hsplit]
        simpa [hsplit] using List.head_dropWhile_not (· != '_') hne
      subst hc
      have hjoined := List.takeWhile_append_dropWhile (p := (· != '_')) (l := key.toList)
      rw [hsplit] at hjoined
      rw [← String.toList_inj]
      simpa [QualifiedKey.toText] using hjoined
  · cases h

/-- A key is split where it was put together. -/
theorem ofText?_toText (hdataset : '_' ∉ parts.dataset.toList)
    (hfield : '_' ∉ parts.field.toList) : QualifiedKey.ofText? parts.toText = some parts := by
  have hchars : parts.toText.toList = parts.dataset.toList ++ '_' :: parts.field.toList := by
    simp [QualifiedKey.toText]
  have hall : ∀ c ∈ parts.dataset.toList, (c != '_') = true :=
    fun c hc => bne_iff_ne.mpr fun e => hdataset (e ▸ hc)
  simp [QualifiedKey.ofText?, hchars, List.dropWhile_append_of_pos hall,
    List.takeWhile_append_of_pos hall, hfield]

/-- **A key is split into two parts just if it is the two, joined by its only underscore.** -/
theorem ofText?_eq_some_iff : QualifiedKey.ofText? key = some parts ↔
    key = parts.toText ∧ '_' ∉ parts.dataset.toList ∧ '_' ∉ parts.field.toList := by
  constructor
  · intro h
    exact ⟨(toText_of_ofText? h).symm, plain_of_ofText? h⟩
  · rintro ⟨rfl, hdataset, hfield⟩
    exact ofText?_toText hdataset hfield

end Query

theorem noUnderscore_of_isDatasetId (h : isDatasetId id = true) : '_' ∉ id.toList := by
  intro hmem
  simp only [isDatasetId, Bool.and_eq_true, Bool.not_eq_true', List.any_eq_false] at h
  simpa using h.2 '_' hmem

/-! ### Names of fields -/

namespace Field

theorem noUnderscore_name (field : Field) : '_' ∉ field.name.toList := by
  cases field <;> decide

/-- **No two fields have one name**, whatever their kinds are. -/
theorem name_inj (h : field.name = field'.name) : field = field' := by
  cases field <;> cases field' <;> first | rfl | exact absurd h (by decide)

theorem mem_ofKind_iff : field ∈ ofKind kind ↔ field.kind = kind := by
  cases kind <;> cases field <;> decide

/-- The field of a kind with a name is found, if there is one. -/
theorem ofName?_eq_some_iff : ofName? kind name = some field ↔
    field ∈ ofKind kind ∧ field.name = name := by
  constructor
  · intro h
    exact ⟨List.mem_of_find?_eq_some h, by simpa using List.find?_some h⟩
  · rintro ⟨hmem, rfl⟩
    rcases hfind : ofName? kind field.name with - | found
    · exact absurd (List.find?_eq_none.mp hfind field hmem) (by simp)
    · have hname : found.name = field.name := by simpa using List.find?_some hfind
      rw [name_inj hname]

theorem ofName?_name (field : Field) : ofName? field.kind field.name = some field :=
  ofName?_eq_some_iff.mpr ⟨mem_ofKind_iff.mpr rfl, rfl⟩

/-- The key of a field in the dataset with the id. -/
def keyIn (id : String) (field : Field) : String := (QualifiedKey.mk id field.name).toText

end Field

/-! ### Keys of fields -/

namespace Query

/-- Under a valid id, the key of a field is split into the id and the name of the field. -/
theorem ofText?_keyIn (hid : isDatasetId id = true) (field : Field) :
    QualifiedKey.ofText? (field.keyIn id) = some ⟨id, field.name⟩ :=
  ofText?_toText (noUnderscore_of_isDatasetId hid) field.noUnderscore_name

end Query

/-- Under a valid id, the key of a field names the field. -/
theorem names_keyIn (hid : isDatasetId id = true) :
    Query.Names id field.kind (field.keyIn id) field :=
  ⟨field.name, Query.ofText?_keyIn hid field, field.ofName?_name⟩

namespace Query

/-- **No other key names the field.** -/
theorem names_iff (hid : isDatasetId id = true) (hkind : field.kind = kind) :
    Names id kind key field ↔ key = field.keyIn id := by
  constructor
  · rintro ⟨name, hkey, hfield⟩
    rw [← toText_of_ofText? hkey, ← (Field.ofName?_eq_some_iff.mp hfield).2]
    rfl
  · rintro rfl
    exact hkind ▸ names_keyIn hid

/-- A key that names a field is resolved to it, and fixes the target. -/
theorem resolve_eq_ok (clause : String) (h : Names id kind key field)
    (hs : Target.Le kinds s (some (id, kind))) :
    resolve kinds clause key s = .ok (field, some (id, kind)) := by
  obtain ⟨name, hkey, hfield⟩ := h
  have hbind : bindTo kinds id s = .ok (kind, some (id, kind)) := by
    rcases hs with hs | ⟨rfl, _, _, e, hkind⟩
    · cases hs
      simp [bindTo]
    · cases e
      simp [bindTo, hkind]
  simp only [resolve, hkey]
  exact bind_apply_eq_ok.mpr ⟨kind, _, hbind, by rw [hfield]; rfl⟩

/-- The first key of a query comes to a field of a registered dataset just if it names it. -/
theorem resolve_eq_ok_iff (hkind : kinds id = some kind) (clause : String) :
    resolve kinds clause key none = .ok (field, some (id, kind)) ↔ Names id kind key field := by
  constructor
  · intro h
    exact (reads_resolve clause key _ _ _ h).2 id kind (.refl _)
  · intro h
    exact resolve_eq_ok clause h (.inr ⟨rfl, id, kind, rfl, hkind⟩)

/-- The field has one key in the dataset.  The key is split into the id and the name of the field,
and the name is found in its kind; in whatever kind it is looked up, it is found just where a field
has the name.  If the dataset is registered, then no other key leads to the field. -/
structure HasOneKey (id : String) (kind : Kind) (field : Field) : Prop where
  splits : QualifiedKey.ofText? (id ++ "_" ++ field.name) = some ⟨id, field.name⟩
  named : Field.ofName? kind field.name = some field
  inKind : ∀ other found, Field.ofName? other field.name = some found ↔
    found ∈ Field.ofKind other ∧ found.name = field.name
  resolves : ∀ kinds clause key, kinds id = some kind →
    (resolve kinds clause key none = .ok (field, some (id, kind)) ↔ key = id ++ "_" ++ field.name)

theorem hasOneKey (hid : isDatasetId id = true) (hfield : field ∈ Field.ofKind kind) :
    HasOneKey id kind field where
  splits := ofText?_keyIn hid field
  named := Field.ofName?_eq_some_iff.mpr ⟨hfield, rfl⟩
  inKind _ _ := Field.ofName?_eq_some_iff
  resolves _ clause _ hkind :=
    (resolve_eq_ok_iff hkind clause).trans (names_iff hid (Field.mem_ofKind_iff.mp hfield))

/-- No two fields have one key, be they of one dataset or of two. -/
theorem keyIn_inj (hid : isDatasetId id = true) (hid' : isDatasetId id' = true)
    (hkey : field.keyIn id = field'.keyIn id') : id = id' ∧ field = field' := by
  -- one key is split in one way only
  have hparts := ofText?_keyIn hid field
  rw [hkey, ofText?_keyIn hid' field'] at hparts
  obtain ⟨hids, hnames⟩ := QualifiedKey.mk.inj (Option.some.inj hparts)
  exact ⟨hids.symm, (Field.name_inj hnames).symm⟩

end Query

end CampusQuery
