/-
CampusQuery/Proofs/Catalog/Fields.lean

The fields of registered datasets can be asked for.

With a valid id every field has exactly one key (`Query.HasOneKey`); with an id that has an
underscore it would have none.  Nothing but the check of an addition keeps such ids out, and it is
enough: in a session that began with an empty directory the ids of all registered datasets are
valid (`Session.Reached.sound`), so there is no field without a key (`one_key_per_field`).
-/
import CampusQuery.Proofs.Catalog.Footprint
import CampusQuery.Proofs.Query.Keys

namespace CampusQuery

variable {r : Registry} {x : Dataset} {c : Catalog} {d : DataDirectory} {start : FileTree}
variable {s : Session}

/-- Queries find a registered dataset with its kind. -/
theorem Registry.kinds_view (hx : x ∈ r.datasets) : r.view.kinds x.id = some x.store.kind := by
  rw [CatalogView.kinds, view, find?_eq_some_iff.mpr ⟨hx, rfl⟩]
  rfl

namespace Session

/-- In a session every field of a registered dataset has exactly one key. -/
theorem Reached.existsUnique_key [FloatReader] (hempty : d.IsEmpty start)
    (hreached : Reached d start s) (hopened : s.catalog = some c)
    (hx : x ∈ c.registry.datasets) {field : Field}
    (hfield : field ∈ Field.ofKind x.store.kind) (clause : String) :
    ∃! key, Query.resolve c.registry.view.kinds clause key none =
      .ok (field, some (x.id, x.store.kind)) := by
  have hproper := ((hreached.sound hempty).catalog c hopened).registry
  have hid : isDatasetId x.id = true := (hproper x hx).id
  have hresolves (key : String) := (Query.hasOneKey hid hfield).resolves c.registry.view.kinds
    clause key (Registry.kinds_view hx)
  exact ⟨x.id ++ "_" ++ field.name, (hresolves _).mpr rfl, fun key hkey => (hresolves key).mp hkey⟩

/-- **Every field of every registered dataset has exactly one key.**  A key is split at its only
underscore.  If an id is valid, then the key made of it and the name of a field is split into these
two, and it leads to that field; no other field, of this dataset or another, has it.  All ids that a
session registers are valid. -/
theorem one_key_per_field [FloatReader] :
    (∀ key parts, QualifiedKey.ofText? key = some parts ↔
        key = parts.dataset ++ "_" ++ parts.field ∧
          '_' ∉ parts.dataset.toList ∧ '_' ∉ parts.field.toList) ∧
      (∀ id, isDatasetId id = true → ∀ kind, ∀ field ∈ Field.ofKind kind,
        Query.HasOneKey id kind field) ∧
      (∀ id id' (field field' : Field), isDatasetId id = true → isDatasetId id' = true →
        id ++ "_" ++ field.name = id' ++ "_" ++ field'.name → id = id' ∧ field = field') ∧
      ∀ d start s c, d.IsEmpty start → Reached d start s → s.catalog = some c →
        ∀ x ∈ c.registry.datasets, ∀ field ∈ Field.ofKind x.store.kind, ∀ clause,
          ∃! key, Query.resolve c.registry.view.kinds clause key none =
            .ok (field, some (x.id, x.store.kind)) :=
  ⟨fun _ _ => Query.ofText?_eq_some_iff, fun _ hid _ _ => Query.hasOneKey hid,
    fun _ _ _ _ => Query.keyIn_inj,
    fun _ _ _ _ hempty hreached hopened _ hx _ => hreached.existsUnique_key hempty hopened hx⟩

section Sample

attribute [local instance] FloatReader.nearest

/-- An id may have dots and any letters; two fields of one dataset have different keys; and the
seats of the rooms that a session has added have a key. -/
theorem one_key_per_field_sample :
    isDatasetId "größe.2" = true ∧ Query.HasOneKey "größe.2" .rooms .seats ∧
      "größe.2" ++ "_" ++ Field.seats.name ≠ "größe.2" ++ "_" ++ Field.lat.name ∧
      ∃ files, Reached sampleDirectory .empty ⟨some sampleAdded, files⟩ ∧
        ∃ x ∈ sampleAdded.registry.datasets, Field.seats ∈ Field.ofKind x.store.kind ∧
          ∃! key, Query.resolve sampleAdded.registry.view.kinds "WHERE" key none =
            .ok (.seats, some (x.id, x.store.kind)) := by
  obtain ⟨files, hreached⟩ := reached_sample
  have hmem : (⟨"rooms", sampleStore⟩ : Dataset) ∈ sampleAdded.registry.datasets :=
    List.mem_singleton_self _
  refine ⟨by decide, ?_, ?_, files, hreached, _, hmem, by decide, ?_⟩
  · exact one_key_per_field.2.1 "größe.2" (by decide) .rooms .seats (by decide)
  · intro hkey
    have hfields := one_key_per_field.2.2.1 "größe.2" "größe.2" .seats .lat (by decide)
      (by decide) hkey
    exact absurd hfields.2 (by decide)
  · exact one_key_per_field.2.2.2 _ _ _ _ isEmpty_sample hreached rfl _ hmem .seats (by decide) _

end Sample

end Session

end CampusQuery
