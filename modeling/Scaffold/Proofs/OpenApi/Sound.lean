import Scaffold.OpenApi.Paths
import Scaffold.OpenApi.Schemas
import Scaffold.Proofs.Json.Sound

/-!
# The entries of a module are sound

Paths and schemas hold texts, lists and objects with distinct keys only, whatever the fields are: a
repeated field name keeps one property, because properties are a table.
-/

namespace Scaffold.OpenApi

open Json

variable {strict : Prop} {t es : Members} {items v : Json}

lemma isSound_overlay (ht : IsSound strict (.obj t)) (hes : ∀ e ∈ es, IsSound strict e.2) :
    IsSound strict (.obj (Table.overlay t es)) := by
  rw [isSound_obj] at ht ⊢
  refine ⟨Table.nodup_keys_overlay ht.1 es, fun m hm => ?_⟩
  exact (Table.mem_overlay hm).elim (ht.2 m) (hes m)

lemma isSound_nil : IsSound strict (.obj []) := isSound_obj.2 ⟨List.nodup_nil, nofun⟩

lemma isSound_ofEntries (hes : ∀ e ∈ es, IsSound strict e.2) :
    IsSound strict (.obj (Table.ofEntries es)) := isSound_overlay isSound_nil hes

/-! ## Paths -/

lemma isSound_reference (name : Text) : IsSound strict (reference name) := by
  simp [reference, isSound_object]

lemma isSound_collectionPath (cls : Text) : IsSound strict (collectionPath cls) := by
  simp [collectionPath, requestBody, envelope, content, plainAnswer, isSound_object, isSound_reference]

lemma isSound_documentPath (cls : Text) : IsSound strict (documentPath cls) := by
  simp [documentPath, documentOperation, requestBody, envelope, content, plainAnswer, idParameter,
    isSound_object, isSound_arr, isSound_reference]

/-- The paths of a module are sound. -/
theorem isSound_paths (n : Names) : ∀ e ∈ paths n, IsSound strict e.2 := by
  intro e he
  have he := Table.mem_of_mem_ofEntries he
  simp only [List.mem_cons, List.not_mem_nil, or_false] at he
  rcases he with rfl | rfl
  · exact isSound_collectionPath _
  · exact isSound_documentPath _

/-! ## Schemas -/

lemma isSound_scalar (s : Scalar) : IsSound strict (.object (scalarMembers s)) := by
  cases s <;> simp [scalarMembers, isSound_object]

lemma isSound_listOf (h : IsSound strict items) (description : Text) :
    IsSound strict (listOf items description) := by
  simp [listOf, isSound_object, h]

lemma isSound_itemMembers (tag : Text) : IsSound strict (.object (itemMembers tag)) := by
  unfold itemMembers
  split
  · exact isSound_scalar _
  · simp [isSound_object]

lemma isSound_listType (name : Text) (item target : Option Text) :
    IsSound strict (listType name item target) := by
  unfold listType
  split
  · exact isSound_listOf (by simp [isSound_object]) _
  · simp only
    split
    · exact isSound_listOf isSound_nil _
    · exact isSound_listOf isSound_nil _
    · exact isSound_listOf (isSound_itemMembers _) _

mutual

lemma isSound_property : ∀ f, IsSound strict (property f)
  | ⟨name, isRequired, isOptional, kind, children⟩ => by
    have hchildren : IsSound strict (.obj (Table.ofEntries (properties children))) :=
      isSound_ofEntries (isSound_properties children)
    rw [property.eq_def]
    cases kind with
    | list item target =>
      simp only
      split
      · exact isSound_listOf (isSound_reference _) _
      · exact isSound_listType _ _ _
    | record =>
      cases hempty : children.isEmpty with
      | true => simp [hempty, isSound_object]
      | false => simp [hempty, isSound_object, hchildren]
    | scalar s => cases s <;> simp [scalarMembers, isSound_object]
    | enumeration values => simp [isSound_object]
    | reference target => simp [isSound_object]
    | unknown tag => simp [isSound_object]
termination_by structural f => f

lemma isSound_properties : ∀ fs, ∀ e ∈ properties fs, IsSound strict e.2
  | [], e, he => absurd he List.not_mem_nil
  | f :: fs, e, he => by
    have hf := isSound_property f
    have hfs := isSound_properties fs
    rw [properties, List.mem_append] at he
    rcases he with he | he
    · split at he
      · cases he
      · obtain rfl := List.mem_singleton.1 he
        exact hf
    · exact hfs e he
termination_by structural fs => fs

end

lemma isSound_strictSchema (fields : List Field) : IsSound strict (strictSchema fields) := by
  have hproperties : IsSound strict (.obj (propertyTable fields)) :=
    isSound_ofEntries (isSound_properties fields)
  simp [strictSchema, objectSchema, isSound_object, hproperties]

lemma isSound_lenientSchema (fields : List Field) : IsSound strict (lenientSchema fields) := by
  have hproperties : IsSound strict (.obj (propertyTable fields)) :=
    isSound_ofEntries (isSound_properties fields)
  simp [lenientSchema, objectSchema, isSound_object, hproperties]

lemma isSound_documentSchema (fields : List Field) : IsSound strict (documentSchema fields) := by
  have hidentity : IsSound strict (.obj [Json.member "_id" (.object [("type", .lit "string"),
      ("description", .lit "MongoDB ObjectId")])]) := by
    simp [isSound_obj, Table.keys, Json.member, isSound_object]
  have htimes : ∀ e ∈ [Json.member "createdAt" (timestamp "Creation timestamp"),
      Json.member "updatedAt" (timestamp "Last update timestamp")], IsSound strict e.2 := by
    simp [Json.member, timestamp, isSound_object]
  have hproperties := isSound_overlay (isSound_overlay hidentity (isSound_properties fields)) htimes
  simp [documentSchema, objectSchema, isSound_object, hproperties]

/-- The schemas of a module are sound. -/
theorem isSound_schemas (n : Names) (fields : List Field) :
    ∀ e ∈ schemas n fields, IsSound strict e.2 := by
  intro e he
  rcases List.mem_append.1 (Table.mem_of_mem_ofEntries he) with he | he
  · obtain ⟨f, -, rfl⟩ := List.mem_map.1 he
    exact isSound_strictSchema _
  · simp only [List.mem_cons, List.not_mem_nil, or_false] at he
    rcases he with rfl | rfl | rfl
    · exact isSound_documentSchema _
    · exact isSound_strictSchema _
    · exact isSound_lenientSchema _

end Scaffold.OpenApi
