import Scaffold.OpenApi.Paths
import Scaffold.OpenApi.Schemas
import Scaffold.Proofs.Field.Nesting
import Scaffold.Proofs.Table

/-!
# The schemas that an API document leads to

A path of the document leads to the schemas that it refers to, to those that these refer to, and so
on (`Reaches`).  The entries that are written for a module are closed in this sense: whatever its
paths lead to is among its own schemas (`Reaches.exists_schema`).  That a list of objects is referred
to wherever it stands but its schema is declared only once, by a traversal of its own, is what has to
be shown; `mem_nested_trans` says that the traversal misses nothing.
-/

namespace Scaffold

namespace OpenApi

variable {name key t : Text} {members : Json.Members} {items : List Json} {v schema : Json}
  {n : Names} {fields : List Field}

/-- A value holds a reference to a schema somewhere. -/
inductive Refers : Json → Text → Prop where
  | here {members : Json.Members} {name : Text} :
    ("$ref".toList, Json.str (schemaRoot ++ name)) ∈ members → Refers (.obj members) name
  | member {members : Json.Members} {name key : Text} {v : Json} :
    (key, v) ∈ members → Refers v name → Refers (.obj members) name
  | item {items : List Json} {name : Text} {v : Json} :
    v ∈ items → Refers v name → Refers (.arr items) name

/-- The schemas that a value leads to. -/
inductive Reaches (schemas : Json.Members) (start : Json) : Text → Prop where
  | direct {name : Text} : Refers start name → Reaches schemas start name
  | through {name next : Text} {schema : Json} : Reaches schemas start name →
    Json.Members.find? name schemas = some schema → Refers schema next → Reaches schemas start next

/-- A value holds a reference with a text somewhere, whatever the text leads to. -/
inductive Cites : Json → Text → Prop where
  | here {members : Json.Members} {t : Text} :
    ("$ref".toList, Json.str t) ∈ members → Cites (.obj members) t
  | member {members : Json.Members} {t key : Text} {v : Json} :
    (key, v) ∈ members → Cites v t → Cites (.obj members) t
  | item {items : List Json} {t : Text} {v : Json} : v ∈ items → Cites v t → Cites (.arr items) t

/-! ## References in values -/

/-- To refer to a schema is to hold a reference with the place of the schema. -/
lemma refers_iff : Refers v name ↔ Cites v (schemaRoot ++ name) := by
  constructor
  · intro h
    induction h with
    | here hmem => exact .here hmem
    | member hmem _ ih => exact .member hmem ih
    | item hmem _ ih => exact .item hmem ih
  · intro h
    generalize ht : schemaRoot ++ name = t at h
    induction h with
    | here hmem => exact .here (ht ▸ hmem)
    | member hmem _ ih => exact .member hmem (ih ht)
    | item hmem _ ih => exact .item hmem (ih ht)

lemma cites_obj : Cites (.obj members) t ↔
    ∃ m ∈ members, m = ("$ref".toList, Json.str t) ∨ Cites m.2 t := by
  constructor
  · intro h
    cases h with
    | here hmem => exact ⟨_, hmem, .inl rfl⟩
    | member hmem h => exact ⟨_, hmem, .inr h⟩
  · rintro ⟨m, hmem, rfl | h⟩
    · exact .here hmem
    · exact .member hmem h

lemma cites_arr : Cites (.arr items) t ↔ ∃ v ∈ items, Cites v t := by
  constructor
  · intro h
    cases h with
    | item hmem h => exact ⟨_, hmem, h⟩
  · rintro ⟨v, hmem, h⟩
    exact .item hmem h

@[simp] lemma not_cites_str (u : Text) : ¬ Cites (.str u) t := nofun

@[simp] lemma not_cites_lit (s : String) : ¬ Cites (Json.lit s) t := nofun

@[simp] lemma not_cites_bool (b : Bool) : ¬ Cites (.bool b) t := nofun

@[simp] lemma not_cites_strings (ts : List Text) : ¬ Cites (Json.strings ts) t := by
  intro h
  obtain ⟨v, hmem, h⟩ := cites_arr.1 h
  obtain ⟨u, -, rfl⟩ := List.mem_map.1 hmem
  exact not_cites_str u h

lemma not_cites_nil : ¬ Cites (.obj []) t := by
  intro h
  obtain ⟨m, hmem, -⟩ := cites_obj.1 h
  cases hmem

/-- References in an object with literal keys. -/
lemma cites_object {ms : List (String × Json)} : Cites (Json.object ms) t ↔
    ∃ m ∈ ms, (m.1 = "$ref" ∧ m.2 = .str t) ∨ Cites m.2 t := by
  rw [Json.object, cites_obj]
  constructor
  · rintro ⟨entry, hentry, h⟩
    obtain ⟨m, hm, rfl⟩ := List.mem_map.1 hentry
    refine ⟨m, hm, h.imp_left fun h => ?_⟩
    obtain ⟨hkey, hvalue⟩ := Prod.mk.inj h
    exact ⟨String.toList_inj.1 hkey, hvalue⟩
  · rintro ⟨m, hm, h⟩
    refine ⟨(m.1.toList, m.2), List.mem_map_of_mem hm, h.imp_left ?_⟩
    rintro ⟨hkey, hvalue⟩
    rw [hkey, hvalue]

@[simp] lemma cites_reference : Cites (reference name) t ↔ t = schemaRoot ++ name := by
  rw [reference, cites_object]
  simp [eq_comm]

/-! ## References of a module -/

lemma cites_collectionPath {cls : Text} :
    Cites (collectionPath cls) t ↔ t = schemaRoot ++ (cls ++ "Create") ∨ t = schemaRoot ++ cls := by
  simp [collectionPath, requestBody, envelope, content, plainAnswer, cites_object]

lemma cites_documentPath {cls : Text} :
    Cites (documentPath cls) t ↔ t = schemaRoot ++ cls ∨ t = schemaRoot ++ (cls ++ "Update") := by
  simp [documentPath, documentOperation, requestBody, envelope, content, plainAnswer, idParameter,
    cites_object, cites_arr]
  tauto

/-- The schemas that the paths of a module refer to. -/
lemma exists_of_cites_paths (h : Cites (.obj (paths n)) t) :
    ∃ name ∈ [n.className, n.className ++ "Create", n.className ++ "Update"],
      t = schemaRoot ++ name := by
  obtain ⟨m, hmem, h⟩ := cites_obj.1 h
  have hpath := Table.mem_of_mem_ofEntries hmem
  simp only [List.mem_cons, List.not_mem_nil, or_false] at hpath
  rcases hpath with rfl | rfl
  · rcases h with h | h
    · cases congrArg Prod.snd h
    · rcases cites_collectionPath.1 h with h | h
      · exact ⟨_, by simp, h⟩
      · exact ⟨_, by simp, h⟩
  · rcases h with h | h
    · cases congrArg Prod.snd h
    · rcases cites_documentPath.1 h with h | h
      · exact ⟨_, by simp, h⟩
      · exact ⟨_, by simp, h⟩

lemma cites_of_subset {ms : Json.Members} (h : Cites (.obj members) t)
    (hsub : ∀ m ∈ members, m ∈ ms) : Cites (.obj ms) t := by
  obtain ⟨m, hmem, h⟩ := cites_obj.1 h
  exact cites_obj.2 ⟨m, hsub m hmem, h⟩

lemma cites_append {ms : Json.Members} (h : Cites (.obj (members ++ ms)) t) :
    Cites (.obj members) t ∨ Cites (.obj ms) t := by
  obtain ⟨m, hmem, h⟩ := cites_obj.1 h
  rcases List.mem_append.1 hmem with hmem | hmem
  · exact .inl (cites_obj.2 ⟨m, hmem, h⟩)
  · exact .inr (cites_obj.2 ⟨m, hmem, h⟩)

lemma not_cites_scalarMembers {s : Scalar} {m : String × Json} (hm : m ∈ scalarMembers s) :
    ¬ ((m.1 = "$ref" ∧ m.2 = .str t) ∨ Cites m.2 t) := by
  cases s with
  | date =>
    simp only [scalarMembers, List.mem_cons, List.not_mem_nil, or_false] at hm
    rcases hm with rfl | rfl
    · simp
    · simp
  | _ =>
    obtain rfl := List.mem_singleton.1 hm
    simp

lemma not_cites_itemMembers (tag : Text) : ¬ Cites (Json.object (itemMembers tag)) t := by
  rw [cites_object]
  rintro ⟨m, hm, h⟩
  unfold itemMembers at hm
  split at hm
  · exact not_cites_scalarMembers hm h
  · obtain rfl := List.mem_singleton.1 hm
    simp at h

lemma cites_listOf {items : Json} {description : Text} :
    Cites (listOf items description) t ↔ Cites items t := by
  rw [listOf, cites_object]
  simp

lemma not_cites_listType (field : Text) (item target : Option Text) :
    ¬ Cites (listType field item target) t := by
  unfold listType
  split
  · rw [cites_listOf, cites_object]
    simp
  · simp only [cites_listOf]
    split
    · exact not_cites_nil
    · exact not_cites_nil
    · exact not_cites_itemMembers _

/-- A property is described by an object, never by a text. -/
lemma property_ne_str (f : Field) (u : Text) : property f ≠ .str u := by
  obtain ⟨name, isRequired, isOptional, kind, children⟩ := f
  rw [property.eq_def]
  cases kind with
  | list item target =>
    simp only
    split
    · nofun
    · unfold listType
      split <;> nofun
  | _ => nofun

mutual

/-- A property refers to the items of lists of objects at the field and below it. -/
lemma exists_of_cites_property : ∀ f, Cites (property f) t →
    ∃ g ∈ Field.nestedIn f, t = schemaRoot ++ g.itemTypeName
  | ⟨field, isRequired, isOptional, kind, children⟩, h => by
    have hchildren := exists_of_cites_properties children
    rw [property.eq_def] at h
    cases kind with
    | list item target =>
      simp only at h
      split at h
      · rename_i hstructured
        rw [cites_listOf, cites_reference] at h
        refine ⟨⟨field, isRequired, isOptional, .list item target, children⟩, ?_, h⟩
        rw [Field.nestedIn, if_pos hstructured]
        exact List.mem_append_right _ (List.mem_singleton_self _)
      · exact absurd h (not_cites_listType _ _ _)
    | record =>
      have hproperties : Cites (.obj (properties children)) t := by
        rw [cites_object] at h
        cases hempty : children.isEmpty with
        | true => simp [hempty] at h
        | false =>
          simp [hempty] at h
          exact cites_of_subset h fun m hm => Table.mem_of_mem_ofEntries hm
      obtain ⟨g, hg, hname⟩ := hchildren hproperties
      rw [Field.nestedIn]
      exact ⟨g, List.mem_append_left _ hg, hname⟩
    | scalar s =>
      obtain ⟨m, hm, h⟩ := cites_object.1 h
      rcases List.mem_append.1 hm with hm | hm
      · exact absurd h (not_cites_scalarMembers hm)
      · obtain rfl := List.mem_singleton.1 hm
        simp at h
    | enumeration values => simp [cites_object] at h
    | reference target => simp [cites_object] at h
    | unknown tag => simp [cites_object] at h
termination_by structural f => f

lemma exists_of_cites_properties : ∀ fs, Cites (.obj (properties fs)) t →
    ∃ g ∈ Field.nested fs, t = schemaRoot ++ g.itemTypeName
  | [], h => absurd h not_cites_nil
  | f :: fs, h => by
    have hf := exists_of_cites_property f
    have hfs := exists_of_cites_properties fs
    rw [properties] at h
    rw [Field.nested]
    rcases cites_append h with h | h
    · split at h
      · exact absurd h not_cites_nil
      · obtain ⟨m, hmem, h⟩ := cites_obj.1 h
        obtain rfl := List.mem_singleton.1 hmem
        obtain ⟨g, hg, hname⟩ := hf (h.resolve_left fun h =>
          property_ne_str f _ (congrArg Prod.snd h))
        exact ⟨g, List.mem_append_left _ hg, hname⟩
    · obtain ⟨g, hg, hname⟩ := hfs h
      exact ⟨g, List.mem_append_right _ hg, hname⟩
termination_by structural fs => fs

end

/-! ## Schemas of a module -/

lemma exists_of_cites_objectSchema {more : List (String × Json)}
    (hmore : ∀ m ∈ more, ¬ ((m.1 = "$ref" ∧ m.2 = .str t) ∨ Cites m.2 t))
    (h : Cites (objectSchema members more) t) : Cites (.obj members) t := by
  obtain ⟨m, hm, h⟩ := cites_object.1 h
  rcases List.mem_append.1 hm with hm | hm
  · simp only [List.mem_cons, List.not_mem_nil, or_false] at hm
    rcases hm with rfl | rfl
    · simp at h
    · simpa using h
  · exact absurd h (hmore m hm)

lemma exists_of_cites_propertyTable {more : List (String × Json)}
    (hmore : ∀ m ∈ more, ¬ ((m.1 = "$ref" ∧ m.2 = .str t) ∨ Cites m.2 t))
    (h : Cites (objectSchema (propertyTable fields) more) t) :
    ∃ g ∈ Field.nested fields, t = schemaRoot ++ g.itemTypeName :=
  exists_of_cites_properties fields (cites_of_subset (exists_of_cites_objectSchema hmore h)
    fun _ hm => Table.mem_of_mem_ofEntries hm)

lemma exists_of_cites_strictSchema (h : Cites (strictSchema fields) t) :
    ∃ g ∈ Field.nested fields, t = schemaRoot ++ g.itemTypeName :=
  exists_of_cites_propertyTable (by simp) h

lemma exists_of_cites_documentSchema (h : Cites (documentSchema fields) t) :
    ∃ g ∈ Field.nested fields, t = schemaRoot ++ g.itemTypeName := by
  have h := exists_of_cites_objectSchema (by simp) h
  obtain ⟨m, hm, h⟩ := cites_obj.1 h
  rcases Table.mem_overlay hm with hm | hm
  · rcases Table.mem_overlay hm with hm | hm
    · obtain rfl := List.mem_singleton.1 hm
      simp [Json.member, cites_object] at h
    · exact exists_of_cites_properties fields (cites_obj.2 ⟨m, hm, h⟩)
  · simp only [List.mem_cons, List.not_mem_nil, or_false] at hm
    rcases hm with rfl | rfl
    · simp [Json.member, timestamp, cites_object] at h
    · simp [Json.member, timestamp, cites_object] at h

/-- The schemas of a module refer to its lists of objects only. -/
lemma exists_of_cites_schema (hfind : Json.Members.find? key (schemas n fields) = some schema)
    (h : Cites schema t) : ∃ g ∈ Field.nested fields, t = schemaRoot ++ g.itemTypeName := by
  have hmem := Table.mem_of_mem_ofEntries (Table.mem_of_find? hfind)
  rcases List.mem_append.1 hmem with hmem | hmem
  · obtain ⟨f, hf, heq⟩ := List.mem_map.1 hmem
    obtain ⟨-, rfl⟩ := Prod.mk.inj heq
    obtain ⟨g, hg, hname⟩ := exists_of_cites_strictSchema h
    exact ⟨g, Field.mem_nested_trans hg fields hf, hname⟩
  · simp only [List.mem_cons, List.not_mem_nil, or_false, Prod.mk.injEq] at hmem
    rcases hmem with ⟨-, rfl⟩ | ⟨-, rfl⟩ | ⟨-, rfl⟩
    · exact exists_of_cites_documentSchema h
    · exact exists_of_cites_strictSchema h
    · exact exists_of_cites_propertyTable (by simp) h

/-- The names of the schemas of a module. -/
lemma exists_schema (h : name ∈ [n.className, n.className ++ "Create", n.className ++ "Update"] ∨
    ∃ g ∈ Field.nested fields, name = g.itemTypeName) :
    ∃ schema, Json.Members.find? name (schemas n fields) = some schema := by
  refine Table.exists_find?_ofEntries ?_
  rw [Table.keys, List.map_append, List.mem_append, List.map_map]
  rcases h with h | ⟨g, hg, rfl⟩
  · exact .inr h
  · exact .inl (List.mem_map.2 ⟨g, hg, rfl⟩)

/-- Every reference in the paths of a module leads to one of its schemas. -/
lemma exists_schema_of_cites_paths (fields : List Field) (h : Cites (.obj (paths n)) t) :
    ∃ name schema, t = schemaRoot ++ name ∧
      Json.Members.find? name (schemas n fields) = some schema := by
  obtain ⟨name, hname, rfl⟩ := exists_of_cites_paths h
  obtain ⟨schema, hschema⟩ : ∃ schema, Json.Members.find? name (schemas n fields) = some schema :=
    exists_schema (.inl hname)
  exact ⟨name, schema, rfl, hschema⟩

/-- Every reference in a schema of a module leads to one of its schemas. -/
lemma exists_schema_of_cites_schema (hfind : Json.Members.find? key (schemas n fields) = some schema)
    (h : Cites schema t) : ∃ name schema, t = schemaRoot ++ name ∧
      Json.Members.find? name (schemas n fields) = some schema := by
  obtain ⟨g, hg, rfl⟩ := exists_of_cites_schema hfind h
  obtain ⟨schema, hschema⟩ := exists_schema (n := n) (.inr ⟨g, hg, rfl⟩)
  exact ⟨g.itemTypeName, schema, rfl, hschema⟩

/-- **The entries of a module are closed**: whatever its paths lead to is one of its schemas. -/
theorem Reaches.exists_schema (h : Reaches (schemas n fields) (.obj (paths n)) name) :
    ∃ schema, Json.Members.find? name (schemas n fields) = some schema := by
  have hcited : ∃ found schema, schemaRoot ++ name = schemaRoot ++ found ∧
      Json.Members.find? found (schemas n fields) = some schema := by
    cases h with
    | direct h => exact exists_schema_of_cites_paths fields (refers_iff.1 h)
    | through _ hfind h => exact exists_schema_of_cites_schema hfind (refers_iff.1 h)
  obtain ⟨found, schema, heq, hschema⟩ := hcited
  obtain rfl := List.append_cancel_left heq
  exact ⟨schema, hschema⟩

end OpenApi

end Scaffold
