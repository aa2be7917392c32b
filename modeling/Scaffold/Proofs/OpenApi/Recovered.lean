import Scaffold.OpenApi.Schemas
import Scaffold.Proofs.Recovery.Normal
import Scaffold.Proofs.Table

/-!
# The schemas of fields that were read back

Fields that are read back from the files of a module are what is left of the fields that it was
generated from.  The API document shows two things that the files do not say: an enumeration without
values has the type of a string and is still listed with its empty values, and whether a nested field
is required is not written down at all, so it is taken for required unless it is optional.  The schemas
are the same if and only if neither makes a difference (`schemas_normal_iff`).
-/

namespace Scaffold

namespace OpenApi

variable {fields : List Field} {f : Field} {kind : Kind} {n : Names}

/-! ## Properties -/

lemma itemMembers_normal (tag : Text) :
    itemMembers ((Scalar.ofTag? tag).getD .string).tag = itemMembers tag := by
  unfold itemMembers
  cases Scalar.ofTag? tag <;> simp [scalarMembers]

lemma listType_of_tag (name : Text) {tag : Text} (target : Option Text) (hne : tag ≠ [])
    (hid : tag ≠ objectIdTag) : listType name (some tag) target =
      listOf (.object (itemMembers tag)) ("Array of " ++ name ++ " items") := by
  obtain ⟨c, rest, rfl⟩ := List.exists_cons_of_ne_nil hne
  have hreferences : holdsReferences (some (c :: rest)) target = false := by simp [holdsReferences, hid]
  unfold listType
  rw [hreferences]
  rfl

/-- What is left of a list is described like the list. -/
lemma listType_normal (name : Text) {item target : Option Text} (hitem : item ≠ some [])
    (htarget : target ≠ some []) : ∃ item' target', (Kind.list item target).normal = .list item' target' ∧
      listType name item' target' = listType name item target := by
  cases item with
  | some tag =>
    by_cases hid : tag = objectIdTag
    · exact ⟨some objectIdTag, target, if_pos hid, by rw [hid]⟩
    · have hscalar : ((Scalar.ofTag? tag).getD .string).tag ≠ [] ∧
          ((Scalar.ofTag? tag).getD .string).tag ≠ objectIdTag := by
        cases (Scalar.ofTag? tag).getD .string <;> decide
      refine ⟨some ((Scalar.ofTag? tag).getD .string).tag, none, if_neg hid, ?_⟩
      rw [listType_of_tag name none hscalar.1 hscalar.2, itemMembers_normal,
        listType_of_tag name target (fun h => hitem (congrArg some h)) hid]
  | none =>
    by_cases hany : (target.isNone || Field.targetsObject target) = true
    · refine ⟨none, none, if_pos hany, ?_⟩
      have hreferences : holdsReferences none target = false := by
        cases target with
        | none => rfl
        | some t =>
          have hobject : Field.targetsObject (some t) = true := hany
          simp [holdsReferences, hobject]
      rw [listType, listType, hreferences]
      rfl
    · refine ⟨some objectIdTag, target, if_neg hany, ?_⟩
      rw [Bool.not_eq_true, Bool.or_eq_false_iff] at hany
      have hreferences : holdsReferences none target = true := by
        cases target with
        | none => cases hany.1
        | some t => simp [holdsReferences, htarget, hany.2]
      have hid : holdsReferences (some objectIdTag) target = true := by simp [holdsReferences]
      unfold listType
      rw [hreferences, hid]
      rfl

/-- **What is left of a field** without nested fields is shown like the field, unless it is hollow. -/
theorem property_normal_iff (name : Text) (r o r' o' : Bool) (hkind : kind.IsProper) :
    property ⟨name, r', o', kind.normal, []⟩ = property ⟨name, r, o, kind, []⟩ ↔ kind.isHollow = false := by
  have hhollow : ∀ values : Option (List Text), values.getD [] = [] →
      property ⟨name, r', o', .scalar .string, []⟩ ≠ property ⟨name, r, o, .enumeration values, []⟩ := by
    intro values _ h
    have hlength := congrArg (fun v : Json => (v.get? "enum").isSome) h
    exact Bool.false_ne_true hlength
  cases hkind with
  | leaf hleaf =>
    cases hleaf with
    | scalar s => exact iff_of_true rfl rfl
    | unknown t => exact iff_of_true rfl rfl
    | enumeration values =>
      match values with
      | none => exact iff_of_false (hhollow none rfl) nofun
      | some [] => exact iff_of_false (hhollow (some []) rfl) nofun
      | some (v :: vs) => exact iff_of_true rfl rfl
    | reference => exact iff_of_true rfl rfl
    | list => exact iff_of_true rfl rfl
    | record => exact iff_of_true rfl rfl
  | reference t ht => exact iff_of_true rfl rfl
  | list item target hitem htarget =>
    obtain ⟨item', target', hnormal, hsame⟩ := listType_normal name hitem htarget
    have hproperty : ∀ (r o : Bool) (item target : Option Text),
        property ⟨name, r, o, .list item target, []⟩ = listType name item target := by
      intro r o item target
      rw [property.eq_def]
      simp only [Field.structured_nil, Bool.false_eq_true, if_false]
    refine iff_of_true ?_ rfl
    rw [hnormal, hproperty, hproperty, hsame]

/-- A field that is read back is shown like the field, unless it is hollow. -/
lemma property_normal (hf : f.IsRead) : property f.normal = property f ↔ f.kind.isHollow = false := by
  obtain ⟨name, r, o, kind, children⟩ := f
  cases hs : Field.structured kind children with
  | true =>
    have hkind : kind = .list none (some objectTag) := hf.objects (hf.isStructuredList_iff.1 hs)
    have hlist : ∀ children : List Field, Field.structured kind children = true →
        property ⟨name, r, o, kind, children⟩ =
          listOf (reference (Field.itemTypeNameOf name)) ("Array of " ++ name ++ " objects") := by
      intro children h
      rw [property.eq_def, hkind]
      rw [hkind] at h
      simp only [h, if_true]
    have hs' : Field.isStructuredList ⟨name, r, o, kind, children⟩ = true := hs
    have hnormal := (Field.isStructuredList_normal ⟨name, r, o, kind, children⟩).trans hs
    rw [Field.normal_of_structured hs', ← hkind] at hnormal ⊢
    refine iff_of_true ((hlist _ hnormal).trans (hlist _ hs).symm) ?_
    rw [hkind]
    rfl
  | false =>
    obtain ⟨hchildren, hnormal⟩ := hf.normal_of_not_structured hs
    obtain rfl : children = [] := hchildren
    rw [hnormal]
    exact property_normal_iff name r o r o hf.kind

lemma property_normalNested (hf : f.IsReadNested) :
    property f.normalNested = property f ↔ f.kind.isHollow = false := by
  obtain ⟨name, r, o, kind, children⟩ := f
  obtain rfl : children = [] := hf.children
  exact property_normal_iff name r o _ o (.leaf hf.kind)

/-! ## Tables of properties -/

lemma properties_eq_map (h : ∀ f ∈ fields, Field.isIdentity f.name = false) :
    properties fields = fields.map fun f => (f.name, property f) := by
  induction fields with
  | nil => rfl
  | cons f fields ih =>
    obtain ⟨hf, hrest⟩ := List.forall_mem_cons.1 h
    rw [properties, hf, ih hrest]
    rfl

section Named

variable {g : Field → Field} (hname : ∀ f, (g f).name = f.name)
  (hvisible : ∀ f ∈ fields, Field.isIdentity f.name = false) (hdistinct : (fields.map Field.name).Nodup)

include hname hvisible

lemma visible_map : ∀ f ∈ fields.map g, Field.isIdentity f.name = false := by
  intro f hf
  obtain ⟨f', hf', rfl⟩ := List.mem_map.1 hf
  rw [hname]
  exact hvisible f' hf'

include hdistinct

/-- Tables of properties are the same if all properties are. -/
lemma propertyTable_map_iff :
    propertyTable (fields.map g) = propertyTable fields ↔ ∀ f ∈ fields, property (g f) = property f := by
  have hprops := properties_eq_map hvisible
  have hprops' := properties_eq_map (visible_map hname hvisible)
  rw [List.map_map] at hprops'
  constructor
  · intro h f hf
    have hkeys : (Table.keys (fields.map fun f => (f.name, property f))).Nodup := by
      rw [Table.keys, List.map_map]
      exact hdistinct
    have hkeys' : (Table.keys (fields.map ((fun f => (f.name, property f)) ∘ g))).Nodup := by
      rw [Table.keys, List.map_map]
      simpa only [Function.comp_def, hname] using hdistinct
    have hfind := Table.find?_ofEntries_of_mem hkeys (List.mem_map_of_mem hf)
    have hfind' := Table.find?_ofEntries_of_mem hkeys' (List.mem_map_of_mem hf)
    simp only [hname] at hfind'
    rw [propertyTable, propertyTable, hprops, hprops'] at h
    rw [h, hfind] at hfind'
    exact (Option.some.inj hfind').symm
  · intro h
    rw [propertyTable, propertyTable, hprops, hprops']
    refine congrArg Table.ofEntries (List.map_congr_left fun f hf => ?_)
    rw [Function.comp_apply, hname, h f hf]

/-- The required names are the same if all fields agree on being required. -/
lemma requiredNames_map_iff :
    requiredNames (fields.map g) = requiredNames fields ↔ ∀ f ∈ fields, (g f).isRequired = f.isRequired := by
  have hall : requiredNames fields = (fields.filter (·.isRequired)).map (·.name) := by
    rw [requiredNames, Field.visible_eq_self hvisible]
  have hall' : requiredNames (fields.map g) = (fields.filter fun f => (g f).isRequired).map (·.name) := by
    rw [requiredNames, Field.visible_eq_self (visible_map hname hvisible), List.filter_map, List.map_map]
    simp only [Function.comp_def, hname]
  rw [hall, hall']
  constructor
  · intro h f hf
    have hmem : ∀ p : Field → Bool, f.name ∈ (fields.filter p).map (·.name) ↔ p f = true := by
      intro p
      constructor
      · intro hp
        obtain ⟨f', hf', hsame⟩ := List.mem_map.1 hp
        obtain ⟨hf', hp'⟩ := List.mem_filter.1 hf'
        rwa [List.inj_on_of_nodup_map hdistinct hf' hf hsame] at hp'
      · exact fun hp => List.mem_map.2 ⟨f, List.mem_filter.2 ⟨hf, hp⟩, rfl⟩
    rw [Bool.eq_iff_iff, ← hmem, ← hmem (fun f => (g f).isRequired), h]
  · intro h
    rw [List.filter_congr h]

lemma strictSchema_map_iff : strictSchema (fields.map g) = strictSchema fields ↔
    ∀ f ∈ fields, property (g f) = property f ∧ (g f).isRequired = f.isRequired := by
  have hparts : strictSchema (fields.map g) = strictSchema fields ↔
      propertyTable (fields.map g) = propertyTable fields ∧
        requiredNames (fields.map g) = requiredNames fields := by
    simp only [strictSchema, objectSchema, Json.object, Json.strings, List.cons_append, List.nil_append,
      List.map_cons, List.map_nil, Json.obj.injEq, List.cons.injEq, Prod.mk.injEq, true_and, and_true,
      Json.arr.injEq]
    rw [(List.map_injective_iff.2 fun _ _ h => Json.str.inj h).eq_iff]
  rw [hparts, propertyTable_map_iff hname hvisible hdistinct, requiredNames_map_iff hname hvisible hdistinct,
    ← forall₂_and]

end Named

/-! ## Schemas -/

/-- What the schemas show of a field can be read back: no enumeration is hollow, and a nested field is
required unless it is optional. -/
structure IsShownInFiles (f : Field) : Prop where
  values : ∀ g ∈ f :: f.children, g.kind.isHollow = false
  required : ∀ c ∈ f.children, c.isRequired = !c.isOptional

lemma itemTypeName_normal (f : Field) : f.normal.itemTypeName = f.itemTypeName := by
  rw [Field.itemTypeName, Field.name_normal, Field.itemTypeName]

/-- The entries that the schemas of a module are made from. -/
def schemaEntriesOf (n : Names) (fields : List Field) : List (Text × Json) :=
  ((Field.nested fields).map fun f => (f.itemTypeName, strictSchema f.children)) ++
    [(n.className, documentSchema fields), (n.className ++ "Create", strictSchema fields),
      (n.className ++ "Update", lenientSchema fields)]

/-- A module whose schemas have different names. -/
structure HasOwnSchemas (n : Names) (fields : List Field) : Prop where
  items : ((Field.nested fields).map Field.itemTypeName).Nodup
  className : ∀ f ∈ Field.nested fields, f.itemTypeName ≠ n.className

lemma nodup_keys_schemaEntriesOf (h : HasOwnSchemas n fields) :
    (Table.keys (schemaEntriesOf n fields)).Nodup := by
  have hlast : ∀ f : Field, f.itemTypeName.getLast? = some 'm' := fun f => by
    rw [Field.itemTypeName, Field.itemTypeNameOf, List.getLast?_append_of_ne_nil _ (by decide)]
    rfl
  have hother : ∀ f : Field, ∀ suffix : Text, suffix.getLast? = some 'e' →
      f.itemTypeName ≠ n.className ++ suffix := by
    intro f suffix hsuffix heq
    have hne : suffix ≠ [] := by
      rintro rfl
      cases hsuffix
    have h := hlast f
    rw [heq, List.getLast?_append_of_ne_nil _ hne, hsuffix] at h
    exact absurd h (by decide)
  rw [Table.keys, schemaEntriesOf, List.map_append, List.map_map]
  refine List.Nodup.append h.items ?own ?apart
  case own =>
    simp
  case apart =>
    rintro name hitem hown
    obtain ⟨f, hf, rfl⟩ := List.mem_map.1 hitem
    simp only [List.map_cons, List.map_nil, List.mem_cons, List.not_mem_nil, or_false] at hown
    rcases hown with hown | hown | hown
    · exact h.className f hf hown
    · exact hother f _ rfl hown
    · exact hother f _ rfl hown

/-- Entries with different names are the schemas as they are. -/
lemma schemas_eq (h : HasOwnSchemas n fields) : schemas n fields = schemaEntriesOf n fields :=
  Table.ofEntries_of_nodup (nodup_keys_schemaEntriesOf h)

section Recovered

variable (hread : ∀ f ∈ fields, f.IsRead)

include hread

lemma hasOwnSchemas_normal (h : HasOwnSchemas n fields) : HasOwnSchemas n (fields.map Field.normal) := by
  constructor
  · rw [Field.nested_map_normal hread, List.map_map]
    simpa only [Function.comp_def, itemTypeName_normal] using h.items
  · intro f hf
    rw [Field.nested_map_normal hread] at hf
    obtain ⟨g, hg, rfl⟩ := List.mem_map.1 hf
    rw [itemTypeName_normal]
    exact h.className g hg

lemma keys_schemas_normal (h : HasOwnSchemas n fields) :
    Table.keys (schemas n (fields.map Field.normal)) = Table.keys (schemas n fields) := by
  rw [schemas_eq (hasOwnSchemas_normal hread h), schemas_eq h]
  simp only [Table.keys, schemaEntriesOf, Field.nested_map_normal hread, List.map_append, List.map_map,
    Function.comp_def, itemTypeName_normal]
  rfl

/-- The schema of the items of a list is kept if what it shows of the items is. -/
lemma strictSchema_children_iff (hchildren : (f.children.map Field.name).Nodup)
    (hf : f ∈ Field.nested fields) : strictSchema f.normal.children = strictSchema f.children ↔
      ∀ c ∈ f.children, c.kind.isHollow = false ∧ c.isRequired = !c.isOptional := by
  rw [Field.nested_eq_filter hread] at hf
  obtain ⟨hmem, hs⟩ := List.mem_filter.1 hf
  have hnested := (hread f hmem).children
  rw [Field.normal_of_structured hs,
    strictSchema_map_iff Field.name_normalNested (fun c hc => (hnested c hc).visible) hchildren]
  refine forall₂_congr fun c hc => and_congr (property_normalNested (hnested c hc)) ?_
  exact eq_comm

variable (hdistinct : (fields.map Field.name).Nodup)

include hdistinct

lemma strictSchema_normal_iff : strictSchema (fields.map Field.normal) = strictSchema fields ↔
    ∀ f ∈ fields, f.kind.isHollow = false := by
  rw [strictSchema_map_iff Field.name_normal (fun f hf => (hread f hf).visible) hdistinct]
  refine forall₂_congr fun f hf => ?_
  rw [property_normal (hread f hf), Field.isRequired_normal]
  exact and_iff_left rfl

/-- The schemas of a module follow the schema of the bodies of its requests. -/
lemma ownSchemas_normal (h : ∀ f ∈ fields, f.kind.isHollow = false) :
    documentSchema (fields.map Field.normal) = documentSchema fields ∧
      lenientSchema (fields.map Field.normal) = lenientSchema fields := by
  have hvisible : ∀ f ∈ fields, Field.isIdentity f.name = false := fun f hf => (hread f hf).visible
  have hproperties : properties (fields.map Field.normal) = properties fields := by
    rw [properties_eq_map (visible_map Field.name_normal hvisible), properties_eq_map hvisible, List.map_map]
    refine List.map_congr_left fun f hf => ?_
    rw [Function.comp_apply, Field.name_normal, (property_normal (hread f hf)).2 (h f hf)]
  have hrequired : requiredNames (fields.map Field.normal) = requiredNames fields :=
    (requiredNames_map_iff Field.name_normal hvisible hdistinct).2 fun f _ => Field.isRequired_normal f
  simp only [documentSchema, lenientSchema, propertyTable, hproperties, hrequired, and_self]

/-- **The schemas of what is left of fields** are those of the fields exactly if what they show is said
by the files of the module. -/
theorem schemas_normal_iff (hchildren : ∀ f ∈ fields, (f.children.map Field.name).Nodup)
    (hown : HasOwnSchemas n fields) :
    schemas n (fields.map Field.normal) = schemas n fields ↔ ∀ f ∈ fields, IsShownInFiles f := by
  -- the entries have the same names in the same order, so they are compared one by one
  have hsplit : schemas n (fields.map Field.normal) = schemas n fields ↔
      (∀ f ∈ Field.nested fields, strictSchema f.normal.children = strictSchema f.children) ∧
        documentSchema (fields.map Field.normal) = documentSchema fields ∧
        strictSchema (fields.map Field.normal) = strictSchema fields ∧
        lenientSchema (fields.map Field.normal) = lenientSchema fields := by
    have hentries : ∀ f : Field, (f.normal.itemTypeName, strictSchema f.normal.children) =
        (f.itemTypeName, strictSchema f.children) ↔
          strictSchema f.normal.children = strictSchema f.children := fun f => by
      rw [itemTypeName_normal, Prod.mk.injEq]
      exact and_iff_right rfl
    rw [schemas_eq (hasOwnSchemas_normal hread hown), schemas_eq hown, schemaEntriesOf, schemaEntriesOf,
      Field.nested_map_normal hread, List.map_map]
    constructor
    · intro h
      obtain ⟨hitems, hrest⟩ := List.append_inj h (by simp)
      refine ⟨fun f hf => (hentries f).1 (List.map_inj_left.1 hitems f hf), ?_⟩
      simpa using hrest
    · rintro ⟨hitems, hdocument, hstrict, hlenient⟩
      rw [hdocument, hstrict, hlenient]
      exact congrArg (· ++ _) (List.map_congr_left fun f hf => (hentries f).2 (hitems f hf))
  rw [hsplit, strictSchema_normal_iff hread hdistinct]
  have hmem : ∀ f, f ∈ Field.nested fields ↔ f ∈ fields ∧ f.children ≠ [] := fun f => by
    rw [Field.nested_eq_filter hread, List.mem_filter]
    exact and_congr_right fun hf => (hread f hf).isStructuredList_iff
  constructor
  · rintro ⟨hitems, -, hvalues, -⟩ f hf
    have hall : ∀ c ∈ f.children, c.kind.isHollow = false ∧ c.isRequired = !c.isOptional := by
      intro c hc
      have hf' := (hmem f).2 ⟨hf, List.ne_nil_of_mem hc⟩
      exact (strictSchema_children_iff hread (hchildren f hf) hf').1 (hitems f hf') c hc
    exact ⟨List.forall_mem_cons.2 ⟨hvalues f hf, fun c hc => (hall c hc).1⟩, fun c hc => (hall c hc).2⟩
  · intro h
    have hvalues : ∀ f ∈ fields, f.kind.isHollow = false := fun f hf => (h f hf).values f (by simp)
    obtain ⟨hdocument, hlenient⟩ := ownSchemas_normal hread hdistinct hvalues
    refine ⟨fun f hf => ?_, hdocument, hvalues, hlenient⟩
    have hf' := ((hmem f).1 hf).1
    exact (strictSchema_children_iff hread (hchildren f hf') hf).2 fun c hc =>
      ⟨(h f hf').values c (List.mem_cons_of_mem _ hc), (h f hf').required c hc⟩

end Recovered

end OpenApi

end Scaffold
