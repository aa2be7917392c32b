import Mathlib.Data.List.Forall2
import Mathlib.Tactic.Common
import Scaffold.Proofs.Recovery.Schema
import Scaffold.Proofs.Recovery.Scope

/-!
# Whether a generated module keeps its outline

The outline of a field is its name and, for a list of objects, the names of the items.
-/

namespace Scaffold.Recovery

open Interface (propertyOf)

variable {E : List (Text × List Text)} {N : List (Text × List Field)} {entry : Option SchemaEntry}
  {b : Blueprint} {scope : Text}

/-- What is read for a field keeps the outline of the field. -/
structure KeepsOutline (f g : Field) : Prop where
  name : g.name = f.name
  items : f.isStructuredList = true →
    g.isStructuredList = true ∧ g.children.map Field.name = f.children.map Field.name

/-! ## What is read as a list of objects -/

/-- What has to hold for a type to be read as a list of objects. -/
structure IsReadAsItems (N : List (Text × List Field)) (entry : Option SchemaEntry) (type : Text)
    (children : List Field) : Prop where
  values : ∀ e, entry = some e → e.values = []
  reference : mentionsObjectId type = false
  list : Text.endsWith "[]" type = true
  items : Table.find? (baseOf type) N = some children

lemma isReadAsItems_of_namedKind? {type : Text} {kind : Kind} {children : List Field}
    (h : namedKind? ⟨E, N⟩ entry type = some (kind, children))
    (hs : Field.structured kind children = true) : IsReadAsItems N entry type children := by
  have hne : children ≠ [] := by
    rintro rfl
    rw [Field.structured_nil] at hs
    cases hs
  have hpair : ∀ {k : Kind}, some (k, ([] : List Field)) = some (kind, children) → False := by
    intro k heq
    exact hne (Prod.mk.inj (Option.some.inj heq)).2.symm
  -- only a list whose items are declared comes with children and is structured
  unfold namedKind? at h
  split at h
  · exact (hpair h).elim
  split at h
  · exact (hpair h).elim
  rename_i hvalues
  split at h
  · exact (hpair h).elim
  split at h
  · split at h
    · exact (hpair h).elim
    · exact (hpair h).elim
  rename_i hid
  split at h
  · rename_i hlist
    refine ⟨?_, Bool.eq_false_iff.2 hid, hlist, ?_⟩
    · rintro e rfl
      obtain ⟨values, target, isRequired⟩ := e
      cases values with
      | nil => rfl
      | cons v vs => exact absurd rfl (hvalues v vs target isRequired)
    · unfold listKind at h
      split at h
      · rename_i found hfind
        rw [← (Prod.mk.inj (Option.some.inj h)).2]
        exact hfind
      · split at h
        · exact (hpair h).elim
        · exact (hpair h).elim
  · obtain ⟨found, -, heq⟩ := Option.map_eq_some_iff.1 h
    rw [← (Prod.mk.inj heq).1] at hs
    cases hs

/-- **Only items that are declared** make a list of objects. -/
lemma isReadAsItems_of_fieldOf {p : Property} (hs : (fieldOf ⟨E, N⟩ entry p).isStructuredList = true) :
    IsReadAsItems N entry (Text.trim p.type) (fieldOf ⟨E, N⟩ entry p).children := by
  have hplain : ∀ k : Kind, Field.structured k [] = true → False := by
    intro k h
    rw [Field.structured_nil] at h
    cases h
  unfold fieldOf fieldWithin Field.isStructuredList at hs
  unfold fieldOf fieldWithin
  cases hnamed : namedKind? ⟨E, N⟩ entry (Text.trim p.type) with
  | some found =>
    obtain ⟨kind, children⟩ := found
    simp only [hnamed] at hs ⊢
    exact isReadAsItems_of_namedKind? hnamed hs
  | none =>
    simp only [hnamed] at hs
    exfalso
    cases hlength : p.type.length with
    | zero =>
      simp only [hlength] at hs
      exact hplain _ hs
    | succ bound =>
      simp only [hlength] at hs
      split at hs
      · cases hs
      · exact hplain _ hs

/-- Among nested fields, only those without a type of items are lists. -/
lemma type_eq_of_endsWith {f : Field} (hf : f.IsReadNested)
    (h : Text.endsWith "[]" (TypeScript.type scope f) = true) :
    TypeScript.type scope f = "any[]".toList := by
  obtain ⟨name, isRequired, isOptional, kind, children⟩ := f
  obtain rfl : children = [] := hf.children
  have hkind : kind.IsLeaf := hf.kind
  clear hf
  cases hkind with
  | scalar s =>
    rw [TypeScript.type] at h
    cases s <;> exact absurd h (by decide)
  | unknown t =>
    rw [TypeScript.type] at h
    exact absurd h (by decide)
  | enumeration values =>
    rw [TypeScript.type] at h
    split at h
    · exact absurd h (by decide)
    · obtain ⟨u, hu⟩ := List.isSuffixOf_iff_suffix.1 h
      have hlast := congrArg List.getLast? hu
      rw [Field.enumTypeName, List.getLast?_append_of_ne_nil _ (by decide),
        List.getLast?_append_of_ne_nil _ (by decide)] at hlast
      exact absurd hlast (by decide)
  | reference =>
    rw [TypeScript.type] at h
    exact absurd h (by decide)
  | list =>
    rw [TypeScript.type]
    rfl
  | record =>
    rw [TypeScript.type] at h
    change Text.endsWith "[]" "Record<string, any>" = true at h
    exact absurd h (by decide)

/-- A nested field is not read as a list of objects: no items are declared as `any`. -/
lemma not_structured_of_nested (hany : Table.find? "any".toList N = none) {f : Field}
    (hf : f.IsReadNested) (hname : TypeScript.IsIdentifierText f.name)
    (hscope : ∀ c ∈ scope, Text.isNameChar c = true) :
    (fieldOf ⟨E, N⟩ entry (propertyOf scope f)).isStructuredList = false := by
  have hbase : baseOf "any[]".toList = "any".toList := by decide +kernel
  have htrim : Text.trim (propertyOf scope f).type = TypeScript.type scope f :=
    (TypeScript.typeShape_of_isReadNested hf hscope hname).isType.isTypeLine.trim_eq
  rw [Bool.eq_false_iff]
  intro hs
  have hread := isReadAsItems_of_fieldOf hs
  rw [htrim] at hread
  have hitems := hread.items
  rw [type_eq_of_endsWith hf hread.list, hbase, hany] at hitems
  cases hitems

/-! ## What is read from any files -/

lemma isWord_of_mem_properties {body : Text} {p : Property} (hp : p ∈ properties body) :
    ∀ c ∈ p.name, Text.isWord c = true := by
  obtain ⟨m, -, hm⟩ := List.mem_filterMap.1 hp
  exact isWord_of_property? hm

lemma keys_nestedInterfaces {main : Text} {is : List (Text × Text)} {key : Text}
    (hk : key ∈ Table.keys (nestedInterfaces E main is)) : key ∈ is.map Prod.fst := by
  obtain ⟨e, he, rfl⟩ := List.mem_map.1 (Table.mem_keys_of_mem_keys_ofEntries hk)
  obtain ⟨⟨name, body⟩, hmem, hread⟩ := List.mem_filterMap.1 he
  have hname : e.1 = name := by
    simp only at hread
    split at hread
    · split at hread
      · cases hread
      · rw [← Option.some.inj hread]
    · cases hread
  exact List.mem_map.2 ⟨_, hmem, hname.symm⟩

lemma isWord_of_find?_nestedInterfaces {main key : Text} {is : List (Text × Text)}
    {children : List Field} (h : Table.find? key (nestedInterfaces E main is) = some children) :
    ∀ f ∈ children, ∀ c ∈ f.name, Text.isWord c = true := by
  rw [nestedInterfaces, Table.find?_ofEntries] at h
  have hmem := List.mem_reverse.1 (Table.mem_of_find? h)
  obtain ⟨⟨name, body⟩, -, hread⟩ := List.mem_filterMap.1 hmem
  have hchildren : children = ((properties body).filter fun p => p.name ≠ "_id".toList).map
      (fieldOf ⟨E, []⟩ none) := by
    simp only at hread
    split at hread
    · split at hread
      · cases hread
      · rename_i heq
        rw [heq]
        exact (Prod.mk.inj (Option.some.inj hread)).2.symm
    · cases hread
  intro f hf
  rw [hchildren] at hf
  obtain ⟨p, hp, rfl⟩ := List.mem_map.1 hf
  rw [name_fieldOf]
  exact isWord_of_mem_properties (List.mem_of_mem_filter hp)

lemma mem_of_mainInterface? {is : List (Text × Text)} {found : Text × Text}
    (h : mainInterface? is = some found) : found ∈ is := by
  unfold mainInterface? at h
  rcases (Option.orElse_eq_some _ _ _).1 h with h | ⟨-, h⟩
  · exact List.mem_of_find?_eq_some h
  · exact List.mem_of_find?_eq_some h

/-- **Names that are read are words**, those of the items included. -/
lemma isWord_of_mem_fields {interface model : Text} {g : Field} (hg : g ∈ fields interface model) :
    (∀ c ∈ g.name, Text.isWord c = true) ∧
      (g.isStructuredList = true → ∀ k ∈ g.children, ∀ c ∈ k.name, Text.isWord c = true) := by
  unfold fields at hg
  simp only at hg
  split at hg
  · cases hg
  · obtain ⟨p, hp, rfl⟩ := List.mem_map.1 hg
    rw [name_fieldOf]
    refine ⟨isWord_of_mem_properties (List.mem_of_mem_filter hp), fun hs => ?_⟩
    exact isWord_of_find?_nestedInterfaces (isReadAsItems_of_fieldOf hs).items

/-! ## The items of a list in place of the document -/

lemma mem_nested_iff (h : b.IsWritable) {f : Field} :
    f ∈ Field.nested b.fields ↔ f ∈ b.fields ∧ f.isStructuredList = true := by
  rw [Field.nested_eq_filter h.read, List.mem_filter]

/-- Every field has one that is read in its place. -/
lemma exists_kept {fs gs : List Field} (hk : List.Forall₂ KeepsOutline fs gs) {f : Field} (hf : f ∈ fs) :
    ∃ g ∈ gs, KeepsOutline f g := by
  induction hk with
  | nil => cases hf
  | cons hfg _ ih =>
    rcases List.mem_cons.1 hf with rfl | hf
    · exact ⟨_, List.mem_cons_self .., hfg⟩
    · obtain ⟨g, hg, hkeep⟩ := ih hf
      exact ⟨g, List.mem_cons_of_mem _ hg, hkeep⟩

/-- No interface is named like a list of anything. -/
lemma any_not_mem_keys (h : b.IsWritable) {main : Text} :
    Table.find? "any".toList (nestedInterfaces E main
      (interfaces (blocks (Text.unifyNewlines (Interface.file b))))) = none := by
  apply Table.find?_eq_none_of_not_mem
  intro hk
  have hmem := keys_nestedInterfaces hk
  rw [interfaces_file h, List.map_map] at hmem
  obtain ⟨d, hd, hname⟩ := List.mem_map.1 hmem
  have hd := List.mem_of_mem_filter hd
  change d.name = "any".toList at hname
  simp only [interfaceDeclarations, List.mem_append, List.mem_map, List.mem_singleton] at hd
  rcases hd with (⟨f, -, rfl⟩ | hd) | rfl
  · have hlast := congrArg List.getLast? hname
    change (Field.itemTypeNameOf f.name).getLast? = _ at hlast
    rw [Field.itemTypeNameOf, List.getLast?_append_of_ne_nil _ (by decide)] at hlast
    exact absurd hlast (by decide)
  · rw [(Interface.body_filterDeclarations hd).2.1] at hname
    have hhead := congrArg List.head? hname
    change some 'I' = some 'a' at hhead
    exact absurd hhead (by decide)
  · have hhead := congrArg List.head? hname
    change some 'I' = some 'a' at hhead
    exact absurd hhead (by decide)

/-- **The items of a list** do not keep the outline, for the list they come from is a list of objects
and none of them is read as one. -/
lemma not_keepsOutline_of_item (h : b.IsWritable) {f : Field} (hf : f ∈ Field.nested b.fields)
    {main : Text} (hmain : mainInterface? (interfaces (blocks (Text.unifyNewlines (Interface.file b)))) =
      some (main, (Interface.itemDeclaration f).body)) (model : Text) :
    ¬ List.Forall₂ KeepsOutline b.fields (fields (Text.unifyNewlines (Interface.file b)) model) := by
  intro hk
  obtain ⟨hf, hs⟩ := (mem_nested_iff h).1 hf
  obtain ⟨g, hg, hkeep⟩ := exists_kept hk hf
  have hlist := (hkeep.items hs).1
  unfold fields at hg
  simp only [hmain] at hg
  obtain ⟨p, hp, rfl⟩ := List.mem_map.1 hg
  have hp := List.mem_of_mem_filter hp
  have hbody : (Interface.itemDeclaration f).body =
      '\n' :: (f.children.map (Interface.propertyLine f.scope)).flatMap fun l => l ++ ['\n'] := by
    rw [Interface.itemDeclaration, Interface.propertyLines, h.visible_children hf]
    rfl
  rw [hbody, Interface.properties_lines (h.arePrintable_children hf)] at hp
  obtain ⟨c, hc, rfl⟩ := List.mem_map.1 hp
  have hc := List.mem_of_mem_filter hc
  have hscope : ∀ c ∈ f.scope, Text.isNameChar c = true :=
    ((h.name f hf f (by simp)).isName_scopeOf f.kind f.children).2
  rw [not_structured_of_nested (any_not_mem_keys h) ((h.read f hf).children c hc)
    (h.name f hf c (by simp [hc])) hscope] at hlist
  cases hlist

/-! ## When the outline is kept -/

/-- What has to be told apart for the outline of a plan to be kept. -/
structure IsDistinguishable (b : Blueprint) : Prop where
  className : '$' ∉ b.names.className
  field : ∀ f ∈ b.fields, ∀ g ∈ f :: f.children, '$' ∉ g.name
  identity : ∀ f ∈ Field.nested b.fields, posesAsDocument f = false
  item : ∀ f ∈ Field.nested b.fields, f.itemTypeName ≠ 'I' :: b.names.className ∧
    Text.occurs "Model" f.itemTypeName = false ∧ Text.occurs "Type" f.itemTypeName = false ∧
    mentionsObjectId f.itemTypeName = false
  twin : ∀ f ∈ Field.nested b.fields, ∀ g ∈ Field.nested b.fields, f.itemTypeName = g.itemTypeName →
    f.children.map Field.name = g.children.map Field.name
  values : ∀ f ∈ Field.nested b.fields, ∀ e,
    schemaOf? f.name (mainSchema (Text.unifyNewlines (Model.file b))) = some e → e.values = []

lemma all_isWord_of_not_mem {t : Text} (ht : ∀ c ∈ t, Text.isNameChar c = true) (hd : '$' ∉ t) :
    t.all Text.isWord = true := by
  rw [List.all_eq_true]
  intro c hc
  have hne : c ≠ '$' := by
    rintro rfl
    exact hd hc
  have hname := ht c hc
  simp only [Text.isNameChar, Bool.or_eq_true, beq_iff_eq] at hname
  exact hname.resolve_right hne

lemma dollar_not_mem {t : Text} (ht : ∀ c ∈ t, Text.isWord c = true) : '$' ∉ t :=
  Text.not_mem_of_isWord ht (by decide)

/-- What is declared for the items of a list. -/
lemma exists_of_find?_declaredItems {key : Text} {children : List Field}
    (hfind : Table.find? key (declaredItems b) = some children) :
    ∃ g ∈ Field.nested b.fields, isNestedList b g = true ∧ g.itemTypeName = key ∧
      children = readItems (declaredEnums b) g := by
  rw [declaredItems, Table.find?_ofEntries] at hfind
  obtain ⟨g, hg, heq⟩ := List.mem_map.1 (List.mem_reverse.1 (Table.mem_of_find? hfind))
  obtain ⟨hg, hnested⟩ := List.mem_filter.1 hg
  obtain ⟨rfl, rfl⟩ := Prod.mk.inj heq
  exact ⟨g, hg, hnested, rfl, rfl⟩

/-- Without fields, nothing is read, whether the document is found or not. -/
lemma fields_of_nil (h : b.IsWritable) (hnil : b.fields = []) (model : Text) :
    fields (Text.unifyNewlines (Interface.file b)) model = [] := by
  cases hmain : mainInterface? (interfaces (blocks (Text.unifyNewlines (Interface.file b)))) with
  | none =>
    unfold fields
    simp only [hmain]
  | some found =>
    have hfound := mem_of_mainInterface? hmain
    have hdocument : interfaceDeclarations b = [Interface.documentDeclaration b] := by
      unfold interfaceDeclarations Interface.filterDeclarations Blueprint.filterable
      rw [hnil]
      rfl
    rw [interfaces_file h, hdocument] at hfound
    obtain ⟨d, hd, rfl⟩ := List.mem_map.1 hfound
    obtain rfl := List.mem_singleton.1 (List.mem_of_mem_filter hd)
    have hproperties : (properties (Interface.documentDeclaration b).body).filter
        (fun p => p.name ∉ suppliedNames) = [] := by
      rw [properties_document h, hnil]
      decide
    unfold fields
    simp only [hmain]
    rw [hproperties]
    rfl

lemma map_name_readItems (f : Field) :
    (readItems E f).map Field.name = f.children.map Field.name := by
  rw [readItems, List.map_map]
  exact List.map_congr_left fun g _ => name_fieldOf _ _ _

namespace IsDistinguishable

variable (hd : IsDistinguishable b) (h : b.IsWritable)
include hd h

lemma hasReadableNames
    (hu : ∀ f ∈ b.fields, f.name ≠ "createdAt".toList ∧ f.name ≠ "updatedAt".toList) :
    HasReadableNames b where
  className := all_isWord_of_not_mem h.className.2 hd.className
  field f hf g hg := all_isWord_of_not_mem (h.name f hf g hg).isName.2 (hd.field f hf g hg)
  unreserved := hu

/-- What can be told apart is kept. -/
lemma keepsOutline (hu : ∀ f ∈ b.fields, f.name ≠ "createdAt".toList ∧ f.name ≠ "updatedAt".toList) :
    List.Forall₂ KeepsOutline b.fields
      (fields (Text.unifyNewlines (Interface.file b)) (Text.unifyNewlines (Model.file b))) := by
  rw [(hd.hasReadableNames h hu).fields_file h hd.identity, List.forall₂_map_right_iff, List.forall₂_same]
  intro f hf
  refine ⟨name_fieldOf _ _ _, fun hs => ?_⟩
  have hnested := (mem_nested_iff h).2 ⟨hf, hs⟩
  obtain ⟨hmain, hmodel, htype, hid⟩ := hd.item f hnested
  have hkey : f.itemTypeName ∈ Table.keys (((Field.nested b.fields).filter (isNestedList b)).map fun g =>
      (g.itemTypeName, readItems (declaredEnums b) g)) := by
    rw [Table.keys, List.map_map]
    exact List.mem_map.2
      ⟨f, List.mem_filter.2 ⟨hnested, isNestedList_iff.2 ⟨hmain, hmodel, htype⟩⟩, rfl⟩
  obtain ⟨children, hfind⟩ := Table.exists_find?_ofEntries hkey
  obtain ⟨g, hg, -, hname, rfl⟩ := exists_of_find?_declaredItems hfind
  have hread := fieldOf_items (isScope_declared h) (h.read f hf) (h.name f hf f (by simp)) hs
    (hd.values f hnested) hid hfind
  have hne : g.children ≠ [] := by
    obtain ⟨hg, hs⟩ := (mem_nested_iff h).1 hg
    exact (h.read g hg).isStructuredList_iff.1 hs
  rw [hread]
  refine ⟨?_, by rw [map_name_readItems, hd.twin f hnested g hg hname.symm]⟩
  have hobject : Field.targetsObject (some objectTag) = true := by decide
  simp [Field.isStructuredList, Field.structured, hobject, readItems, hne]

end IsDistinguishable

/-- An interface whose name is a word is that of the items of a list, if the class has a dollar sign. -/
lemma eq_itemDeclaration_of_isWord (hclass : '$' ∈ b.names.className) {d : Block}
    (hd : d ∈ interfaceDeclarations b) (hword : d.name.all Text.isWord = true) :
    ∃ f ∈ Field.nested b.fields, d = Interface.itemDeclaration f := by
  have hnot : ∀ t, d.name ≠ 'I' :: b.names.className ++ t := by
    intro t ht
    rw [ht, List.all_eq_true] at hword
    exact absurd (hword '$' (by simp [hclass])) (by decide)
  simp only [interfaceDeclarations, List.mem_append, List.mem_map, List.mem_singleton] at hd
  rcases hd with (⟨f, hf, rfl⟩ | hd) | rfl
  · exact ⟨f, hf, rfl⟩
  · exact absurd (Interface.body_filterDeclarations hd).2.1 (hnot _)
  · exact absurd (List.append_nil _).symm (hnot [])

section Kept

variable (h : b.IsWritable) (hk : List.Forall₂ KeepsOutline b.fields
  (fields (Text.unifyNewlines (Interface.file b)) (Text.unifyNewlines (Model.file b))))

include h hk

lemma dollar_not_mem_field : ∀ f ∈ b.fields, ∀ g ∈ f :: f.children, '$' ∉ g.name := by
  intro f hf g hg
  obtain ⟨r, hr, hkeep⟩ := exists_kept hk hf
  obtain ⟨hname, hitems⟩ := isWord_of_mem_fields hr
  rcases List.mem_cons.1 hg with rfl | hg
  · rw [← hkeep.name]
    exact dollar_not_mem hname
  · have hs := (h.read f hf).isStructuredList_iff.2 (List.ne_nil_of_mem hg)
    obtain ⟨hlist, hnames⟩ := hkeep.items hs
    have hmem : g.name ∈ r.children.map Field.name := by
      rw [hnames]
      exact List.mem_map_of_mem hg
    obtain ⟨k, hk, hk'⟩ := List.mem_map.1 hmem
    rw [← hk']
    exact dollar_not_mem (hitems hlist k hk)

/-- With a dollar sign in its name the document is no block, so at best items are read in its place. -/
lemma dollar_not_mem_className (hne : b.fields ≠ []) : '$' ∉ b.names.className := by
  intro hmem
  cases hmain : mainInterface? (interfaces (blocks (Text.unifyNewlines (Interface.file b)))) with
  | none =>
    have hnone : fields (Text.unifyNewlines (Interface.file b))
        (Text.unifyNewlines (Model.file b)) = [] := by
      unfold fields
      simp only [hmain]
    rw [hnone] at hk
    exact hne (List.forall₂_nil_right_iff.1 hk)
  | some found =>
    obtain ⟨main, body⟩ := found
    have hfound := mem_of_mainInterface? hmain
    rw [interfaces_file h] at hfound
    obtain ⟨d, hd, heq⟩ := List.mem_map.1 hfound
    obtain ⟨hd, hword⟩ := List.mem_filter.1 hd
    obtain ⟨f, hf, rfl⟩ := eq_itemDeclaration_of_isWord hmem hd hword
    obtain ⟨rfl, rfl⟩ := Prod.mk.inj heq
    exact not_keepsOutline_of_item h hf hmain _ hk

lemma hasReadableNames_of_kept (hne : b.fields ≠ [])
    (hu : ∀ f ∈ b.fields, f.name ≠ "createdAt".toList ∧ f.name ≠ "updatedAt".toList) :
    HasReadableNames b where
  className := all_isWord_of_not_mem h.className.2 (dollar_not_mem_className h hk hne)
  field f hf g hg := all_isWord_of_not_mem (h.name f hf g hg).isName.2 (dollar_not_mem_field h hk f hf g hg)
  unreserved := hu

/-- The first items that pose as the document would be read in its place. -/
lemma posesAsDocument_eq_false (hnames : HasReadableNames b) :
    ∀ f ∈ Field.nested b.fields, posesAsDocument f = false := by
  intro f hf
  by_contra hpose
  cases hfind : (Field.nested b.fields).find? posesAsDocument with
  | none => exact List.find?_eq_none.1 hfind f hf (by simpa using hpose)
  | some g =>
    have hmain := mainInterface?_file h fun d hd => hnames.all_isWord_interface h hd
    rw [takenForDocument, hfind] at hmain
    exact not_keepsOutline_of_item h (List.mem_of_find?_eq_some hfind) hmain _ hk

/-- Every list of objects is read with the items that are declared for it. -/
lemma exists_readAsItems (hnames : HasReadableNames b) {f : Field} (hf : f ∈ Field.nested b.fields) :
    ∃ children, (∀ e, schemaOf? f.name (mainSchema (Text.unifyNewlines (Model.file b))) = some e →
        e.values = []) ∧
      mentionsObjectId f.itemTypeName = false ∧
      Table.find? f.itemTypeName (declaredItems b) = some children ∧
      children.map Field.name = f.children.map Field.name := by
  rw [hnames.fields_file h (posesAsDocument_eq_false h hk hnames), List.forall₂_map_right_iff,
    List.forall₂_same] at hk
  obtain ⟨hf, hs⟩ := (mem_nested_iff h).1 hf
  obtain ⟨hlist, hitems⟩ := (hk f hf).items hs
  have hname := h.name f hf f (by simp)
  have hitem : Text.IsName f.itemTypeName := TypeScript.isName_itemTypeName hname
  have htrim : Text.trim (propertyOf [] f).type = f.itemTypeName ++ "[]" := by
    show Text.trim (TypeScript.type [] f) = _
    rw [type_of_structured (h.read f hf) hs]
    exact (TypeScript.TypeShape.list hitem).isType.isTypeLine.trim_eq
  have hread := isReadAsItems_of_fieldOf hlist
  rw [htrim] at hread
  refine ⟨_, hread.values, ?_, ?_, hitems⟩
  · rw [← mentionsObjectId_items (toNat_lt_of_mem_itemTypeName hname)]
    exact hread.reference
  · have hfind := hread.items
    rwa [baseOf_items hitem] at hfind

/-- What is kept can be told apart. -/
lemma isDistinguishable_of_keepsOutline (hne : b.fields ≠ [])
    (hu : ∀ f ∈ b.fields, f.name ≠ "createdAt".toList ∧ f.name ≠ "updatedAt".toList) :
    IsDistinguishable b := by
  have hnames := hasReadableNames_of_kept h hk hne hu
  have hread := fun f (hf : f ∈ Field.nested b.fields) => exists_readAsItems h hk hnames hf
  refine ⟨dollar_not_mem_className h hk hne, dollar_not_mem_field h hk, posesAsDocument_eq_false h hk hnames,
    fun f hf => ?item, fun f hf g hg hfg => ?twin, fun f hf => ?values⟩
  case item =>
    obtain ⟨children, -, hid, hfind, -⟩ := hread f hf
    obtain ⟨g, -, hg, hname, -⟩ := exists_of_find?_declaredItems hfind
    obtain ⟨hmain, hmodel, htype⟩ := isNestedList_iff.1 hg
    rw [hname] at hmain hmodel htype
    exact ⟨hmain, hmodel, htype, hid⟩
  case twin =>
    -- both lists are read with what one key of the table of items holds
    obtain ⟨children, -, -, hfind, hf⟩ := hread f hf
    obtain ⟨children', -, -, hfind', hg⟩ := hread g hg
    rw [hfg, hfind'] at hfind
    rw [← hf, ← hg, Option.some.inj hfind]
  case values =>
    obtain ⟨-, hvalues, -⟩ := hread f hf
    exact hvalues

end Kept

/-- **The outline of a module is kept** exactly if it has no fields or these can be told apart. -/
theorem keepsOutline_iff {raw : Text} {n : Names} {tokens : List Text} (upload : Bool)
    (hn : Names.ofRaw? raw = some n) (hfolder : Text.isExactIdentifier n.folder = true)
    (hname : ∀ f ∈ (Parsed.ofTokens tokens).fields, ∀ g ∈ f :: f.children,
      Text.isExactIdentifier g.name = true)
    (hu : ∀ f ∈ (Parsed.ofTokens tokens).fields,
      f.name ≠ "createdAt".toList ∧ f.name ≠ "updatedAt".toList)
    (hv : ∀ f ∈ (Parsed.ofTokens tokens).fields, ∀ g ∈ f :: f.children, ∀ v ∈ g.values,
      '{' ∉ v ∧ '}' ∉ v) :
    let b : Blueprint := .ofFields n (Parsed.ofTokens tokens).fields upload
    List.Forall₂ KeepsOutline (Parsed.ofTokens tokens).fields
        (fields (Text.unifyNewlines (Interface.file b)) (Text.unifyNewlines (Model.file b))) ↔
      (Parsed.ofTokens tokens).fields = [] ∨ IsDistinguishable b := by
  intro b
  have hread : ∀ f ∈ (Parsed.ofTokens tokens).fields, f.IsRead := fun f hf => Parsed.isRead_of_mem hf
  have hvisible : b.fields = (Parsed.ofTokens tokens).fields :=
    Field.visible_eq_self fun f hf => (hread f hf).visible
  have hidentifier : ∀ {t : Text}, Text.isExactIdentifier t = true → TypeScript.IsIdentifierText t :=
    fun h => ⟨Text.ne_nil_of_isExactIdentifier h, fun _ hc => Text.isIdentifierRest_of_mem h hc⟩
  have hclass : Text.IsName n.className :=
    ⟨Names.className_ne_nil hn (Text.ne_nil_of_isExactIdentifier hfolder),
      fun c hc => Names.isNameChar_of_mem_className hn hfolder hc⟩
  have h : b.IsWritable := by
    refine ⟨hclass, ?_, ?_, ?_⟩
    · rw [hvisible]
      exact hread
    · rw [hvisible]
      exact fun f hf g hg => hidentifier (hname f hf g hg)
    · rw [hvisible]
      exact hv
  rw [← hvisible] at hu ⊢
  constructor
  · intro hk
    by_cases hne : b.fields = []
    · exact .inl hne
    · exact .inr (isDistinguishable_of_keepsOutline h hk hne hu)
  · rintro (hnil | hd)
    · rw [hnil, fields_of_nil h hnil]
      exact .nil
    · exact hd.keepsOutline h hu

/-- Items with a reference are kept apart from the document as long as no line speaks of `_id`. -/
theorem keepsOutline_of_reference :
    let tokens : List Text := ["items:array:object:user:id:qty:number", "state:enum[new,used]"]
    let b : Blueprint := .ofFields ⟨"order", "Order", "order"⟩ (Parsed.ofTokens tokens).fields false
    List.Forall₂ KeepsOutline (Parsed.ofTokens tokens).fields
      (fields (Text.unifyNewlines (Interface.file b)) (Text.unifyNewlines (Model.file b))) := by
  intro tokens b
  have hn : Names.ofRaw? "order" = some ⟨"order", "Order", "order"⟩ := by decide +kernel
  have hd : IsDistinguishable b := by
    refine ⟨by decide +kernel, by decide +kernel, by decide +kernel, by decide +kernel,
      by decide +kernel, fun f hf e he => ?_⟩
    have hvalues : ∀ f ∈ Field.nested b.fields,
        ∀ e ∈ schemaOf? f.name (mainSchema (Text.unifyNewlines (Model.file b))), e.values = [] := by
      decide +kernel
    exact hvalues f hf e he
  exact (keepsOutline_iff false hn (by decide +kernel) (by decide +kernel) (by decide +kernel)
    (by decide +kernel)).2 (.inr hd)

/-- **The items are read in place of the document** if one of them refers to a `user_id`. -/
theorem not_keepsOutline_of_user_id :
    let tokens : List Text := ["items:array:object:user_id:id"]
    let b : Blueprint := .ofFields ⟨"order", "Order", "order"⟩ (Parsed.ofTokens tokens).fields false
    ¬ List.Forall₂ KeepsOutline (Parsed.ofTokens tokens).fields
      (fields (Text.unifyNewlines (Interface.file b)) (Text.unifyNewlines (Model.file b))) := by
  intro tokens b hk
  have hread : (fields (Text.unifyNewlines (Interface.file b)) (Text.unifyNewlines (Model.file b))).map
      Field.name = ["user_id".toList] := by
    decide +kernel
  have hfield : ∃ f ∈ (Parsed.ofTokens tokens).fields, f.name = "items".toList := by decide +kernel
  obtain ⟨f, hf, hname⟩ := hfield
  obtain ⟨g, hg, hkeep⟩ := exists_kept hk hf
  have hmem := List.mem_map_of_mem (f := Field.name) hg
  rw [hread, hkeep.name, hname] at hmem
  exact absurd hmem (by decide)

end Scaffold.Recovery
