import Mathlib.Data.List.Find
import Mathlib.Tactic.Common
import Scaffold.Proofs.Recovery.Document
import Scaffold.Proofs.Recovery.Kinds

/-!
# What a printed interface file declares

Besides the document, an interface file declares enumerations and the items of lists, and both are
looked up by name.  A name that is declared twice counts with its last declaration, so the items of
two lists with one type name are those of the last one (`nestedInterfaces_file`).
-/

namespace Scaffold

namespace Recovery

open Interface

variable {b : Blueprint}

/-! ## Enumerations -/

/-- Values as they are read from a file. -/
def readValues (values : List Text) : List Text :=
  memberValues (unified (enumDeclaration ([], values))).body

/-- The enumeration that is read of a declared one, if it has values. -/
def readEnum? (e : Text × List Text) : Option (Text × List Text) :=
  if e.1.all Text.isWord && !(readValues e.2).isEmpty then some (e.1, readValues e.2) else none

lemma enumerations_file (h : b.IsWritable) :
    enumerations (blocks (Text.unifyNewlines (file b))) =
      Table.ofEntries ((enums b.fields).filterMap readEnum?) := by
  set read? : Block → Option (Text × List Text) := fun d =>
    if d.name.all Text.isWord then
      if d.kind = .enumeration && !(memberValues d.body).isEmpty then some (d.name, memberValues d.body)
      else none
    else none with hread
  -- only the enumerations are read; the interfaces before and behind them leave nothing
  have hinterface : ∀ ds : List Block, (∀ d ∈ ds, d ∈ interfaceDeclarations b) →
      ds.filterMap (read? ∘ unified) = [] := by
    intro ds hds
    rw [List.filterMap_eq_nil_iff]
    intro d hd
    have hkind : decide ((unified d).kind = .enumeration) = false := by
      rw [unified, kind_of_mem_interfaceDeclarations (hds d hd)]
      rfl
    simp only [hread, Function.comp, hkind, Bool.false_and]
    split
    · rfl
    · rfl
  have henum : ((enums b.fields).map enumDeclaration).filterMap (read? ∘ unified) =
      (enums b.fields).filterMap readEnum? := by
    rw [List.filterMap_map]
    refine List.filterMap_congr fun e _ => ?_
    show (if e.1.all Text.isWord then
      if (true && !(readValues e.2).isEmpty) then some (e.1, readValues e.2) else none else none) = readEnum? e
    unfold readEnum?
    cases e.1.all Text.isWord <;> rfl
  have hitems := hinterface ((Field.nested b.fields).map itemDeclaration) fun d hd =>
    List.mem_append_left _ (List.mem_append_left _ hd)
  have hfilters := hinterface (filterDeclarations b) fun d hd =>
    List.mem_append_left _ (List.mem_append_right _ hd)
  have hdocument := hinterface [documentDeclaration b] fun d hd => List.mem_append_right _ hd
  rw [enumerations, blocks_file h, List.filterMap_filter, List.filterMap_map]
  show Table.ofEntries ((declarations b).filterMap (read? ∘ unified)) = _
  rw [declarations, List.filterMap_append, List.filterMap_append, List.filterMap_append, hitems, henum,
    hfilters, hdocument, List.nil_append, List.append_nil, List.append_nil]

/-- Enumerations are named by a suffix. -/
lemma suffix_of_mem_keys_enumerations (h : b.IsWritable) {k : Text}
    (hk : k ∈ Table.keys (enumerations (blocks (Text.unifyNewlines (file b))))) :
    "Enum".toList <:+ k := by
  rw [enumerations_file h] at hk
  obtain ⟨e, he, rfl⟩ := List.mem_map.1 (Table.mem_keys_of_mem_keys_ofEntries hk)
  obtain ⟨d, hd, hread⟩ := List.mem_filterMap.1 he
  have hname : e.1 = d.1 := by
    unfold readEnum? at hread
    split at hread
    · rw [← Option.some.inj hread]
    · cases hread
  have hmem := mem_enums hd
  rw [enumsAmong_of_isRead h.read] at hmem
  obtain ⟨f, -, g, -, scope, rfl, -⟩ := mem_enumsAt hmem
  rw [hname]
  exact List.suffix_append _ _

/-- Without carriage returns, values are read as they were printed. -/
lemma readValues_eq {values : List Text} (hne : ∀ v ∈ values, v ≠ []) (hcr : ∀ v ∈ values, '\r' ∉ v) :
    readValues values = values := by
  have hbody : '\r' ∉ (enumDeclaration ([], values)).body := by
    intro hmem
    rcases List.mem_cons.1 hmem with hmem | hmem
    · cases hmem
    rcases mem_memberLines hmem with hmem | hmem | ⟨v, hv, hmem⟩
    · exact absurd hmem (by decide)
    · exact absurd hmem (by decide)
    · exact hcr v hv hmem
  have hunified : (unified (enumDeclaration ([], values))).body =
      '\n' :: (Members.ofValues values).flatMap fun m => memberLine m ++ ['\n'] := by
    rw [unified, Text.unifyNewlines_eq_self hbody, enumDeclaration, Block.ofLines, List.flatMap_map]
  rw [readValues, hunified, Members.ofValues, memberValues_lines (Members.isWord_assign values []),
    Members.map_snd_assign, List.filter_eq_self]
  intro v hv
  simpa using hne v hv

/-! ## Items of lists -/

/-- Whether the items of a list are looked up by name. -/
def isNestedList (b : Blueprint) (f : Field) : Bool :=
  isNestedName ('I' :: b.names.className) f.itemTypeName

lemma isNestedList_iff {f : Field} :
    isNestedList b f = true ↔ f.itemTypeName ≠ 'I' :: b.names.className ∧
      Text.occurs "Model" f.itemTypeName = false ∧ Text.occurs "Type" f.itemTypeName = false := by
  have hend : Text.endsWith "Filterables" f.itemTypeName = false := by
    rw [Bool.eq_false_iff]
    intro hs
    obtain ⟨t, ht⟩ := List.isSuffixOf_iff_suffix.1 hs
    have hlast := congrArg List.getLast? ht
    rw [Field.itemTypeName, Field.itemTypeNameOf, List.getLast?_append_of_ne_nil _ (by decide),
      List.getLast?_append_of_ne_nil _ (by decide)] at hlast
    exact absurd hlast (by decide)
  rw [isNestedList, isNestedName, hend]
  simp only [Bool.and_eq_true, decide_eq_true_eq, Bool.not_eq_true', Bool.not_false, and_true, ne_eq,
    and_assoc]

/-- What is read for the items of a list. -/
def readItems (E : List (Text × List Text)) (f : Field) : List Field :=
  f.children.map fun g => fieldOf ⟨E, []⟩ none (propertyOf f.scope g)

lemma properties_item (h : b.IsWritable) {f : Field} (hf : f ∈ b.fields)
    (hword : ∀ g ∈ f.children, g.name.all Text.isWord = true) :
    (properties (itemDeclaration f).body).filter (fun p => p.name ≠ "_id".toList) =
      f.children.map (propertyOf f.scope) := by
  have hproperties := properties_lines (h.arePrintable_children hf)
  rw [List.filter_eq_self.2 hword] at hproperties
  have hbody : (itemDeclaration f).body =
      '\n' :: (f.children.map (propertyLine f.scope)).flatMap fun l => l ++ ['\n'] := by
    rw [itemDeclaration, propertyLines, h.visible_children hf]
    rfl
  rw [hbody, hproperties, List.filter_eq_self]
  intro p hp
  obtain ⟨g, hg, rfl⟩ := List.mem_map.1 hp
  have hvisible := ((h.read f hf).children g hg).visible
  have hne : g.name ≠ "_id".toList := by
    intro heq
    rw [heq] at hvisible
    exact absurd hvisible (by decide)
  exact decide_eq_true hne

/-- What is read of a declaration of items, if it is one. -/
def readInterface? (b : Blueprint) (E : List (Text × List Text)) (d : Block) : Option (Text × List Field) :=
  if isNestedName ('I' :: b.names.className) d.name then
    match ((properties d.body).filter fun p => p.name ≠ "_id".toList).map (fieldOf ⟨E, []⟩ none) with
    | [] => none
    | f :: fs => some (d.name, f :: fs)
  else none

lemma readInterface?_item (h : b.IsWritable) (E : List (Text × List Text)) {f : Field}
    (hf : f ∈ Field.nested b.fields) (hchild : ∀ g ∈ f.children, g.name.all Text.isWord = true) :
    readInterface? b E (itemDeclaration f) =
      if isNestedList b f then some (f.itemTypeName, readItems E f) else none := by
  rw [Field.nested_eq_filter h.read] at hf
  obtain ⟨hf, hs⟩ := List.mem_filter.1 hf
  have hne : readItems E f ≠ [] := by
    simpa [readItems] using (h.read f hf).isStructuredList_iff.1 hs
  have hproperties : ((properties (itemDeclaration f).body).filter fun p => p.name ≠ "_id".toList).map
      (fieldOf ⟨E, []⟩ none) = readItems E f := by
    rw [properties_item h hf hchild, List.map_map]
    rfl
  obtain ⟨g, gs, hgs⟩ := List.exists_cons_of_ne_nil hne
  simp only [readInterface?, hproperties, hgs]
  rfl

/-- The interface of the filters is known by the end of its name. -/
lemma readInterface?_filter (E : List (Text × List Text)) {d : Block} (hd : d ∈ filterDeclarations b) :
    readInterface? b E d = none := by
  have hend : Text.endsWith "Filterables" d.name = true := by
    rw [(body_filterDeclarations hd).2.1]
    exact List.isSuffixOf_iff_suffix.2 (List.suffix_append _ _)
  have hnot : isNestedName ('I' :: b.names.className) d.name = false := by
    rw [isNestedName, hend]
    simp
  simp only [readInterface?, hnot]
  rfl

lemma readInterface?_document (b : Blueprint) (E : List (Text × List Text)) :
    readInterface? b E (documentDeclaration b) = none := by
  have hnot : isNestedName ('I' :: b.names.className) ('I' :: b.names.className) = false := by
    simp [isNestedName]
  show (if isNestedName ('I' :: b.names.className) ('I' :: b.names.className) then _ else none) = none
  rw [hnot]
  rfl

/-- **The items of lists** are read under their names, those of a list that comes later in place of
those that came before. -/
theorem nestedInterfaces_file (h : b.IsWritable)
    (hword : ∀ d ∈ interfaceDeclarations b, d.name.all Text.isWord = true)
    (hchild : ∀ f ∈ b.fields, ∀ g ∈ f.children, g.name.all Text.isWord = true)
    (E : List (Text × List Text)) :
    nestedInterfaces E ('I' :: b.names.className)
        (interfaces (blocks (Text.unifyNewlines (file b)))) =
      Table.ofEntries (((Field.nested b.fields).filter (isNestedList b)).map fun f =>
        (f.itemTypeName, readItems E f)) := by
  have hitems : ((Field.nested b.fields).map itemDeclaration).filterMap (readInterface? b E) =
      ((Field.nested b.fields).filter (isNestedList b)).map fun f => (f.itemTypeName, readItems E f) := by
    rw [List.filterMap_map, ← List.filterMap_eq_map', List.filterMap_filter]
    refine List.filterMap_congr fun f hf => readInterface?_item h E hf (hchild f ?_)
    rw [Field.nested_eq_filter h.read] at hf
    exact (List.mem_filter.1 hf).1
  have hfilters : (filterDeclarations b).filterMap (readInterface? b E) = [] :=
    List.filterMap_eq_nil_iff.2 fun d hd => readInterface?_filter E hd
  rw [interfaces_file h, List.filter_eq_self.2 hword, nestedInterfaces, List.filterMap_map]
  show Table.ofEntries ((interfaceDeclarations b).filterMap (readInterface? b E)) = _
  rw [interfaceDeclarations, List.filterMap_append, List.filterMap_append, hitems, hfilters, List.append_nil]
  simp [readInterface?_document]

/-! ## Properties of the document -/

/-- The identity of a document. -/
def identity : Property := ⟨"_id", false, TypeScript.referenceName⟩

/-- **The properties of the document** are its identity and its fields. -/
theorem properties_document (h : b.IsWritable) :
    properties (documentDeclaration b).body =
      identity :: (b.fields.filter fun f => f.name.all Text.isWord).map (propertyOf []) := by
  have hname : ∀ c ∈ "_id".toList, Text.isWord c = true := Text.forall_mem_of_all (by decide)
  have htype : IsType TypeScript.referenceName := (TypeScript.TypeShape.fixed (by decide)).isType
  have hread := property?_append hname (by decide) false htype.isTypeLine
  have hmember : IsMember (TypeScript.propertyName false "_id" ++ ": " ++ TypeScript.referenceName) :=
    isMember_property (fun c hc => Text.isNameChar_of_isWord (hname c hc)) (by decide) false htype
  -- without fields a comment stands in their place, and it is no property
  by_cases hempty : b.fields = []
  · have hclosed : properties ('\n' :: (Code.indent 2 "_id: Types.ObjectId;" ++ ['\n'] ++
        (Code.indent 2 "// Define interface properties here" ++ ['\n']))) = [identity] := by
      decide
    rw [body_documentDeclaration, documentHead, hempty]
    exact hclosed
  · have hmembers := members_propertyLines h.arePrintable
      [TypeScript.propertyName false "_id" ++ ": " ++ TypeScript.referenceName]
      fun l hl => List.mem_singleton.1 hl ▸ hmember
    have hbody : (documentDeclaration b).body = '\n' ::
        ([TypeScript.propertyName false "_id" ++ ": " ++ TypeScript.referenceName].map
          (fun l => Code.indent 2 (l ++ [';'])) ++ b.fields.map (propertyLine [])).flatMap
            fun l => l ++ ['\n'] := by
      have hnot : b.fields.isEmpty = false := List.isEmpty_eq_false_iff.2 hempty
      rw [body_documentDeclaration, documentHead, hnot]
      rfl
    rw [properties, hbody, hmembers, List.filterMap_append, filterMap_property h.arePrintable,
      List.filterMap_cons, hread]
    rfl

/-! ## The fields that are read -/

/-- The enumerations that are read from the interface file of a plan. -/
def declaredEnums (b : Blueprint) : List (Text × List Text) :=
  enumerations (blocks (Text.unifyNewlines (file b)))

/-- The items that are read from the interface file of a plan. -/
def declaredItems (b : Blueprint) : List (Text × List Field) :=
  Table.ofEntries (((Field.nested b.fields).filter (isNestedList b)).map fun f =>
    (f.itemTypeName, readItems (declaredEnums b) f))

lemma isScope_declared (h : b.IsWritable) : IsScope (declaredEnums b) (declaredItems b) := by
  refine ⟨fun k hk => suffix_of_mem_keys_enumerations h hk, fun k hk => ?_⟩
  have hmem := Table.mem_keys_of_mem_keys_ofEntries hk
  rw [Table.keys, List.map_map] at hmem
  obtain ⟨f, -, rfl⟩ := List.mem_map.1 hmem
  exact List.suffix_append _ _

/-- Names that are all read, and none of which the storage layer supplies. -/
structure HasReadableNames (b : Blueprint) : Prop where
  className : b.names.className.all Text.isWord = true
  field : ∀ f ∈ b.fields, ∀ g ∈ f :: f.children, g.name.all Text.isWord = true
  unreserved : ∀ f ∈ b.fields, f.name ≠ "createdAt".toList ∧ f.name ≠ "updatedAt".toList

namespace HasReadableNames

variable (hn : HasReadableNames b) (h : b.IsWritable)
include hn h

lemma isAsciiWord_name {f : Field} (hf : f ∈ b.fields) {g : Field} (hg : g ∈ f :: f.children) :
    ∀ c ∈ g.name, Text.isAsciiWord c = true := by
  intro c hc
  have hword := List.all_eq_true.1 (hn.field f hf g hg) c hc
  refine Text.isAsciiWord_of_isIdentifierRest ((h.name f hf g hg).2 c hc) ?_
  rintro rfl
  exact absurd hword (by decide)

lemma isAsciiWord_itemTypeName {f : Field} (hf : f ∈ b.fields) :
    ∀ c ∈ f.itemTypeName, Text.isAsciiWord c = true := by
  have hcap := Text.isAsciiWord_capitalizeFirst (hn.isAsciiWord_name h hf (List.mem_cons_self ..))
  have hend : ∀ c ∈ "Item".toList, Text.isAsciiWord c = true := Text.forall_mem_of_all (by decide)
  intro c hc
  rcases List.mem_append.1 hc with hc | hc
  · exact hcap c hc
  · exact hend c hc

lemma isAsciiWord_scope {f : Field} (hf : f ∈ b.fields) : ∀ c ∈ f.scope, Text.isAsciiWord c = true := by
  unfold Field.scope Field.scopeOf
  split
  · exact hn.isAsciiWord_itemTypeName h hf
  · exact Text.isAsciiWord_capitalizeFirst (hn.isAsciiWord_name h hf (List.mem_cons_self ..))

lemma all_isWord_interface {d : Block} (hd : d ∈ interfaceDeclarations b) :
    d.name.all Text.isWord = true := by
  have hclass : ('I' :: b.names.className).all Text.isWord = true := by
    rw [List.all_cons, hn.className]
    rfl
  simp only [interfaceDeclarations, List.mem_append, List.mem_map, List.mem_singleton] at hd
  rcases hd with (⟨f, hf, rfl⟩ | hd) | rfl
  · rw [Field.nested_eq_filter h.read] at hf
    have hname := hn.isAsciiWord_itemTypeName h (List.mem_of_mem_filter hf)
    exact List.all_eq_true.2 fun c hc => Text.isWord_of_isAsciiWord (hname c hc)
  · rw [(body_filterDeclarations hd).2.1, List.all_append, hclass]
    decide
  · exact hclass

lemma not_mem_suppliedNames {f : Field} (hf : f ∈ b.fields) : f.name ∉ suppliedNames := by
  have hid : f.name ≠ "_id".toList := by
    intro heq
    have hvisible := (h.read f hf).visible
    rw [heq] at hvisible
    exact absurd hvisible (by decide)
  have hunreserved := hn.unreserved f hf
  simp only [suppliedNames, List.mem_cons, List.not_mem_nil, or_false, not_or]
  exact ⟨hid, hunreserved⟩

/-- **Field by field**, the files of a plan are read if no list poses as the document. -/
theorem fields_file (hnone : ∀ f ∈ Field.nested b.fields, posesAsDocument f = false) (model : Text) :
    fields (Text.unifyNewlines (file b)) model =
      b.fields.map fun f => fieldOf ⟨declaredEnums b, declaredItems b⟩
        (schemaOf? f.name (mainSchema model)) (propertyOf [] f) := by
  have hmain : mainInterface? (interfaces (blocks (Text.unifyNewlines (file b)))) =
      some ('I' :: b.names.className, (documentDeclaration b).body) := by
    have hfind : (Field.nested b.fields).find? posesAsDocument = none :=
      List.find?_eq_none.2 fun f hf => by simp [hnone f hf]
    rw [mainInterface?_file h fun d hd => hn.all_isWord_interface h hd, takenForDocument, hfind]
    rfl
  have hproperties : (properties (documentDeclaration b).body).filter
      (fun p => p.name ∉ suppliedNames) = b.fields.map (propertyOf []) := by
    have hword : b.fields.filter (fun f => f.name.all Text.isWord) = b.fields :=
      List.filter_eq_self.2 fun f hf => hn.field f hf f (by simp)
    have hid : identity.name ∈ suppliedNames := by decide
    rw [properties_document h, hword, List.filter_cons_of_neg (by simpa using hid), List.filter_eq_self]
    intro p hp
    obtain ⟨f, hf, rfl⟩ := List.mem_map.1 hp
    exact decide_eq_true (hn.not_mem_suppliedNames h hf)
  have hitems := nestedInterfaces_file h (fun d hd => hn.all_isWord_interface h hd)
    (fun f hf g hg => hn.field f hf g (by simp [hg])) (declaredEnums b)
  unfold fields
  simp only [hmain]
  rw [← declaredEnums, hitems, hproperties, List.map_map]
  rfl

end HasReadableNames

end Recovery

end Scaffold
