import Mathlib.Data.List.Basic
import Mathlib.Tactic.Common
import Scaffold.Proofs.Field.Tokens
import Scaffold.Proofs.Recovery.Schema
import Scaffold.Proofs.Recovery.Scope

/-!
# Reading back a module that was generated

Generating a module and reading its interface and its model back gives the fields again, up to what
their types do not say (`Field.normal`).  What can go wrong is a matter of names and of values, and
it is collected in `Legible`: two declarations of one name, the items of a list that are taken for
the document or for something that is not nested, a reserved word, a character that ends a literal
or a schema early.

The proof puts together what the two files say: the document is found (`mainInterface?_file`), its
properties are its fields (`properties_document`), the types of these are read in the scope of the
enumerations and the items that the file declares (`fieldOf_top`), and the model agrees with them
(`exists_schemaOf?`).
-/

namespace Scaffold

/-- Fields that can be read back from the files of a module with the given class name. -/
structure Recovery.Legible (className : Text) (fs : List Field) : Prop where
  word : ∀ f ∈ fs, ∀ g ∈ f :: f.children, ∀ c ∈ g.name, Text.isAsciiWord c = true
  distinct : (fs.map Field.name).Nodup
  unreserved : ∀ f ∈ fs, f.name ≠ "createdAt".toList ∧ f.name ≠ "updatedAt".toList
  enums : (Table.keys (Interface.enumsAmong [] fs)).Nodup
  items : ((Field.nested fs).map Field.itemTypeName).Nodup
  item : ∀ f ∈ Field.nested fs, f.itemTypeName ≠ 'I' :: className ∧
    Text.occurs "Model" f.itemTypeName = false ∧ Text.occurs "Type" f.itemTypeName = false ∧
    mentionsObjectId f.itemTypeName = false
  identity : ∀ f ∈ Field.nested fs, posesAsDocument f = false
  target : ∀ f ∈ fs, ∀ t, f.kind.target = some t → ∀ c ∈ t, Text.isAsciiWord c = true
  values : ∀ f ∈ fs, ∀ g ∈ f :: f.children, ∀ v ∈ g.values, ∀ c ∈ reservedChars, c ∉ v

namespace Recovery

/-- A plan whose files can be read back. -/
structure IsLegible (b : Blueprint) : Prop where
  className : b.names.className ≠ [] ∧ ∀ c ∈ b.names.className, Text.isWord c = true
  folder : ∀ c ∈ b.names.folder, Text.isAsciiWord c = true
  read : ∀ f ∈ b.fields, f.IsRead
  legible : Legible b.names.className b.fields

namespace IsLegible

variable {b : Blueprint} (h : IsLegible b) {f : Field}
include h

lemma isIdentifierText (hf : f ∈ b.fields) {g : Field} (hg : g ∈ f :: f.children) :
    TypeScript.IsIdentifierText g.name := by
  refine ⟨?_, fun c hc => Text.isIdentifierRest_of_isAsciiWord (h.legible.word f hf g hg c hc)⟩
  rcases List.mem_cons.1 hg with rfl | hg
  · exact (h.read g hf).name_ne_nil
  · exact ((h.read f hf).children g hg).name_ne_nil

lemma isWritable : b.IsWritable where
  className := ⟨h.className.1, fun c hc => Text.isNameChar_of_isWord (h.className.2 c hc)⟩
  read := h.read
  name _ hf _ hg := h.isIdentifierText hf hg
  value f hf g hg v hv := ⟨h.legible.values f hf g hg v hv '{' (by decide),
    h.legible.values f hf g hg v hv '}' (by decide)⟩

lemma isPlainlyWritten (hf : f ∈ b.fields) {g : Field} (hg : g ∈ f :: f.children) :
    IsPlainlyWritten g.kind := by
  refine ⟨fun vs hkind v hv => ?_, fun t ht c hc => ?_⟩
  · refine h.legible.values f hf g hg v ?_
    rw [Field.values, hkind]
    exact hv
  · rcases List.mem_cons.1 hg with rfl | hg
    · exact Text.isWord_of_isAsciiWord (h.legible.target g hf t ht c hc)
    · have hleaf := ((h.read f hf).children g hg).kind
      obtain ⟨name, isRequired, isOptional, kind, children⟩ := g
      cases hleaf <;> cases ht

lemma isPlain : IsPlain b where
  toIsWritable := h.isWritable
  folder c hc := Text.isNameChar_of_isWord (Text.isWord_of_isAsciiWord (h.folder c hc))
  word f hf c hc := Text.isWord_of_isAsciiWord (h.legible.word f hf f (by simp) c hc)
  distinct := h.legible.distinct
  plain _ hf _ hg := h.isPlainlyWritten hf hg

lemma hasReadableNames : HasReadableNames b where
  className := List.all_eq_true.2 h.className.2
  field f hf g hg := List.all_eq_true.2 fun c hc =>
    Text.isWord_of_isAsciiWord (h.legible.word f hf g hg c hc)
  unreserved := h.legible.unreserved

/-! ## What is looked up by name -/

/-- An enumeration of the file is read as it was printed. -/
lemma readEnum?_eq {e : Text × List Text} (he : e ∈ Interface.enumsAmong [] b.fields) :
    readEnum? e = some e := by
  rw [Interface.enumsAmong_of_isRead h.read] at he
  obtain ⟨f, hf, g, hg, scope, rfl, hscope, hne⟩ := Interface.mem_enumsAt he
  have hword : (Field.enumTypeName scope g.name).all Text.isWord = true := by
    have hcap := Text.isAsciiWord_capitalizeFirst (h.legible.word f hf g hg)
    have hend : ∀ c ∈ "Enum".toList, Text.isAsciiWord c = true := Text.forall_mem_of_all (by decide +kernel)
    have hscope : ∀ c ∈ scope, Text.isAsciiWord c = true := by
      rcases hscope with rfl | rfl
      · simp
      · exact h.hasReadableNames.isAsciiWord_scope h.isWritable hf
    refine List.all_eq_true.2 fun c hc => Text.isWord_of_isAsciiWord ?_
    rcases List.mem_append.1 hc with hc | hc
    · rcases List.mem_append.1 hc with hc | hc
      · exact hscope c hc
      · exact hcap c hc
    · exact hend c hc
  have hproper : g.kind.HasProperValues := by
    rcases List.mem_cons.1 hg with rfl | hg
    · exact (h.read g hf).values
    · exact ((h.read f hf).children g hg).values
  have hvalues : ∀ v ∈ g.values, v ≠ [] := by
    intro v hv
    unfold Field.values at hv
    split at hv
    · rename_i vs hkind
      exact (hproper vs hkind).2 v hv
    · cases hv
  have hread : readValues g.values = g.values := readValues_eq hvalues fun v hv =>
    h.legible.values f hf g hg v hv '\r' (by decide)
  have hempty : g.values.isEmpty = false := List.isEmpty_eq_false_iff.2 hne
  rw [readEnum?, hword, hread, hempty]
  rfl

/-- The enumerations that are read from the interface file. -/
lemma find?_declaredEnums (hf : f ∈ b.fields) {scope : Text} {g : Field}
    (hg : (scope = [] ∧ g = f) ∨ (scope = f.scope ∧ g ∈ f.children)) (hne : g.values ≠ []) :
    Table.find? (Field.enumTypeName scope g.name) (declaredEnums b) = some g.values := by
  have hmem : (Field.enumTypeName scope g.name, g.values) ∈ Interface.enumsAmong [] b.fields := by
    have hat : (Field.enumTypeName scope g.name, g.values) ∈ Interface.enumAt scope g := by
      have hvalues : g.hasValues = true := by
        rw [Field.hasValues, List.isEmpty_eq_false_iff.2 hne]
        rfl
      rw [Interface.enumAt, if_pos hvalues]
      exact List.mem_singleton.2 rfl
    rw [Interface.enumsAmong_of_isRead h.read, List.mem_flatMap]
    refine ⟨f, hf, ?_⟩
    rcases hg with ⟨rfl, rfl⟩ | ⟨rfl, hg⟩
    · exact List.mem_append_right _ hat
    · exact List.mem_append_left _ (List.mem_flatMap.2 ⟨g, hg, hat⟩)
  have hread : (Interface.enums b.fields).filterMap readEnum? = Interface.enumsAmong [] b.fields := by
    rw [Interface.enums_of_nodup h.legible.enums]
    exact (List.filterMap_congr fun e he => h.readEnum?_eq he).trans List.filterMap_some
  rw [declaredEnums, enumerations_file h.isWritable, hread]
  exact Table.find?_ofEntries_of_mem h.legible.enums hmem

/-- The items of every list are read, up to their normal form. -/
lemma readItems_eq (hf : f ∈ b.fields) :
    readItems (declaredEnums b) f = f.children.map Field.normalNested := by
  have hscope : IsScope (declaredEnums b) [] :=
    ⟨(isScope_declared h.isWritable).enums, by simp [Table.keys]⟩
  have hchars := h.hasReadableNames.isAsciiWord_scope h.isWritable hf
  refine List.map_congr_left fun g hg => ?_
  exact fieldOf_nested hscope ((h.read f hf).children g hg) (h.isIdentifierText hf (by simp [hg]))
    (fun c hc => Text.isNameChar_of_isWord (Text.isWord_of_isAsciiWord (hchars c hc)))
    (h.find?_declaredEnums hf (.inr ⟨rfl, hg⟩))

/-- The items that are read from the interface file. -/
lemma find?_declaredItems (hf : f ∈ Field.nested b.fields) :
    Table.find? f.itemTypeName (declaredItems b) = some (f.children.map Field.normalNested) := by
  have hall : (Field.nested b.fields).filter (isNestedList b) = Field.nested b.fields :=
    List.filter_eq_self.2 fun g hg =>
      isNestedList_iff.2 ⟨(h.legible.item g hg).1, (h.legible.item g hg).2.1, (h.legible.item g hg).2.2.1⟩
  have hread : f ∈ b.fields := by
    rw [Field.nested_eq_filter h.read] at hf
    exact List.mem_of_mem_filter hf
  rw [declaredItems, hall]
  refine Table.find?_ofEntries_of_mem ?_ (List.mem_map.2 ⟨f, hf, by rw [h.readItems_eq hread]⟩)
  rw [Table.keys, List.map_map]
  exact h.legible.items

/-! ## The fields -/

/-- **A legible plan is read back** up to its normal form. -/
theorem fields_file : fields (Text.unifyNewlines (Interface.file b)) (Text.unifyNewlines (Model.file b)) =
    b.fields.map Field.normal := by
  rw [h.hasReadableNames.fields_file h.isWritable h.legible.identity]
  refine List.map_congr_left fun f hf => ?_
  have hmodel := return_not_mem_file h.isPlain (List.ne_nil_of_mem hf)
  obtain ⟨e, he, hagree, hrequired⟩ := exists_schemaOf? h.isPlain hf
  rw [Text.unifyNewlines_eq_self hmodel, he]
  refine fieldOf_top (isScope_declared h.isWritable) (h.read f hf) (h.isIdentifierText hf (by simp))
    hagree hrequired (h.find?_declaredEnums hf (.inl ⟨rfl, rfl⟩)) fun hs => ?_
  have hnested : f ∈ Field.nested b.fields := by
    rw [Field.nested_eq_filter h.read]
    exact List.mem_filter.2 ⟨hf, hs⟩
  exact ⟨(h.legible.item f hnested).2.2.2, h.find?_declaredItems hnested⟩

end IsLegible

/-- **A module is read back.** From the interface and the model that are generated for a module with
legible fields, the reader gives these fields, in order and in normal form. -/
theorem fields_generated {raw : Text} {n : Names} {tokens : List Text} (upload : Bool)
    (hn : Names.ofRaw? raw = some n) (hne : n.folder ≠ [])
    (hfolder : ∀ c ∈ n.folder, Text.isAsciiWord c = true)
    (h : Legible n.className (Parsed.ofTokens tokens).fields) :
    fields (Text.unifyNewlines (Interface.file (.ofFields n (Parsed.ofTokens tokens).fields upload)))
        (Text.unifyNewlines (Model.file (.ofFields n (Parsed.ofTokens tokens).fields upload))) =
      (Parsed.ofTokens tokens).fields.map Field.normal := by
  have hread : ∀ f ∈ (Parsed.ofTokens tokens).fields, f.IsRead := fun f hf => Parsed.isRead_of_mem hf
  have hvisible : (Blueprint.ofFields n (Parsed.ofTokens tokens).fields upload).fields =
      (Parsed.ofTokens tokens).fields :=
    Field.visible_eq_self fun f hf => (hread f hf).visible
  have hclass : ∀ c ∈ n.className, Text.isWord c = true :=
    fun c hc => Names.isWord_of_mem_className hn hfolder hc
  have hlegible : IsLegible (.ofFields n (Parsed.ofTokens tokens).fields upload) := by
    refine ⟨⟨Names.className_ne_nil hn hne, hclass⟩, hfolder, ?_, ?_⟩
    · rw [hvisible]
      exact hread
    · rw [hvisible]
      exact h
  rw [hlegible.fields_file, hvisible]

/-- Tokens of every form, one of them a list of objects. -/
def sampleTokens : List Text :=
  ["title!:string", "owner:objectid:user", "tags?:array:string", "state:enum[new,it's]",
    "items!:array:object:sku:string:kind?:enum[a,b]"]

lemma legible_sampleTokens : Legible "Order" (Parsed.ofTokens sampleTokens).fields where
  word f hf g hg := Text.forall_mem_of_all (by
    have hall : ∀ f ∈ (Parsed.ofTokens sampleTokens).fields, ∀ g ∈ f :: f.children,
        (g.name.all fun c => decide (Text.isAsciiWord c = true)) = true := by
      decide +kernel
    exact hall f hf g hg)
  distinct := by decide +kernel
  unreserved := by decide +kernel
  enums := by decide +kernel
  items := by decide +kernel
  item := by decide +kernel
  identity := by decide +kernel
  target f hf t ht := Text.forall_mem_of_all (by
    have hall : ∀ f ∈ (Parsed.ofTokens sampleTokens).fields, ∀ t ∈ f.kind.target,
        (t.all fun c => decide (Text.isAsciiWord c = true)) = true := by
      decide +kernel
    exact hall f hf t ht)
  values f hf g hg v hv := Text.forall_mem_of_all (by
    have hall : ∀ f ∈ (Parsed.ofTokens sampleTokens).fields, ∀ g ∈ f :: f.children, ∀ v ∈ g.values,
        (reservedChars.all fun c => decide (c ∉ v)) = true := by
      decide +kernel
    exact hall f hf g hg v hv)

/-- In normal form, a nested field is required unless it is optional. -/
theorem fields_generated_order :
    let b : Blueprint := .ofFields ⟨"order", "Order", "order"⟩ (Parsed.ofTokens sampleTokens).fields false
    fields (Text.unifyNewlines (Interface.file b)) (Text.unifyNewlines (Model.file b)) =
      [⟨"title", true, false, .scalar .string, []⟩,
        ⟨"owner", false, false, .reference (some "user".toList), []⟩,
        ⟨"tags", false, true, .list (some "string".toList) none, []⟩,
        ⟨"state", false, false, .enumeration (some ["new".toList, "it's".toList]), []⟩,
        ⟨"items", true, false, .list none (some objectTag),
          [⟨"sku", true, false, .scalar .string, []⟩,
            ⟨"kind", false, true, .enumeration (some ["a".toList, "b".toList]), []⟩]⟩] := by
  intro b
  have hn : Names.ofRaw? "order" = some ⟨"order", "Order", "order"⟩ := by decide +kernel
  rw [fields_generated false hn (by decide) (Text.forall_mem_of_all (by decide +kernel))
    legible_sampleTokens]
  rfl

end Recovery

end Scaffold
