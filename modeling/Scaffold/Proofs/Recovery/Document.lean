import Mathlib.Data.List.Find
import Mathlib.Tactic.Common
import Scaffold.Proofs.Recovery.Interface

/-!
# Which interface is the one of the document

The interfaces of a file are told apart by what occurs in their bodies and names.  The document has
an identity, a line with `_id` and a line with `Types.ObjectId`; so may the items of a list, if one
of their fields is a reference and one of their lines speaks of `_id` (`isIdentified_item`).  Since
the items are declared first, such a list is what is read in place of the document, and it is the
only thing that can be (`mainInterface?_file`).
-/

namespace Scaffold

namespace Recovery

open Interface

/-- Whether the body of an interface speaks of an identity. -/
def isIdentified (body : Text) : Bool := Text.occurs "_id" body && Text.occurs "Types.ObjectId" body

/-- Whether a field refers to documents. -/
def isReference (f : Field) : Bool :=
  match f.kind with
  | .reference _ => true
  | _ => false

/-- Whether the items of a list are taken for a document: one of their fields is a reference, and
one of their lines speaks of an identity. -/
def posesAsDocument (f : Field) : Bool :=
  f.children.any isReference && (propertyLines f.scope f.children).any (Text.occurs "_id")

variable {b : Blueprint} {scope : Text}

/-! ## Phrases in lines -/

lemma occurs_cons_lines {phrase : Text} (hp : phrase ≠ []) (hn : '\n' ∉ phrase) (ls : List Text) :
    Text.occurs phrase ('\n' :: ls.flatMap fun l => l ++ ['\n']) = ls.any (Text.occurs phrase) := by
  have hempty : Text.occurs phrase [] = false := by simpa [Text.occurs] using hp
  have hlines := Text.occurs_lines hp hn ([] :: ls)
  rw [List.flatMap_cons, List.nil_append, List.singleton_append, List.any_cons, hempty,
    Bool.false_or] at hlines
  exact hlines

lemma dot_not_mem_name {t : Text} (ht : ∀ c ∈ t, Text.isNameChar c = true) : '.' ∉ t :=
  Text.not_mem_of_isNameChar ht (by decide)

/-- Among nested fields, only the type of a reference has a dot. -/
lemma dot_not_mem_type {f : Field} (hf : f.IsReadNested) (hname : TypeScript.IsIdentifierText f.name)
    (hscope : ∀ c ∈ scope, Text.isNameChar c = true) (h : isReference f = false) :
    '.' ∉ TypeScript.type scope f := by
  have henum := dot_not_mem_name (TypeScript.isName_enumTypeName hscope hname).2
  obtain ⟨name, isRequired, isOptional, kind, children⟩ := f
  obtain rfl : children = [] := hf.children
  have hkind : kind.IsLeaf := hf.kind
  cases hkind with
  | scalar s =>
    rw [TypeScript.type]
    cases s <;> decide
  | unknown t =>
    rw [TypeScript.type]
    decide
  | enumeration values =>
    rw [TypeScript.type]
    split
    · decide
    · exact henum
  | reference => cases h
  | list =>
    rw [TypeScript.type]
    exact show '.' ∉ "any[]".toList by decide
  | record =>
    rw [TypeScript.type]
    exact show '.' ∉ "Record<string, any>".toList by decide

/-- The line of a nested field names the type of references exactly if the field is one. -/
lemma occurs_objectId_propertyLine {f : Field} (hf : f.IsReadNested)
    (hname : TypeScript.IsIdentifierText f.name) (hscope : ∀ c ∈ scope, Text.isNameChar c = true) :
    Text.occurs "Types.ObjectId" (propertyLine scope f) = isReference f := by
  cases hr : isReference f with
  | true =>
    obtain ⟨name, isRequired, isOptional, kind, children⟩ := f
    obtain ⟨target, rfl⟩ : ∃ target, kind = .reference target := by
      unfold isReference at hr
      split at hr
      · exact ⟨_, ‹_›⟩
      · cases hr
    rw [Text.occurs_iff_isInfix]
    refine ⟨Code.indent 2 (TypeScript.propertyName isOptional name ++ ": "), [';'], ?_⟩
    unfold propertyLine TypeScript.property Code.indent
    rw [TypeScript.type]
    simp only [List.append_assoc]
    rfl
  | false =>
    refine Text.occurs_eq_false_of_not_mem (c := '.') (by decide) ?_
    have htype := dot_not_mem_type hf hname hscope hr
    have hchars := dot_not_mem_name hname.isName.2
    unfold propertyLine TypeScript.property TypeScript.propertyName Code.indent
    split
    all_goals
      simp only [List.mem_append, htype, hchars, or_false, false_or]
      decide

lemma any_objectId_propertyLines {fs : List Field} (hf : ∀ f ∈ fs, f.IsReadNested)
    (hname : ∀ f ∈ fs, TypeScript.IsIdentifierText f.name)
    (hscope : ∀ c ∈ scope, Text.isNameChar c = true) :
    (fs.map (propertyLine scope)).any (Text.occurs "Types.ObjectId") = fs.any isReference := by
  rw [Bool.eq_iff_iff, List.any_map, List.any_eq_true, List.any_eq_true]
  have hiff : ∀ f ∈ fs, Text.occurs "Types.ObjectId" (propertyLine scope f) = isReference f :=
    fun f hmem => occurs_objectId_propertyLine (hf f hmem) (hname f hmem) hscope
  constructor
  · rintro ⟨f, hmem, h⟩
    exact ⟨f, hmem, by rw [← hiff f hmem]; exact h⟩
  · rintro ⟨f, hmem, h⟩
    exact ⟨f, hmem, by rw [Function.comp, hiff f hmem]; exact h⟩

/-! ## Identities -/

/-- **The items of a list are taken for a document** in one case. -/
theorem isIdentified_item (h : b.IsWritable) {f : Field} (hf : f ∈ b.fields) :
    isIdentified (itemDeclaration f).body = posesAsDocument f := by
  have hscope := ((h.name f hf f (by simp)).isName_scopeOf f.kind f.children).2
  have hread : (f.children.map (propertyLine f.scope)).any (Text.occurs "Types.ObjectId") =
      f.children.any isReference :=
    any_objectId_propertyLines (h.read f hf).children (fun g hg => h.name f hf g (by simp [hg])) hscope
  unfold isIdentified posesAsDocument
  rw [itemDeclaration, Block.ofLines, occurs_cons_lines (by decide) (by decide),
    occurs_cons_lines (by decide) (by decide), ← hread, propertyLines, h.visible_children hf, Bool.and_comm]
  rfl

lemma dot_not_mem_filterType {f : Field} (hf : f ∈ b.filterable)
    (hname : TypeScript.IsIdentifierText f.name) : '.' ∉ TypeScript.type [] f := by
  have hempty : ∀ c ∈ ([] : Text), Text.isNameChar c = true := by simp
  have henum := dot_not_mem_name (TypeScript.isName_enumTypeName hempty hname).2
  have hkind := (List.mem_filter.1 hf).2
  obtain ⟨name, isRequired, isOptional, kind, children⟩ := f
  unfold Blueprint.isString Blueprint.isEnumeration at hkind
  rw [Bool.or_eq_true, decide_eq_true_eq] at hkind
  rcases hkind with hkind | hkind
  · obtain rfl : kind = .scalar .string := hkind
    rw [TypeScript.type]
    decide
  · split at hkind
    · rename_i values heq
      obtain rfl : kind = .enumeration values := heq
      rw [TypeScript.type]
      split
      · decide
      · exact henum
    · cases hkind

/-- Filters have no references. -/
lemma isIdentified_filter (h : b.IsWritable) {d : Block} (hd : d ∈ filterDeclarations b) :
    isIdentified d.body = false := by
  have hdot : '.' ∉ d.body := by
    rw [(body_filterDeclarations hd).2.2]
    intro hmem
    rcases List.mem_cons.1 hmem with hmem | hmem
    · cases hmem
    rcases List.mem_append.1 hmem with hmem | hmem
    · exact absurd hmem (by decide)
    · rcases mem_propertyLines_parts hmem with hmem | ⟨g, hg, hmem⟩
      · exact absurd hmem (by decide)
      · obtain ⟨f, hf, rfl⟩ := List.mem_map.1 hg
        have hname := h.name f (List.mem_of_mem_filter hf) f (by simp)
        rcases hmem with hmem | hmem
        · exact dot_not_mem_name hname.isName.2 hmem
        · refine dot_not_mem_filterType hf hname ?_
          obtain ⟨name, isRequired, isOptional, kind, children⟩ := f
          exact hmem
  have hnone : Text.occurs "Types.ObjectId" d.body = false :=
    Text.occurs_eq_false_of_not_mem (c := '.') (by decide) hdot
  rw [isIdentified, hnone, Bool.and_false]

lemma isIdentified_document (b : Blueprint) : isIdentified (documentDeclaration b).body = true := by
  have hhead : Text.occurs "_id" (Code.indent 2 "_id: Types.ObjectId;") = true ∧
      Text.occurs "Types.ObjectId" (Code.indent 2 "_id: Types.ObjectId;") = true := by decide
  unfold isIdentified documentDeclaration
  rw [Block.ofLines, occurs_cons_lines (by decide) (by decide), occurs_cons_lines (by decide) (by decide),
    List.any_cons, List.any_cons, hhead.1, hhead.2]
  rfl

/-! ## The interfaces of a file -/

/-- The declarations that are interfaces. -/
def interfaceDeclarations (b : Blueprint) : List Block :=
  (Field.nested b.fields).map itemDeclaration ++ filterDeclarations b ++ [documentDeclaration b]

lemma kind_of_mem_interfaceDeclarations {d : Block} (hd : d ∈ interfaceDeclarations b) :
    d.kind = .interface := by
  simp only [interfaceDeclarations, List.mem_append, List.mem_map, List.mem_singleton] at hd
  rcases hd with (⟨f, -, rfl⟩ | hd) | rfl
  · rfl
  · exact (body_filterDeclarations hd).1
  · rfl

lemma unified_of_mem_interfaceDeclarations (h : b.IsWritable) {d : Block}
    (hd : d ∈ interfaceDeclarations b) : unified d = d := by
  simp only [interfaceDeclarations, List.mem_append, List.mem_map, List.mem_singleton] at hd
  rcases hd with (⟨f, hf, rfl⟩ | hd) | rfl
  · rw [Field.nested_eq_filter h.read] at hf
    exact unified_of_isLineText (isLineText_itemDeclaration h (List.mem_of_mem_filter hf))
  · exact unified_of_isLineText (isLineText_filterDeclarations h hd)
  · exact unified_of_isLineText (isLineText_documentDeclaration h)

lemma filter_declarations (b : Blueprint) :
    (declarations b).filter (fun d => d.kind = .interface) = interfaceDeclarations b := by
  have hitems : ((Field.nested b.fields).map itemDeclaration).filter (fun d => d.kind = .interface) =
      (Field.nested b.fields).map itemDeclaration :=
    List.filter_eq_self.2 fun d hd => by
      obtain ⟨f, -, rfl⟩ := List.mem_map.1 hd
      rfl
  have henums : ((enums b.fields).map enumDeclaration).filter (fun d => d.kind = .interface) = [] :=
    List.filter_eq_nil_iff.2 fun d hd => by
      obtain ⟨e, -, rfl⟩ := List.mem_map.1 hd
      exact Bool.false_ne_true
  have hfilters : (filterDeclarations b).filter (fun d => d.kind = .interface) = filterDeclarations b :=
    List.filter_eq_self.2 fun d hd => by rw [(body_filterDeclarations hd).1]; rfl
  rw [declarations, List.filter_append, List.filter_append, List.filter_append, hitems, henums, hfilters,
    List.append_nil]
  rfl

/-- **The interfaces of a file** are the interfaces that were printed, if words name them. -/
theorem interfaces_file (h : b.IsWritable) :
    interfaces (blocks (Text.unifyNewlines (file b))) =
      ((interfaceDeclarations b).filter fun d => d.name.all Text.isWord).map fun d => (d.name, d.body) := by
  have hunified : (interfaceDeclarations b).map unified = interfaceDeclarations b := by
    conv_rhs => rw [← List.map_id (interfaceDeclarations b)]
    exact List.map_congr_left fun d hd => unified_of_mem_interfaceDeclarations h hd
  have hkind : ((declarations b).map unified).filter (fun d => d.kind = .interface) =
      interfaceDeclarations b := by
    rw [List.filter_map, ← hunified, ← filter_declarations]
    rfl
  rw [interfaces, blocks_file h, List.filter_comm, hkind]

/-! ## The interface of the document -/

/-- What is taken for the document: the items of a list that poses as one, else the document. -/
def takenForDocument (b : Blueprint) : Block :=
  match (Field.nested b.fields).find? posesAsDocument with
  | some f => itemDeclaration f
  | none => documentDeclaration b

/-- **The main interface** is the one of the document, unless the items of a list pose as one. -/
theorem mainInterface?_file (h : b.IsWritable)
    (hword : ∀ d ∈ interfaceDeclarations b, d.name.all Text.isWord = true) :
    mainInterface? (interfaces (blocks (Text.unifyNewlines (file b)))) =
      some ((takenForDocument b).name, (takenForDocument b).body) := by
  have hitems : ((Field.nested b.fields).map itemDeclaration).find? (fun d => isIdentified d.body) =
      ((Field.nested b.fields).find? posesAsDocument).map itemDeclaration := by
    rw [List.find?_map]
    refine congrArg (Option.map itemDeclaration) (List.find?_congr fun f hf => ?_)
    rw [Field.nested_eq_filter h.read] at hf
    exact isIdentified_item h (List.mem_of_mem_filter hf)
  have hfilters : (filterDeclarations b).find? (fun d => isIdentified d.body) = none :=
    List.find?_eq_none.2 fun d hd => by rw [isIdentified_filter h hd]; simp
  have hfind : (interfaceDeclarations b).find? (fun d => isIdentified d.body) =
      some (takenForDocument b) := by
    unfold interfaceDeclarations takenForDocument
    rw [List.find?_append, List.find?_append, hitems, hfilters, List.find?_cons_of_pos (p := fun d : Block => isIdentified d.body) (isIdentified_document b)]
    cases (Field.nested b.fields).find? posesAsDocument with
    | none => rfl
    | some f => rfl
  rw [interfaces_file h, List.filter_eq_self.2 hword, mainInterface?, List.find?_map]
  show (((interfaceDeclarations b).find? fun d => isIdentified d.body).map _ <|> _) = _
  rw [hfind]
  rfl

end Recovery

end Scaffold
