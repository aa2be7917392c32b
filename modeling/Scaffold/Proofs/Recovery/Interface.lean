import Mathlib.Data.List.Basic
import Mathlib.Tactic.Common
import Scaffold.Proofs.Artifact.Declarations
import Scaffold.Proofs.Text.Encoding
import Scaffold.Recovery.Fields

/-!
# Reading an interface file that was printed

What is read from the interface file of a module are its declarations, up to two things
(`blocks_file`): a declaration whose name has a dollar sign is passed over, and line ends in the
values of enumerations are unified.  Nothing else in a declaration has a line end that needs to be
unified, so interfaces are read as they were printed, with one property for every field whose name
is a word (`properties_lines`).
-/

namespace Scaffold

/-! ## Blueprints that can be written -/

/-- A plan of fields that tokens stand for, with names for identifiers and without braces in
values. -/
structure Blueprint.IsWritable (b : Blueprint) : Prop where
  className : Text.IsName b.names.className
  read : ∀ f ∈ b.fields, f.IsRead
  name : ∀ f ∈ b.fields, ∀ g ∈ f :: f.children, TypeScript.IsIdentifierText g.name
  value : ∀ f ∈ b.fields, ∀ g ∈ f :: f.children, ∀ v ∈ g.values, '{' ∉ v ∧ '}' ∉ v

/-- The fields of an interface: their types are on one line and their names are names. -/
def Interface.ArePrintable (scope : Text) (fs : List Field) : Prop :=
  ∀ f ∈ fs, TypeScript.IsIdentifierText f.name ∧ TypeScript.TypeShape (TypeScript.type scope f)

namespace TypeScript.IsIdentifierText

variable {name : Text}

lemma isName (h : IsIdentifierText name) : Text.IsName name :=
  ⟨h.1, fun c hc => Text.isNameChar_of_isIdentifierRest (h.2 c hc)⟩

lemma isName_scopeOf (h : IsIdentifierText name) (kind : Kind) (children : List Field) :
    Text.IsName (Field.scopeOf name kind children) := by
  unfold Field.scopeOf
  split
  · exact isName_itemTypeName h
  · exact Text.isName_capitalizeFirst h.2 h.1

end TypeScript.IsIdentifierText

namespace Blueprint.IsWritable

variable {b : Blueprint} {f : Field}

lemma arePrintable (h : b.IsWritable) : Interface.ArePrintable [] b.fields := by
  intro f hf
  have hname := h.name f hf f (by simp)
  exact ⟨hname, TypeScript.typeShape_of_isRead (h.read f hf) (by simp) hname⟩

lemma arePrintable_children (h : b.IsWritable) (hf : f ∈ b.fields) :
    Interface.ArePrintable f.scope f.children := by
  intro c hc
  have hname := h.name f hf c (by simp [hc])
  have hscope := (h.name f hf f (by simp)).isName_scopeOf f.kind f.children
  exact ⟨hname, TypeScript.typeShape_of_isReadNested ((h.read f hf).children c hc) hscope.2 hname⟩

lemma visible_children (h : b.IsWritable) (hf : f ∈ b.fields) :
    Field.visible f.children = f.children :=
  Field.visible_eq_self fun c hc => ((h.read f hf).children c hc).visible

/-- A filter is a field whose marker is changed. -/
lemma arePrintable_filterable (h : b.IsWritable) :
    Interface.ArePrintable [] (b.filterable.map fun f => { f with isOptional := true }) := by
  intro g hg
  obtain ⟨f, hf, rfl⟩ := List.mem_map.1 hg
  have hread := h.arePrintable f (List.mem_of_mem_filter hf)
  refine ⟨hread.1, ?_⟩
  have hsame : TypeScript.type [] { f with isOptional := true } = TypeScript.type [] f := by
    obtain ⟨name, isRequired, isOptional, kind, children⟩ := f
    rfl
  rw [hsame]
  exact hread.2

end Blueprint.IsWritable

namespace Interface

open Recovery

/-! ## Properties -/

/-- A field as a property that is read back. -/
def propertyOf (scope : Text) (f : Field) : Property :=
  ⟨f.name, f.isOptional, TypeScript.type scope f⟩

variable {scope : Text} {fs : List Field}

lemma property?_property (h : ArePrintable scope fs) {f : Field} (hf : f ∈ fs) :
    property? (TypeScript.property scope f) =
      if f.name.all Text.isWord then some (propertyOf scope f) else none := by
  obtain ⟨hname, hshape⟩ := h f hf
  by_cases hword : f.name.all Text.isWord = true
  · rw [if_pos hword]
    exact property?_append (List.all_eq_true.1 hword) hname.1 f.isOptional hshape.isType.isTypeLine
  · rw [if_neg hword]
    have hnot : ¬ ∀ c ∈ f.name, Text.isWord c = true := fun h => hword (List.all_eq_true.2 h)
    have htext : ∃ t, TypeScript.property scope f = f.name ++ t := by
      unfold TypeScript.property TypeScript.propertyName
      split
      · exact ⟨['?'] ++ ": " ++ TypeScript.type scope f, by simp only [List.append_assoc]⟩
      · exact ⟨": " ++ TypeScript.type scope f, by simp only [List.append_assoc]⟩
    obtain ⟨t, ht⟩ := htext
    rw [ht]
    exact property?_of_not_word hname.isName.2 hnot t

/-- The lines of an interface, with any members in front of the fields. -/
lemma members_propertyLines (h : ArePrintable scope fs) (ls : List Text)
    (hls : ∀ l ∈ ls, IsMember l) :
    members ('\n' :: (ls.map (fun l => Code.indent 2 (l ++ [';'])) ++
      fs.map (propertyLine scope)).flatMap fun l => l ++ ['\n']) =
      ls ++ fs.map (TypeScript.property scope) := by
  have hmember : ∀ l ∈ ls ++ fs.map (TypeScript.property scope), IsMember l := by
    intro l hl
    rcases List.mem_append.1 hl with hl | hl
    · exact hls l hl
    · obtain ⟨f, hf, rfl⟩ := List.mem_map.1 hl
      obtain ⟨hname, hshape⟩ := h f hf
      exact isMember_property hname.isName.2 hname.1 f.isOptional hshape.isType
  rw [← members_flatMap_lines fun l hl => (hmember l hl).isLine]
  simp only [List.flatMap_append, List.flatMap_map, propertyLine]

lemma filterMap_property (h : ArePrintable scope fs) :
    (fs.map (TypeScript.property scope)).filterMap property? =
      (fs.filter fun f => f.name.all Text.isWord).map (propertyOf scope) := by
  rw [List.filterMap_map]
  induction fs with
  | nil => rfl
  | cons f fs ih =>
    rw [List.filterMap_cons, List.filter_cons, Function.comp, property?_property h (by simp)]
    rw [ih fun g hg => h g (by simp [hg])]
    by_cases hword : f.name.all Text.isWord = true
    · rw [if_pos hword, if_pos hword]
      rfl
    · rw [if_neg hword, if_neg hword]

/-- **An interface is read back** with the fields whose names are words. -/
theorem properties_lines (h : ArePrintable scope fs) :
    properties ('\n' :: (fs.map (propertyLine scope)).flatMap fun l => l ++ ['\n']) =
      (fs.filter fun f => f.name.all Text.isWord).map (propertyOf scope) := by
  have hmembers := members_propertyLines h [] (by simp)
  simp only [List.map_nil, List.nil_append] at hmembers
  rw [properties, hmembers, filterMap_property h]

/-! ## Characters of declarations -/

/-- What stands in the lines of an interface, besides names. -/
def lineChars : Text := "?:; \n[]<>,./"

/-- A character of a property line stands in a name, in a type, or in the punctuation. -/
lemma mem_propertyLines_parts {c : Char}
    (hc : c ∈ (fs.map (propertyLine scope)).flatMap fun l => l ++ ['\n']) :
    c ∈ "?: ;\n".toList ∨ ∃ f ∈ fs, c ∈ f.name ∨ c ∈ TypeScript.type scope f := by
  rw [List.flatMap_map, List.mem_flatMap] at hc
  obtain ⟨f, hf, hc⟩ := hc
  have hparts : (c ∈ f.name ∨ c ∈ TypeScript.type scope f) ∨ c ∈ ['?', ':', ' ', ';', '\n'] := by
    have hproperty : c ∈ TypeScript.propertyName f.isOptional f.name → c ∈ f.name ∨ c = '?' := by
      intro hc
      unfold TypeScript.propertyName at hc
      split at hc
      · simpa using hc
      · exact .inl hc
    simp only [propertyLine, Code.indent, TypeScript.property, List.mem_append, List.mem_replicate,
      List.mem_cons, List.not_mem_nil, or_false] at hc ⊢
    rcases hc with ((⟨-, rfl⟩ | (((hc | hc) | hc) | rfl)) | rfl)
    · tauto
    · rcases hproperty hc with hc | rfl
      · tauto
      · tauto
    · have : c ∈ [':', ' '] := hc
      simp only [List.mem_cons, List.not_mem_nil, or_false] at this
      tauto
    · tauto
    · tauto
    · tauto
  rcases hparts with hc | hc
  · exact .inr ⟨f, hf, hc⟩
  · exact .inl hc

lemma mem_propertyLines (h : ArePrintable scope fs) {c : Char}
    (hc : c ∈ (fs.map (propertyLine scope)).flatMap fun l => l ++ ['\n']) :
    Text.isNameChar c = true ∨ c ∈ lineChars := by
  have hline : ∀ d ∈ "?: ;\n".toList, d ∈ lineChars := Text.forall_mem_of_all (by decide)
  have htype : ∀ d ∈ "[]<>, .".toList, d ∈ lineChars := Text.forall_mem_of_all (by decide)
  rcases mem_propertyLines_parts hc with hc | ⟨f, hf, hc⟩
  · exact .inr (hline c hc)
  · obtain ⟨hname, hshape⟩ := h f hf
    rcases hc with hc | hc
    · exact .inl (hname.isName.2 c hc)
    · exact (hshape.mem hc).imp_right (htype c)

lemma mem_memberLines {values : List Text} {c : Char}
    (hc : c ∈ ((Members.ofValues values).map memberLine).flatMap fun l => l ++ ['\n']) :
    Text.isNameChar c = true ∨ c ∈ " =',\\\n".toList ∨ ∃ v ∈ values, c ∈ v := by
  have hequals : ∀ d ∈ " = ".toList, d ∈ " =',\\\n".toList := Text.forall_mem_of_all (by decide)
  have hkeys := Members.isWord_assign values []
  rw [List.flatMap_map, List.mem_flatMap] at hc
  obtain ⟨m, hm, hc⟩ := hc
  have hvalue : m.2 ∈ values := by
    rw [← Members.map_snd_assign values []]
    exact List.mem_map_of_mem hm
  have hescape : c ∈ m.2.flatMap Literal.escapeChar → c = '\\' ∨ c ∈ m.2 := by
    intro h
    obtain ⟨d, hd, h⟩ := List.mem_flatMap.1 h
    unfold Literal.escapeChar at h
    split at h
    · simp only [List.mem_cons, List.not_mem_nil, or_false] at h
      rcases h with rfl | rfl
      · exact .inl rfl
      · exact .inr hd
    · rw [List.mem_singleton.1 h]
      exact .inr hd
  simp only [memberLine, Code.indent, Literal.quote, List.mem_append, List.mem_replicate,
    List.mem_cons, List.not_mem_nil, or_false] at hc
  rcases hc with (⟨-, rfl⟩ | (((hc | hc) | ((rfl | hc) | rfl)) | rfl)) | rfl
  · exact .inr (.inl (by decide))
  · exact .inl (Text.isNameChar_of_isWord ((hkeys m hm).2 c hc))
  · exact .inr (.inl (hequals c hc))
  · exact .inr (.inl (by decide))
  · rcases hescape hc with rfl | hc
    · exact .inr (.inl (by decide))
    · exact .inr (.inr ⟨m.2, hvalue, hc⟩)
  · exact .inr (.inl (by decide))
  · exact .inr (.inl (by decide))
  · exact .inr (.inl (by decide))

/-! ## The declarations of a blueprint -/

variable {b : Blueprint}

lemma body_filterDeclarations {d : Block} (hd : d ∈ filterDeclarations b) :
    d.kind = .interface ∧ d.name = 'I' :: b.names.className ++ "Filterables" ∧
      d.body = '\n' :: ((Code.indent 2 "searchTerm?: string;" ++ ['\n']) ++
        ((b.filterable.map fun f => { f with isOptional := true }).map
          (propertyLine [])).flatMap fun l => l ++ ['\n']) := by
  unfold filterDeclarations at hd
  split at hd
  · simp at hd
  · rename_i f fs hfilter
    obtain rfl := List.mem_singleton.1 hd
    rw [hfilter, List.map_map]
    exact ⟨rfl, rfl, rfl⟩

/-- The line of the identity, and a comment if there are no fields. -/
def documentHead (b : Blueprint) : Text :=
  (Code.indent 2 "_id: Types.ObjectId;" ++ ['\n']) ++
    if b.fields.isEmpty then Code.indent 2 "// Define interface properties here" ++ ['\n'] else []

lemma body_documentDeclaration (b : Blueprint) :
    (documentDeclaration b).body =
      '\n' :: (documentHead b ++ (b.fields.map (propertyLine [])).flatMap fun l => l ++ ['\n']) := by
  unfold documentDeclaration documentHead Block.ofLines
  cases b.fields with
  | nil => rfl
  | cons f fs => rfl

lemma mem_enumsAt {fs : List Field} {e : Text × List Text} (h : e ∈ fs.flatMap enumsAt) :
    ∃ f ∈ fs, ∃ g ∈ f :: f.children, ∃ scope, e = (Field.enumTypeName scope g.name, g.values) ∧
      (scope = [] ∨ scope = f.scope) ∧ g.values ≠ [] := by
  have hat : ∀ {scope g}, e ∈ enumAt scope g →
      e = (Field.enumTypeName scope g.name, g.values) ∧ g.values ≠ [] := by
    intro scope g he
    unfold enumAt at he
    split at he
    · rename_i hvalues
      exact ⟨List.mem_singleton.1 he, by simpa [Field.hasValues] using hvalues⟩
    · simp at he
  obtain ⟨f, hf, he⟩ := List.mem_flatMap.1 h
  rcases List.mem_append.1 he with he | he
  · obtain ⟨c, hc, he⟩ := List.mem_flatMap.1 he
    obtain ⟨heq, hne⟩ := hat he
    exact ⟨f, hf, c, by simp [hc], f.scope, heq, .inr rfl, hne⟩
  · obtain ⟨heq, hne⟩ := hat he
    exact ⟨f, hf, f, by simp, [], heq, .inl rfl, hne⟩

/-- What stands in a line besides names is a line character. -/
def IsLineText (t : Text) : Prop := ∀ c ∈ t, Text.isNameChar c = true ∨ c ∈ lineChars

lemma IsLineText.not_mem {t : Text} (h : IsLineText t) {c : Char} (hname : Text.isNameChar c = false)
    (hc : c ∉ lineChars) : c ∉ t := by
  intro hmem
  rcases h c hmem with h | h
  · rw [h] at hname
    cases hname
  · exact hc h

lemma IsLineText.append {t u : Text} (ht : IsLineText t) (hu : IsLineText u) : IsLineText (t ++ u) := by
  intro c hc
  rcases List.mem_append.1 hc with hc | hc
  · exact ht c hc
  · exact hu c hc

lemma isLineText_propertyLines (h : ArePrintable scope fs) :
    IsLineText ((fs.map (propertyLine scope)).flatMap fun l => l ++ ['\n']) :=
  fun _ hc => mem_propertyLines h hc

lemma isLineText_newline : IsLineText ['\n'] := Text.forall_mem_of_all (by decide)

lemma isLineText_documentHead : IsLineText (documentHead b) := by
  have hid : IsLineText (Code.indent 2 "_id: Types.ObjectId;") :=
    Text.forall_mem_of_all (by decide)
  have hcomment : IsLineText (Code.indent 2 "// Define interface properties here") :=
    Text.forall_mem_of_all (by decide)
  unfold documentHead
  split
  · exact (hid.append isLineText_newline).append (hcomment.append isLineText_newline)
  · exact (hid.append isLineText_newline).append fun c hc => absurd hc List.not_mem_nil

lemma isLineText_itemDeclaration (h : b.IsWritable) {f : Field} (hf : f ∈ b.fields) :
    IsLineText (itemDeclaration f).body := by
  rw [itemDeclaration, propertyLines, h.visible_children hf]
  exact isLineText_newline.append (isLineText_propertyLines (h.arePrintable_children hf))

lemma isLineText_filterDeclarations (h : b.IsWritable) {d : Block} (hd : d ∈ filterDeclarations b) :
    IsLineText d.body := by
  have hterm : IsLineText (Code.indent 2 "searchTerm?: string;") :=
    Text.forall_mem_of_all (by decide)
  rw [(body_filterDeclarations hd).2.2]
  exact isLineText_newline.append ((hterm.append isLineText_newline).append
    (isLineText_propertyLines h.arePrintable_filterable))

lemma isLineText_documentDeclaration (h : b.IsWritable) :
    IsLineText (documentDeclaration b).body := by
  rw [body_documentDeclaration]
  exact isLineText_newline.append
    (isLineText_documentHead.append (isLineText_propertyLines h.arePrintable))

lemma isFlat_of_isLineText {d : Block} (hname : Text.IsName d.name) (h : IsLineText d.body) :
    d.IsFlat :=
  ⟨hname.1, hname.2, h.not_mem (by decide) (by decide), h.not_mem (by decide) (by decide)⟩

lemma isName_cons_I (h : b.IsWritable) : Text.IsName ('I' :: b.names.className) := by
  refine ⟨List.cons_ne_nil _ _, fun c hc => ?_⟩
  rcases List.mem_cons.1 hc with rfl | hc
  · rfl
  · exact h.className.2 c hc

lemma isName_of_mem_enums (h : b.IsWritable) {e : Text × List Text} (he : e ∈ enums b.fields) :
    Text.IsName e.1 := by
  have hmem := mem_enums he
  rw [enumsAmong_of_isRead h.read] at hmem
  obtain ⟨f, hf, g, hg, scope, rfl, hscope, -⟩ := mem_enumsAt hmem
  have hscopeChars : ∀ c ∈ scope, Text.isNameChar c = true := by
    rcases hscope with rfl | rfl
    · simp
    · exact ((h.name f hf f (by simp)).isName_scopeOf f.kind f.children).2
  exact TypeScript.isName_enumTypeName hscopeChars (h.name f hf g hg)

/-- The values that are declared are values of fields. -/
lemma value_of_mem_enums (h : b.IsWritable) {e : Text × List Text} (he : e ∈ enums b.fields) :
    ∃ f ∈ b.fields, ∃ g ∈ f :: f.children, e.2 = g.values ∧ g.values ≠ [] := by
  have hmem := mem_enums he
  rw [enumsAmong_of_isRead h.read] at hmem
  obtain ⟨f, hf, g, hg, scope, rfl, -, hne⟩ := mem_enumsAt hmem
  exact ⟨f, hf, g, hg, rfl, hne⟩

lemma isFlat_enumDeclaration (h : b.IsWritable) {e : Text × List Text} (he : e ∈ enums b.fields) :
    (enumDeclaration e).IsFlat := by
  have hname := isName_of_mem_enums h he
  obtain ⟨f, hf, g, hg, hvalues, -⟩ := value_of_mem_enums h he
  have hbrace : ∀ c, c = '{' ∨ c = '}' → c ∉ (enumDeclaration e).body := by
    intro c hc
    refine List.not_mem_cons_of_ne_of_not_mem (by rcases hc with rfl | rfl <;> decide) fun hmem => ?_
    rcases mem_memberLines hmem with hmem | hmem | ⟨v, hv, hmem⟩
    · rcases hc with rfl | rfl
      · exact absurd hmem (by decide)
      · exact absurd hmem (by decide)
    · rcases hc with rfl | rfl
      · exact absurd hmem (by decide)
      · exact absurd hmem (by decide)
    · rw [hvalues] at hv
      have hv := h.value f hf g hg v hv
      rcases hc with rfl | rfl
      · exact hv.1 hmem
      · exact hv.2 hmem
  exact ⟨hname.1, hname.2, hbrace '{' (.inl rfl), hbrace '}' (.inr rfl)⟩

lemma isFlat_of_mem_declarations (h : b.IsWritable) {d : Block} (hd : d ∈ declarations b) :
    d.IsFlat := by
  simp only [declarations, List.mem_append, List.mem_map, List.mem_singleton] at hd
  rcases hd with ((⟨f, hf, rfl⟩ | ⟨e, he, rfl⟩) | hd) | rfl
  · rw [Field.nested_eq_filter h.read] at hf
    have hf := List.mem_of_mem_filter hf
    exact isFlat_of_isLineText (TypeScript.isName_itemTypeName (h.name f hf f (by simp)))
      (isLineText_itemDeclaration h hf)
  · exact isFlat_enumDeclaration h he
  · refine isFlat_of_isLineText ?_ (isLineText_filterDeclarations h hd)
    rw [(body_filterDeclarations hd).2.1]
    exact (isName_cons_I h).append (Text.forall_mem_of_all (by decide))
  · exact isFlat_of_isLineText (isName_cons_I h) (isLineText_documentDeclaration h)

/-! ## Reading the file -/

/-- A block as it is read from a file: line ends are unified. -/
def unified (d : Block) : Block := { d with body := Text.unifyNewlines d.body }

lemma unified_of_isLineText {d : Block} (h : IsLineText d.body) : unified d = d := by
  rw [unified, Text.unifyNewlines_eq_self (h.not_mem (by decide) (by decide))]

lemma unifyNewlines_text {d : Block} (h : d.IsFlat) :
    Text.unifyNewlines d.text = (unified d).text := by
  set head := "export ".toList ++ d.kind.keyword ++ ' ' :: d.name ++ [' ', '{'] with hhead
  have hsplit : ∀ body, (⟨d.kind, d.name, body⟩ : Block).text =
      head ++ (body ++ ['}', '\n', '\n']) := by
    intro body
    unfold Block.text Block.core
    rw [List.append_assoc, List.append_assoc, hhead]
    rfl
  have hcr : '\r' ∉ head := by
    have hkind : '\r' ∉ d.kind.keyword := by cases d.kind <;> decide
    have hname : '\r' ∉ d.name := Text.not_mem_of_isNameChar h.name_chars (by decide)
    simp only [hhead, List.mem_append, List.mem_cons, not_or]
    exact ⟨⟨⟨by decide, hkind⟩, by decide, hname⟩, by decide, by decide, List.not_mem_nil⟩
  have hlast : head.getLast? ≠ some '\r' := fun h => hcr (List.mem_of_getLast? h)
  have htext := hsplit d.body
  rw [show (⟨d.kind, d.name, d.body⟩ : Block) = d from rfl] at htext
  rw [unified, htext, hsplit, Text.unifyNewlines_append (.inl hlast), Text.unifyNewlines_eq_self hcr,
    Text.unifyNewlines_append (.inr (by simp)), Text.unifyNewlines_eq_self (t := ['}', '\n', '\n'])
      (by decide)]

lemma unifyNewlines_flatMap_text {ds : List Block} (h : ∀ d ∈ ds, d.IsFlat) (rest : Text) :
    Text.unifyNewlines (ds.flatMap Block.text ++ rest) =
      (ds.map unified).flatMap Block.text ++ Text.unifyNewlines rest := by
  induction ds with
  | nil => rfl
  | cons d ds ih =>
    have hlast : d.text.getLast? ≠ some '\r' := by
      rw [Block.text, List.getLast?_append_of_ne_nil _ (by simp)]
      decide
    rw [List.flatMap_cons, List.append_assoc, Text.unifyNewlines_append (.inl hlast),
      unifyNewlines_text (h d (by simp)), ih fun e he => h e (by simp [he]), List.map_cons,
      List.flatMap_cons, List.append_assoc]

lemma isFlat_unified {d : Block} (h : d.IsFlat) : (unified d).IsFlat := by
  refine ⟨h.name_ne_nil, h.name_chars, fun hmem => ?_, fun hmem => ?_⟩
  · exact h.body_open ((Text.mem_of_mem_unifyNewlines hmem).resolve_left (by decide))
  · exact h.body_close ((Text.mem_of_mem_unifyNewlines hmem).resolve_left (by decide))

/-- The import is passed over. -/
lemma inert_opening : Inert header? opening := by
  have hsplit : opening = "import \x7b".toList ++ ((" Model, Types \x7d from 'mongoose'".toList ++ [';']) ++
      ['\n', '\n']) := rfl
  rw [hsplit]
  exact (inert_header_of_heads (by decide)).append ((inert_header_of_barrier (by decide) (by decide)
    (by decide)).append (inert_header_of_heads (by decide)))

/-- The type of the model is passed over. -/
lemma inert_modelType {n : Names} (h : Text.IsName n.className) :
    Inert header? (modelType n ++ ['\n']) := by
  have hsplit : modelType n ++ ['\n'] = ("export type ".toList ++ n.className ++ "Model = Model".toList ++
      ['<']) ++ (('I' :: n.className ++ [',']) ++ " \x7b\x7d, \x7b\x7d>;\n".toList) := by
    unfold modelType Code.lb Code.rb
    simp only [List.append_assoc]
    rfl
  have hclass : '{' ∉ n.className := Text.not_mem_of_isNameChar h.2 (by decide)
  have hfirst : '{' ∉ "export type ".toList ++ n.className ++ "Model = Model".toList := by
    simp [hclass]
  have hsecond : '{' ∉ 'I' :: n.className := by simp [hclass]
  rw [hsplit]
  exact (inert_header_of_barrier hfirst (by decide) (by decide)).append
    ((inert_header_of_barrier hsecond (by decide) (by decide)).append
      (inert_header_of_heads (by decide)))

/-- **What is read from an interface file** are its declarations that are named by words. -/
theorem blocks_file (h : b.IsWritable) :
    blocks (Text.unifyNewlines (file b)) =
      ((declarations b).map unified).filter fun d => d.name.all Text.isWord := by
  have hflat : ∀ d ∈ (declarations b).map unified, d.IsFlat := by
    intro d hd
    obtain ⟨e, he, rfl⟩ := List.mem_map.1 hd
    exact isFlat_unified (isFlat_of_mem_declarations h he)
  have hopening : opening.getLast? ≠ some '\r' := by decide
  have hcr : '\r' ∉ modelType b.names ++ ['\n'] := by
    have hclass : '\r' ∉ b.names.className := Text.not_mem_of_isNameChar h.className.2 (by decide)
    unfold modelType Code.lb Code.rb
    simp only [List.mem_append, not_or]
    exact ⟨⟨⟨⟨⟨⟨⟨⟨⟨⟨⟨by decide, hclass⟩, by decide⟩, hclass⟩, by decide⟩, by decide⟩, by decide⟩, by decide⟩,
      by decide⟩, by decide⟩, by decide⟩, by decide⟩
  rw [file_eq, Text.unifyNewlines_append (.inl hopening),
    Text.unifyNewlines_eq_self (t := opening) (by decide), unifyNewlines_flatMap_text
      (fun d hd => isFlat_of_mem_declarations h hd), Text.unifyNewlines_eq_self hcr, blocks,
    all_append_of_inert (inert_block inert_opening), ← blocks, blocks_flatMap_text hflat, blocks,
    all_of_inert (inert_block (inert_modelType h.className)), List.append_nil]

end Interface

end Scaffold
