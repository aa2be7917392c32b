import Mathlib.Data.List.Basic
import Mathlib.Tactic.Common
import Scaffold.Proofs.Artifact.Declarations
import Scaffold.Proofs.Recovery.Entries
import Scaffold.Proofs.Recovery.Kinds

/-!
# Reading a model file that was printed

The schema of the document is the last one of a model file, behind those of the items of lists.  It
is found by the first angle bracket of the file (`mainSchema_file`), so no value in front of it may
have one.  In it every field has an entry on a line of its own, and what is read for a field agrees
with its kind (`exists_schemaOf?`).
-/

namespace Scaffold.Recovery

open Mongoose (attributeText moreText literal keyed attributes typeAttributes listAttributes
  targetAttributes modifierAttributes referencesAttributes)

variable {c : Char} {kind : Kind} {isRequired : Bool}

/-! ## Attributes -/

/-- The characters of attributes that come from neither values nor targets. -/
def attributeChars : Text := "[].',\\ "

/-- Where a character of an attribute comes from. -/
def IsAttributeChar (kind : Kind) (c : Char) : Prop :=
  Text.isNameChar c = true ∨ c ∈ attributeChars ∨ (∃ vs, kind = .enumeration (some vs) ∧ ∃ v ∈ vs, c ∈ v) ∨
    ∃ t, kind.target = some t ∧ c ∈ t

lemma isAttributeChar_of_fixed {t : Text}
    (h : (t.all fun c => decide (Text.isNameChar c = true ∨ c ∈ attributeChars)) = true) :
    ∀ c ∈ t, IsAttributeChar kind c := by
  intro c hc
  rcases Text.forall_mem_of_all h c hc with h | h
  · exact .inl h
  · exact .inr (.inl h)

lemma mem_quote {v : Text} (h : c ∈ Literal.quote v) : c ∈ attributeChars ∨ c ∈ v := by
  have hquote : '\'' ∈ attributeChars := by decide
  have hslash : '\\' ∈ attributeChars := by decide
  simp only [Literal.quote, List.mem_append, List.mem_cons, List.not_mem_nil, or_false] at h
  rcases h with (rfl | h) | rfl
  · exact .inl hquote
  · obtain ⟨d, hd, h⟩ := List.mem_flatMap.1 h
    unfold Literal.escapeChar at h
    split at h
    · simp only [List.mem_cons, List.not_mem_nil, or_false] at h
      rcases h with rfl | rfl
      · exact .inl hslash
      · exact .inr hd
    · rw [List.mem_singleton.1 h]
      exact .inr hd
  · exact .inl hquote

lemma mem_join {separator : Text} {ts : List Text} (h : c ∈ Text.join separator ts) :
    c ∈ separator ∨ ∃ t ∈ ts, c ∈ t := by
  induction ts with
  | nil => simp at h
  | cons t ts ih =>
    cases ts with
    | nil => exact .inr ⟨t, by simp, by simpa using h⟩
    | cons u ts =>
      rw [Text.join_cons_cons, List.mem_append, List.mem_append] at h
      rcases h with (h | h) | h
      · exact .inr ⟨t, by simp, h⟩
      · exact .inl h
      · rcases ih h with h | ⟨w, hw, h⟩
        · exact .inl h
        · exact .inr ⟨w, by simp [hw], h⟩

lemma mem_literalList {vs : List Text} (h : c ∈ Literal.list vs) :
    c ∈ attributeChars ∨ ∃ v ∈ vs, c ∈ v := by
  have hseparator : ∀ d ∈ ", ".toList, d ∈ attributeChars := Text.forall_mem_of_all (by decide)
  simp only [Literal.list, List.mem_append, List.mem_cons, List.not_mem_nil, or_false] at h
  rcases h with (rfl | h) | rfl
  · exact .inl (by decide)
  · rcases mem_join h with h | ⟨t, ht, h⟩
    · exact .inl (hseparator c h)
    · obtain ⟨v, hv, rfl⟩ := List.mem_map.1 ht
      exact (mem_quote h).imp_right fun h => ⟨v, hv, h⟩
  · exact .inl (by decide)

/-- A text that starts with something that is neither blank nor a brace. -/
def StartsPlain (t : Text) : Prop := ∃ c w, t = c :: w ∧ Text.isBlank c = false ∧ c ≠ '{'

/-- What is written for a kind: known keys, and values whose characters are known. -/
def AreWrittenFor (kind : Kind) (as : List (Text × Text)) : Prop :=
  ∀ a ∈ as, a.1 ∈ attributeKeys ∧ StartsPlain a.2 ∧ ∀ c ∈ a.2, IsAttributeChar kind c

lemma areWrittenFor_nil : AreWrittenFor kind [] := fun _ ha => absurd ha List.not_mem_nil

lemma AreWrittenFor.cons {key value : Text} {as : List (Text × Text)} (hkey : key ∈ attributeKeys)
    (hstart : StartsPlain value) (hvalue : ∀ c ∈ value, IsAttributeChar kind c)
    (has : AreWrittenFor kind as) : AreWrittenFor kind (keyed key value :: as) := by
  intro a ha
  rcases List.mem_cons.1 ha with rfl | ha
  · exact ⟨hkey, hstart, hvalue⟩
  · exact has a ha

lemma AreWrittenFor.append {as bs : List (Text × Text)} (has : AreWrittenFor kind as)
    (hbs : AreWrittenFor kind bs) : AreWrittenFor kind (as ++ bs) := by
  intro a ha
  rcases List.mem_append.1 ha with ha | ha
  · exact has a ha
  · exact hbs a ha

lemma areWrittenFor_targetAttributes {target : Option Text} (h : kind.target = target) :
    AreWrittenFor kind (targetAttributes target) := by
  unfold targetAttributes
  split
  · exact areWrittenFor_nil
  · exact areWrittenFor_nil
  · rename_i t _
    refine AreWrittenFor.cons (by decide) ⟨'\'', _, rfl, by decide, by decide⟩ ?_ areWrittenFor_nil
    intro c hc
    simp only [List.mem_append, List.mem_cons, List.not_mem_nil, or_false] at hc
    rcases hc with (rfl | hc) | rfl
    · exact .inr (.inl (by decide))
    · exact .inr (.inr (.inr ⟨t, h, hc⟩))
    · exact .inr (.inl (by decide))

lemma areWrittenFor_type {type : Text} (hstart : StartsPlain type)
    (h : (type.all fun c => decide (Text.isNameChar c = true ∨ c ∈ attributeChars)) = true)
    {as : List (Text × Text)} (has : AreWrittenFor kind as) :
    AreWrittenFor kind (keyed "type" type :: as) :=
  AreWrittenFor.cons (by decide) hstart (isAttributeChar_of_fixed h) has

lemma startsPlain_cons {c : Char} {w : Text} (h : (!Text.isBlank c && c != '{') = true) :
    StartsPlain (c :: w) := by
  simp only [Bool.and_eq_true, Bool.not_eq_true', bne_iff_ne, ne_eq] at h
  exact ⟨c, w, rfl, h.1, h.2⟩

lemma areWrittenFor_listAttributes {item target : Option Text} :
    AreWrittenFor (.list item target) (listAttributes item target) := by
  have hreferences : AreWrittenFor (.list item target) (referencesAttributes target) :=
    areWrittenFor_type (startsPlain_cons (c := '[') (by decide)) (by decide)
      (areWrittenFor_targetAttributes rfl)
  have hmixed : AreWrittenFor (.list item target) [keyed "type" "[Schema.Types.Mixed]"] :=
    areWrittenFor_type (startsPlain_cons (c := '[') (by decide)) (by decide) areWrittenFor_nil
  have hitem : ∀ tag, AreWrittenFor (.list item target)
      [keyed "type" ('[' :: Mongoose.itemName tag ++ [']'])] := by
    intro tag
    refine areWrittenFor_type (startsPlain_cons (c := '[') (by decide)) ?_ areWrittenFor_nil
    unfold Mongoose.itemName
    split
    · rename_i s _
      cases s <;> decide
    · decide
  unfold listAttributes
  split
  · split
    · exact hmixed
    · exact hreferences
  · split
    · exact hmixed
    · exact hreferences
  · split
    · exact hreferences
    · exact hitem _

lemma areWrittenFor_typeAttributes (kind : Kind) : AreWrittenFor kind (typeAttributes kind) := by
  unfold typeAttributes
  split
  · rename_i s
    cases s
    all_goals
      exact areWrittenFor_type (startsPlain_cons (by decide)) (by decide) areWrittenFor_nil
  · exact areWrittenFor_type (startsPlain_cons (by decide)) (by decide) areWrittenFor_nil
  · rename_i v vs
    refine areWrittenFor_type (startsPlain_cons (by decide)) (by decide) ?_
    refine AreWrittenFor.cons (by decide) (startsPlain_cons (c := '[') (by decide)) ?_ areWrittenFor_nil
    intro c hc
    rcases mem_literalList hc with hc | hc
    · exact .inr (.inl hc)
    · exact .inr (.inr (.inl ⟨_, rfl, hc⟩))
  · exact areWrittenFor_type (startsPlain_cons (by decide)) (by decide) areWrittenFor_nil
  · exact areWrittenFor_type (startsPlain_cons (by decide)) (by decide)
      (areWrittenFor_targetAttributes rfl)
  · exact areWrittenFor_listAttributes
  · exact areWrittenFor_type (startsPlain_cons (by decide)) (by decide) areWrittenFor_nil

lemma areWrittenFor_attributes (isRequired : Bool) (kind : Kind) :
    AreWrittenFor kind (attributes isRequired kind) := by
  refine (areWrittenFor_typeAttributes kind).append (AreWrittenFor.append ?_ ?_)
  · split
    · exact AreWrittenFor.cons (by decide) (startsPlain_cons (by decide))
        (isAttributeChar_of_fixed (by decide)) areWrittenFor_nil
    · exact areWrittenFor_nil
  · split
    · rename_i v vs
      refine AreWrittenFor.cons (by decide) (startsPlain_cons (c := '\'') (by decide)) ?_
        areWrittenFor_nil
      intro c hc
      rcases mem_quote hc with hc | hc
      · exact .inr (.inl hc)
      · exact .inr (.inr (.inl ⟨_, rfl, v, by simp, hc⟩))
    · exact areWrittenFor_nil

/-! ## Entries -/

/-- The characters that values must not have. -/
def reservedChars : Text := "\x7b\x7d:<\r"

/-- A kind whose values have no reserved characters and whose target is a word. -/
structure IsPlainlyWritten (kind : Kind) : Prop where
  values : ∀ vs, kind = .enumeration (some vs) → ∀ v ∈ vs, ∀ c ∈ reservedChars, c ∉ v
  target : ∀ t, kind.target = some t → ∀ c ∈ t, Text.isWord c = true

lemma IsPlainlyWritten.not_isAttributeChar (h : IsPlainlyWritten kind) (hc : c ∈ reservedChars) :
    ¬ IsAttributeChar kind c := by
  have hclosed : Text.isNameChar c = false ∧ c ∉ attributeChars ∧ Text.isWord c = false := by
    have hall : ∀ d ∈ reservedChars,
        Text.isNameChar d = false ∧ d ∉ attributeChars ∧ Text.isWord d = false :=
      Text.forall_mem_of_all (by decide)
    exact hall c hc
  obtain ⟨hname, hchar, hword⟩ := hclosed
  rintro (h' | h' | ⟨vs, hkind, v, hv, hmem⟩ | ⟨t, ht, hmem⟩)
  · rw [h'] at hname
    cases hname
  · exact hchar h'
  · exact h.values vs hkind v hv c hc hmem
  · rw [h.target t ht c hmem] at hword
    cases hword

lemma isAttribute_of_mem {as : List (Text × Text)} (h : IsPlainlyWritten kind)
    (has : AreWrittenFor kind as) {a : Text × Text} (ha : a ∈ as) : IsAttribute a := by
  obtain ⟨hkey, hstart, hchars⟩ := has a ha
  exact ⟨hkey, hstart, fun hc => h.not_isAttributeChar (by decide) (hchars _ hc),
    fun hc => h.not_isAttributeChar (by decide) (hchars _ hc)⟩

/-- An angle bracket or a carriage return, which no line of a model file has. -/
def IsForeign (c : Char) : Prop := c = '<' ∨ c = '\r'

lemma IsForeign.not_mem {t : Text} (hc : IsForeign c) (h : '<' ∉ t ∧ '\r' ∉ t) : c ∉ t := by
  rcases hc with rfl | rfl
  · exact h.1
  · exact h.2

lemma IsForeign.not_mem_name {t : Text} (hc : IsForeign c)
    (ht : ∀ c ∈ t, Text.isNameChar c = true) : c ∉ t :=
  hc.not_mem ⟨Text.not_mem_of_isNameChar ht (by decide), Text.not_mem_of_isNameChar ht (by decide)⟩

lemma not_mem_literal {as : List (Text × Text)} (hc : IsForeign c)
    (h : ∀ a ∈ as, a.1 ∈ attributeKeys ∧ c ∉ a.2) : c ∉ literal as := by
  have hattribute : ∀ a ∈ as, c ∉ attributeText a := by
    intro a ha hmem
    obtain ⟨hkey, hvalue⟩ := h a ha
    have hnot : c ∉ a.1 := by
      simp only [attributeKeys, List.mem_cons, List.not_mem_nil, or_false] at hkey
      rcases hkey with h | h | h | h | h <;> rw [h] <;> exact hc.not_mem (by decide)
    rw [attributeText, List.mem_append, List.mem_append] at hmem
    rcases hmem with (hmem | hmem) | hmem
    · exact hnot hmem
    · exact hc.not_mem (by decide) hmem
    · exact hvalue hmem
  intro hmem
  change c ∈ "\x7b ".toList ++ Text.join ", " (as.map attributeText) ++ " \x7d".toList at hmem
  rw [List.mem_append, List.mem_append] at hmem
  rcases hmem with (hmem | hmem) | hmem
  · exact hc.not_mem (by decide) hmem
  · rcases mem_join hmem with hmem | ⟨t, ht, hmem⟩
    · exact hc.not_mem (by decide) hmem
    · obtain ⟨a, ha, rfl⟩ := List.mem_map.1 ht
      exact hattribute a ha hmem
  · exact hc.not_mem (by decide) hmem

lemma not_mem_attributes (hc : IsForeign c) (h : IsPlainlyWritten kind) (isRequired : Bool) :
    c ∉ literal (attributes isRequired kind) := by
  have hreserved : c ∈ reservedChars := by rcases hc with rfl | rfl <;> decide
  refine not_mem_literal hc fun a ha => ?_
  obtain ⟨hkey, -, hchars⟩ := areWrittenFor_attributes isRequired kind a ha
  exact ⟨hkey, fun hmem => h.not_isAttributeChar hreserved (hchars _ hmem)⟩

lemma isName_itemSchemaName {f : Field} (h : TypeScript.IsIdentifierText f.name) :
    Text.IsName f.itemSchemaName :=
  h.isName.append (Text.forall_mem_of_all (by decide))

lemma isAttribute_itemsAttributes {f : Field} (h : TypeScript.IsIdentifierText f.name) :
    ∀ a ∈ Mongoose.itemsAttributes f, IsAttribute a := by
  have hname := isName_itemSchemaName h
  have hnot : ∀ c, Text.isNameChar c = false → c ≠ '[' → c ≠ ']' →
      c ∉ '[' :: f.itemSchemaName ++ [']'] := by
    intro c hc hopen hclose
    have := Text.not_mem_of_isNameChar hname.2 hc
    simp [this, hopen, hclose]
  intro a ha
  simp only [Mongoose.itemsAttributes, List.mem_cons, List.not_mem_nil, or_false] at ha
  rcases ha with rfl | rfl
  · exact ⟨show "type".toList ∈ attributeKeys by decide, startsPlain_cons (c := '[') (by decide), hnot ':' (by decide) (by decide) (by decide),
      hnot '}' (by decide) (by decide) (by decide)⟩
  · exact ⟨by decide, startsPlain_cons (c := 't') (by decide), by decide, by decide⟩

/-- A field as its entry is written: a list of objects or a literal of attributes. -/
lemma expression_of_isRead {f : Field} (h : f.IsRead) :
    (f.isStructuredList = true ∧ f.isRequired = false ∧
      Mongoose.expression true f = '[' :: f.itemSchemaName ++ [']']) ∨
    (f.isStructuredList = true ∧ f.isRequired = true ∧
      Mongoose.expression true f = literal (Mongoose.itemsAttributes f)) ∨
    (f.isStructuredList = false ∧
      Mongoose.expression true f = literal (attributes f.isRequired f.kind)) := by
  by_cases hs : f.isStructuredList = true
  · have hexpression := Mongoose.expression_of_structured (h.objects (h.isStructuredList_iff.1 hs)) hs
    by_cases hr : f.isRequired = true
    · rw [if_pos hr] at hexpression
      exact .inr (.inl ⟨hs, hr, hexpression⟩)
    · rw [if_neg hr] at hexpression
      exact .inl ⟨hs, Bool.eq_false_iff.2 hr, hexpression⟩
  · have hchildren : f.children = [] := by
      by_contra hne
      exact hs (h.isStructuredList_iff.2 hne)
    obtain ⟨name, isRequired, isOptional, kind, children⟩ := f
    obtain rfl : children = [] := hchildren
    exact .inr (.inr ⟨Bool.eq_false_iff.2 hs, Mongoose.expression_eq name isRequired isOptional kind⟩)

lemma isEntry_expression {f : Field} (h : f.IsRead) (hname : TypeScript.IsIdentifierText f.name)
    (hplain : IsPlainlyWritten f.kind) : IsEntry (Mongoose.expression true f) := by
  rcases expression_of_isRead h with ⟨-, -, he⟩ | ⟨-, -, he⟩ | ⟨-, he⟩
  · rw [he]
    have hcolon := Text.not_mem_of_isNameChar (isName_itemSchemaName hname).2 (c := ':') (by decide)
    exact .list (by simp [hcolon])
  · rw [he]
    exact .literal (isAttribute_itemsAttributes hname)
  · rw [he]
    exact .literal fun a ha => isAttribute_of_mem hplain (areWrittenFor_attributes _ _) ha

/-! ## The schema of the document -/

/-- The line of a field in a schema. -/
def fieldEntry (f : Field) : Text := entryLine f.name (Mongoose.expression true f)

lemma fieldLine_eq (f : Field) : Model.fieldLine f ++ ['\n'] = fieldEntry f := by
  unfold Model.fieldLine fieldEntry entryLine Code.indent
  simp only [List.append_assoc]
  rfl

/-- The line with which the schema of the document begins, from the schema on. -/
def schemaOpening (n : Names) : Text :=
  "new Schema<I" ++ n.className ++ ", " ++ n.className ++ "Model>" ++ "(" ++ Code.lb

/-- The lines before the schema of the document. -/
def preludeLines (b : Blueprint) : List Text :=
  [Code.importNames ["Schema", "model"] "mongoose",
    Code.importNames ["I" ++ b.names.className, b.names.className ++ "Model"]
      ("./" ++ b.names.folder ++ ".interface"), []] ++ (Field.nested b.fields).flatMap Model.itemLines

/-- What stands before the schema of the document. -/
def schemaPrelude (b : Blueprint) : Text :=
  ((preludeLines b).flatMap fun l => l ++ ['\n']) ++ ("const " ++ b.names.folder ++ "Schema = ")

/-- The lines behind the fields of the document. -/
def closingLines (n : Names) : List Text :=
  [Code.rb ++ ", " ++ Code.lb, Code.indent 2 "timestamps: true", Code.rb ++ ");", [],
    "export const " ++ n.className ++ " = model<I" ++ n.className ++ ", " ++ n.className ++ "Model>" ++
      "('" ++ n.className ++ "', " ++ n.folder ++ "Schema);"]

lemma fileLines_eq {b : Blueprint} (hne : b.fields ≠ []) :
    Model.fileLines b = (preludeLines b ++ ["const " ++ b.names.folder ++ "Schema = " ++
      schemaOpening b.names] ++ b.fields.map Model.fieldLine ++ closingLines b.names) ++ [[]] := by
  obtain ⟨names, fields, upload⟩ := b
  obtain ⟨f, fs, hfields⟩ := List.exists_cons_of_ne_nil hne
  simp only at hfields
  subst hfields
  unfold Model.fileLines preludeLines schemaOpening closingLines
  simp only [List.append_assoc]
  rfl

lemma file_eq_schema {b : Blueprint} (hne : b.fields ≠ []) :
    Model.file b = schemaPrelude b ++ (schemaOpening b.names ++ ['\n'] ++
      (b.fields.flatMap fieldEntry ++ (closingLines b.names).flatMap fun l => l ++ ['\n'])) := by
  have hentries : (b.fields.map Model.fieldLine).flatMap (fun l => l ++ ['\n']) =
      b.fields.flatMap fieldEntry := by
    rw [List.flatMap_map]
    simp only [fieldLine_eq]
  rw [Model.file, fileLines_eq hne, Text.lines_append_nil, schemaPrelude]
  simp only [List.flatMap_append, hentries, List.flatMap_cons, List.flatMap_nil, List.append_nil,
    List.append_assoc]

/-! ## Blueprints whose model can be read -/

/-- A plan with words for names, each at one place, and with plainly written values and targets. -/
structure IsPlain (b : Blueprint) : Prop extends b.IsWritable where
  folder : ∀ c ∈ b.names.folder, Text.isNameChar c = true
  word : ∀ f ∈ b.fields, ∀ c ∈ f.name, Text.isWord c = true
  distinct : (b.fields.map Field.name).Nodup
  plain : ∀ f ∈ b.fields, ∀ g ∈ f :: f.children, IsPlainlyWritten g.kind

variable {b : Blueprint}

lemma not_mem_fieldLine {f : Field} (hc : IsForeign c) (hname : Text.IsName f.name)
    (hexpression : c ∉ Mongoose.expression true f) : c ∉ Model.fieldLine f := by
  unfold Model.fieldLine Code.indent
  simp only [List.mem_append, not_or]
  exact ⟨hc.not_mem (by decide), ⟨⟨hc.not_mem_name hname.2, hc.not_mem (by decide)⟩, hexpression⟩,
    hc.not_mem (by decide)⟩

lemma not_mem_itemExpression (h : IsPlain b) (hc : IsForeign c) {f : Field} (hf : f ∈ b.fields)
    {g : Field} (hg : g ∈ f.children) : c ∉ Mongoose.expression true g := by
  have hplain := h.plain f hf g (by simp [hg])
  have hread := (h.read f hf).children g hg
  obtain ⟨name, isRequired, isOptional, kind, children⟩ := g
  obtain rfl : children = [] := hread.children
  rw [Mongoose.expression_eq]
  exact not_mem_attributes hc hplain isRequired

lemma not_mem_expression (h : IsPlain b) (hc : IsForeign c) {f : Field} (hf : f ∈ b.fields) :
    c ∉ Mongoose.expression true f := by
  have hschema := hc.not_mem_name (isName_itemSchemaName (h.name f hf f (by simp))).2
  have hlist : c ∉ ['['] ++ f.itemSchemaName ++ [']'] := by
    simp only [List.mem_append, not_or]
    exact ⟨⟨hc.not_mem (by decide), hschema⟩, hc.not_mem (by decide)⟩
  rcases expression_of_isRead (h.read f hf) with ⟨-, -, he⟩ | ⟨-, -, he⟩ | ⟨-, he⟩
  · rw [he]
    exact hlist
  · rw [he]
    refine not_mem_literal hc fun a ha => ?_
    simp only [Mongoose.itemsAttributes, List.mem_cons, List.not_mem_nil, or_false] at ha
    rcases ha with rfl | rfl
    · exact ⟨show "type".toList ∈ attributeKeys by decide, hlist⟩
    · exact ⟨by decide, hc.not_mem (by decide)⟩
  · rw [he]
    exact not_mem_attributes hc (h.plain f hf f (by simp)) _

lemma not_mem_itemLines (h : IsPlain b) (hc : IsForeign c) {f : Field} (hf : f ∈ b.fields)
    {l : Text} (hl : l ∈ Model.itemLines f) : c ∉ l := by
  have hschema := isName_itemSchemaName (h.name f hf f (by simp))
  rw [Model.itemLines, h.visible_children hf] at hl
  simp only [List.mem_append, List.mem_cons, List.not_mem_nil, or_false, List.mem_map] at hl
  rcases hl with (rfl | ⟨g, hg, rfl⟩) | rfl | rfl
  · simp only [List.mem_append, not_or]
    exact ⟨⟨⟨hc.not_mem (by decide), hc.not_mem_name hschema.2⟩, hc.not_mem (by decide)⟩,
      hc.not_mem (by decide)⟩
  · exact not_mem_fieldLine hc (h.name f hf g (by simp [hg])).isName (not_mem_itemExpression h hc hf hg)
  · exact hc.not_mem (by decide)
  · simp

/-- Neither angle brackets nor carriage returns stand before the schema of the document. -/
lemma not_mem_schemaPrelude (h : IsPlain b) (hc : IsForeign c) : c ∉ schemaPrelude b := by
  have hclass := hc.not_mem_name h.className.2
  have hfolder := hc.not_mem_name h.folder
  have hlines : ∀ l ∈ preludeLines b, c ∉ l := by
    intro l hl
    unfold preludeLines at hl
    simp only [List.mem_append, List.mem_cons, List.not_mem_nil, or_false, List.mem_flatMap] at hl
    rcases hl with (rfl | rfl | rfl) | ⟨f, hf, hl⟩
    · exact hc.not_mem (by decide)
    · intro hmem
      unfold Code.importNames Text.braced at hmem
      simp only [Text.join_cons_cons, Text.join_singleton, List.mem_append, List.mem_cons, hclass,
        hfolder, or_false, false_or] at hmem
      revert hmem
      rcases hc with rfl | rfl <;> decide
    · simp
    · rw [Field.nested_eq_filter h.read] at hf
      exact not_mem_itemLines h hc (List.mem_of_mem_filter hf) hl
  have hend : c ∉ ['\n'] := hc.not_mem (by decide)
  unfold schemaPrelude
  simp only [List.mem_append, List.mem_flatMap, not_or, not_exists, not_and]
  refine ⟨fun l hl => ⟨hlines l hl, hend⟩, ⟨hc.not_mem (by decide), hfolder⟩, hc.not_mem (by decide)⟩

/-- No line of a model ends with a carriage return. -/
lemma return_not_mem_file (h : IsPlain b) (hne : b.fields ≠ []) : '\r' ∉ Model.file b := by
  have hc : IsForeign '\r' := .inr rfl
  have hclass := hc.not_mem_name h.className.2
  have hfolder := hc.not_mem_name h.folder
  have hopening : '\r' ∉ schemaOpening b.names := by
    intro hmem
    unfold schemaOpening Code.lb at hmem
    simp only [List.mem_append, hclass, or_false] at hmem
    exact absurd hmem (by decide)
  have hentries : ∀ f ∈ b.fields, '\r' ∉ fieldEntry f := by
    intro f hf
    rw [← fieldLine_eq, List.mem_append, not_or]
    exact ⟨not_mem_fieldLine hc (h.name f hf f (by simp)).isName (not_mem_expression h hc hf),
      by decide⟩
  have hclosing : ∀ l ∈ closingLines b.names, '\r' ∉ l := by
    intro l hl
    unfold closingLines at hl
    simp only [List.mem_cons, List.not_mem_nil, or_false] at hl
    rcases hl with rfl | rfl | rfl | rfl | rfl
    · decide
    · decide
    · decide
    · decide
    · intro hmem
      simp only [List.mem_append, hclass, hfolder, or_false] at hmem
      exact absurd hmem (by decide)
  rw [file_eq_schema hne]
  simp only [List.mem_append, List.mem_flatMap, not_or, not_exists, not_and]
  exact ⟨not_mem_schemaPrelude h hc, ⟨hopening, by decide⟩, hentries,
    fun l hl => ⟨hclosing l hl, by decide⟩⟩

/-- **The schema of the document** begins at the first angle bracket. -/
theorem mainSchema_file (h : IsPlain b) (hne : b.fields ≠ []) :
    mainSchema (Model.file b) = schemaOpening b.names ++ ['\n'] ++
      (b.fields.flatMap fieldEntry ++ (closingLines b.names).flatMap fun l => l ++ ['\n']) := by
  have hopening : ∃ rest, schemaOpening b.names = "new Schema".toList ++ ['<'] ++ rest :=
    ⟨'I' :: b.names.className ++ ", " ++ b.names.className ++ "Model>" ++ "(" ++ Code.lb, by
      unfold schemaOpening
      simp only [List.append_assoc]
      rfl⟩
  obtain ⟨rest, hrest⟩ := hopening
  have hcut := Text.cut?_append_of_last (q := "new Schema".toList) (c := '<') (by decide)
    (not_mem_schemaPrelude h (.inl rfl)) (rest ++ (['\n'] ++ (b.fields.flatMap fieldEntry ++
      (closingLines b.names).flatMap fun l => l ++ ['\n'])))
  have htext : schemaOpening b.names ++ ['\n'] ++
      (b.fields.flatMap fieldEntry ++ (closingLines b.names).flatMap fun l => l ++ ['\n']) =
      "new Schema".toList ++ ['<'] ++ (rest ++ (['\n'] ++ (b.fields.flatMap fieldEntry ++
        (closingLines b.names).flatMap fun l => l ++ ['\n']))) := by
    rw [hrest]
    simp only [List.append_assoc]
  rw [mainSchema, file_eq_schema hne, htext, show "new Schema<".toList = "new Schema".toList ++ ['<'] from rfl,
    hcut]

/-! ## What the entries say -/

lemma key_of_mem_modifierAttributes {a : Text × Text} (ha : a ∈ modifierAttributes isRequired kind) :
    (a.1 = "required" ∧ isRequired = true) ∨ a.1 = "default" := by
  unfold modifierAttributes at ha
  rcases List.mem_append.1 ha with ha | ha
  · split at ha
    · rename_i hr
      rw [List.mem_singleton.1 ha]
      exact .inl ⟨rfl, hr⟩
    · simp at ha
  · split at ha
    · rw [List.mem_singleton.1 ha]
      exact .inr rfl
    · simp at ha

lemma key_of_mem_targetAttributes {target : Option Text} {a : Text × Text}
    (ha : a ∈ targetAttributes target) : a.1 = "ref" := by
  unfold targetAttributes at ha
  split at ha
  · simp at ha
  · simp at ha
  · rw [List.mem_singleton.1 ha]
    rfl

lemma key_of_mem_listAttributes {item target : Option Text} {a : Text × Text}
    (ha : a ∈ listAttributes item target) : a.1 = "type" ∨ a.1 = "ref" := by
  have hreferences : a ∈ referencesAttributes target → a.1 = "type" ∨ a.1 = "ref" := by
    intro ha
    rcases List.mem_cons.1 ha with rfl | ha
    · exact .inl rfl
    · exact .inr (key_of_mem_targetAttributes ha)
  have hone : ∀ t, a ∈ [keyed "type" t] → a.1 = "type" ∨ a.1 = "ref" := by
    intro t ha
    rw [List.mem_singleton.1 ha]
    exact .inl rfl
  unfold listAttributes at ha
  split at ha
  · split at ha
    · exact hone _ ha
    · exact hreferences ha
  · split at ha
    · exact hone _ ha
    · exact hreferences ha
  · split at ha
    · exact hreferences ha
    · exact hone _ ha

/-- Besides the type there are a target and values, and only an enumeration has values. -/
lemma key_of_mem_typeAttributes {a : Text × Text} (ha : a ∈ typeAttributes kind) :
    a.1 = "type" ∨ a.1 = "ref" ∨ (a.1 = "enum" ∧ ∃ v vs, kind = .enumeration (some (v :: vs))) := by
  have hone : ∀ t, a ∈ [keyed "type" t] → a.1 = "type" := by
    intro t ha
    rw [List.mem_singleton.1 ha]
    rfl
  unfold typeAttributes at ha
  split at ha
  · exact .inl (hone _ ha)
  · exact .inl (hone _ ha)
  · rename_i v vs
    rcases List.mem_cons.1 ha with rfl | ha
    · exact .inl rfl
    · rw [List.mem_singleton.1 ha]
      exact .inr (.inr ⟨rfl, v, vs, rfl⟩)
  · exact .inl (hone _ ha)
  · rcases List.mem_cons.1 ha with rfl | ha
    · exact .inl rfl
    · exact .inr (.inl (key_of_mem_targetAttributes ha))
  · exact (key_of_mem_listAttributes ha).imp_right .inl
  · exact .inl (hone _ ha)

lemma key_ne_enum (h : ∀ v vs, kind ≠ .enumeration (some (v :: vs))) {a : Text × Text}
    (ha : a ∈ attributes isRequired kind) : a.1 ≠ "enum" := by
  have hclosed : "type".toList ≠ "enum".toList ∧ "ref".toList ≠ "enum".toList ∧
      "required".toList ≠ "enum".toList ∧ "default".toList ≠ "enum".toList := by decide
  obtain ⟨htype, href, hrequired, hdefault⟩ := hclosed
  rcases List.mem_append.1 ha with ha | ha
  · rcases key_of_mem_typeAttributes ha with ha | ha | ⟨-, v, vs, hkind⟩
    · rwa [ha]
    · rwa [ha]
    · exact absurd hkind (h v vs)
  · rcases key_of_mem_modifierAttributes ha with ⟨ha, -⟩ | ha
    · rwa [ha]
    · rwa [ha]

lemma key_ne_required {a : Text × Text} (ha : a ∈ attributes false kind) : a.1 ≠ "required" := by
  have hclosed : "type".toList ≠ "required".toList ∧ "ref".toList ≠ "required".toList ∧
      "enum".toList ≠ "required".toList ∧ "default".toList ≠ "required".toList := by decide
  obtain ⟨htype, href, henum, hdefault⟩ := hclosed
  rcases List.mem_append.1 ha with ha | ha
  · rcases key_of_mem_typeAttributes ha with ha | ha | ⟨ha, -⟩
    · rwa [ha]
    · rwa [ha]
    · rwa [ha]
  · rcases key_of_mem_modifierAttributes ha with ⟨-, hr⟩ | ha
    · cases hr
    · rwa [ha]

/-- What a kind points to in its normal form is written behind the type, or there is no target. -/
inductive WritesTarget (kind : Kind) : List (Text × Text) → Prop
  | absent {as : List (Text × Text)} : kind.normal.target = none → (∀ a ∈ as, a.1 ≠ "ref") →
      WritesTarget kind as
  | behind (type t : Text) (as : List (Text × Text)) : kind.normal.target = some t → kind.target = some t →
      t ≠ [] → WritesTarget kind (keyed "type" type :: keyed "ref" ('\'' :: t ++ ['\'']) :: as)

lemma WritesTarget.append {as bs : List (Text × Text)} (has : WritesTarget kind as)
    (hbs : ∀ a ∈ bs, a.1 ≠ "ref") : WritesTarget kind (as ++ bs) := by
  cases has with
  | absent hnone has => exact .absent hnone fun a ha => (List.mem_append.1 ha).elim (has a) (hbs a)
  | behind type t rest hnormal htarget hne => exact .behind type t (rest ++ bs) hnormal htarget hne

lemma WritesTarget.of_type (hnormal : kind.normal.target = none) (type : Text) :
    WritesTarget kind [keyed "type" type] := by
  refine .absent hnormal fun a ha => ?_
  rw [List.mem_singleton.1 ha]
  exact show "type".toList ≠ "ref".toList by decide

/-- An empty target would be passed over, and one is written only where the normal form keeps it. -/
lemma WritesTarget.of_target {target : Option Text} (hnormal : kind.normal.target = target)
    (htarget : kind.target = target) (hne : target ≠ some []) (type : Text) :
    WritesTarget kind (keyed "type" type :: targetAttributes target) := by
  rcases target with _ | _ | ⟨c, t⟩
  · exact .of_type hnormal type
  · exact absurd rfl hne
  · exact .behind type (c :: t) [] hnormal htarget (List.cons_ne_nil _ _)

lemma writesTarget_leaf (hkind : kind.IsLeaf) : WritesTarget kind (typeAttributes kind) := by
  cases hkind with
  | scalar s => exact .of_type rfl _
  | unknown t => exact .of_type rfl _
  | enumeration values =>
    rcases values with _ | _ | ⟨v, vs⟩
    · exact .of_type rfl _
    · exact .of_type rfl _
    · refine .append (.of_type rfl "String") fun a ha => ?_
      rw [List.mem_singleton.1 ha]
      exact show "enum".toList ≠ "ref".toList by decide
  | reference => exact .of_type rfl _
  | list => exact .of_type rfl _
  | record => exact .of_type rfl _

/-- A list without a tag refers to its target unless it has none or lists objects; one with a tag has a target
only if the tag is that of references. -/
lemma writesTarget_list {item target : Option Text} (hitem : item ≠ some []) (htarget : target ≠ some []) :
    WritesTarget (.list item target) (listAttributes item target) := by
  have hreferences (hnormal : (Kind.list item target).normal.target = target) :
      WritesTarget (.list item target) (referencesAttributes target) :=
    .of_target hnormal rfl htarget "[Schema.Types.ObjectId]"
  rcases item with _ | _ | ⟨c, tag⟩
  · by_cases hany : (target.isNone || Field.targetsObject target) = true
    · have hbranch : (target.isNone || target = some [] || Field.targetsObject target) = true := by
        simp only [Bool.or_eq_true] at hany ⊢
        tauto
      rw [listAttributes, if_pos hbranch]
      exact .of_type (by rw [Kind.normal, if_pos hany]; rfl) _
    · have hbranch : ¬ (target.isNone || target = some [] || Field.targetsObject target) = true := by
        simpa [htarget] using hany
      rw [listAttributes, if_neg hbranch]
      exact hreferences (by rw [Kind.normal, if_neg hany]; rfl)
  · exact absurd rfl hitem
  · unfold listAttributes
    by_cases hid : c :: tag = objectIdTag
    · simp only [if_pos hid]
      exact hreferences (by rw [Kind.normal, if_pos hid]; rfl)
    · simp only [if_neg hid]
      exact .of_type (by rw [Kind.normal, if_neg hid]; rfl) _

/-- **The target of a kind** is the attribute behind the type. -/
lemma writesTarget_attributes (hkind : kind.IsProper) (isRequired : Bool) :
    WritesTarget kind (attributes isRequired kind) := by
  have hmodifiers : ∀ a ∈ modifierAttributes isRequired kind, a.1 ≠ "ref" := by
    have hclosed : "required".toList ≠ "ref".toList ∧ "default".toList ≠ "ref".toList := by decide
    intro a ha
    rcases key_of_mem_modifierAttributes ha with ⟨ha, -⟩ | ha
    · rw [ha]
      exact hclosed.1
    · rw [ha]
      exact hclosed.2
  refine WritesTarget.append ?_ hmodifiers
  cases hkind with
  | leaf hleaf => exact writesTarget_leaf hleaf
  | reference t ht =>
    have hnormal : (Kind.reference (some t)).normal.target = some t := rfl
    exact .of_target hnormal rfl (by simpa using ht) "Schema.Types.ObjectId"
  | list item target hitem htarget => exact writesTarget_list hitem htarget

/-! ## Looking up a field -/

/-- What is read for a literal of attributes agrees with the kind it is written for. -/
lemma agrees_ofText (hkind : kind.IsProper) (hplain : IsPlainlyWritten kind) (isRequired : Bool) :
    Agrees (some (.ofText (inside (attributes isRequired kind)))) kind ∧
      (SchemaEntry.ofText (inside (attributes isRequired kind))).isRequired = isRequired := by
  have hwritten := areWrittenFor_attributes isRequired kind
  have hattribute : ∀ a ∈ attributes isRequired kind, IsAttribute a :=
    fun a ha => isAttribute_of_mem hplain hwritten ha
  refine ⟨⟨?_, ?_⟩, ?_⟩
  · rintro hvalues e he
    rw [← Option.some.inj he]
    exact values_ofText fun a ha => ⟨hattribute a ha, key_ne_enum hvalues ha⟩
  · show (SchemaEntry.ofText _).target = _
    have hmem := writesTarget_attributes hkind isRequired
    generalize hwrites : attributes isRequired kind = as at hmem hattribute
    cases hmem with
    | absent hnone hkeys =>
      rw [hnone]
      exact target_ofText_eq_none fun a ha => ⟨hattribute a ha, hkeys a ha⟩
    | behind type t as hsome htarget hne =>
      rw [hsome]
      exact target_ofText (hattribute _ (by simp)) (hplain.target t htarget) hne
  · cases isRequired with
    | true => exact isRequired_ofText (List.mem_append_right _ (by simp [modifierAttributes]))
    | false => exact isRequired_ofText_eq_false fun a ha => ⟨hattribute a ha, key_ne_required ha⟩

lemma agrees_itemsAttributes {f : Field} (hname : TypeScript.IsIdentifierText f.name) :
    Agrees (some (.ofText (inside (Mongoose.itemsAttributes f)))) (.list none (some objectTag)) ∧
      (SchemaEntry.ofText (inside (Mongoose.itemsAttributes f))).isRequired = true := by
  have hattribute := isAttribute_itemsAttributes hname
  have hkeys : ∀ a ∈ Mongoose.itemsAttributes f, a.1 ≠ "enum" ∧ a.1 ≠ "ref" := by
    intro a ha
    simp only [Mongoose.itemsAttributes, List.mem_cons, List.not_mem_nil, or_false] at ha
    rcases ha with rfl | rfl
    · exact show "type".toList ≠ "enum".toList ∧ "type".toList ≠ "ref".toList by decide
    · exact show "required".toList ≠ "enum".toList ∧ "required".toList ≠ "ref".toList by decide
  have hnormal : (Kind.list none (some objectTag)).normal.target = none := by decide
  refine ⟨⟨?_, ?_⟩, isRequired_ofText (by simp [Mongoose.itemsAttributes])⟩
  · rintro - e he
    rw [← Option.some.inj he]
    exact values_ofText fun a ha => ⟨hattribute a ha, (hkeys a ha).1⟩
  · rw [hnormal]
    exact target_ofText_eq_none fun a ha => ⟨hattribute a ha, (hkeys a ha).2⟩

lemma agrees_list : Agrees (some ⟨[], none, false⟩) (.list none (some objectTag)) := by
  refine ⟨?_, by decide⟩
  rintro - e he
  rw [← Option.some.inj he]

/-- The start and the end of the schema hold no entries. -/
lemma silent_opening {name : Text} (hname : ∀ c ∈ name, Text.isWord c = true) (h : IsPlain b)
    (before : Option Char) : Silent (bracedValue? name) before (schemaOpening b.names ++ ['\n']) := by
  have hclass : ':' ∉ b.names.className := Text.not_mem_of_isNameChar h.className.2 (by decide)
  have hcolon : ':' ∉ schemaOpening b.names := by
    intro hmem
    unfold schemaOpening Code.lb at hmem
    simp only [List.mem_append, hclass, or_false] at hmem
    exact absurd hmem (by decide)
  exact silent_of_quiet hname ((quiet_of_not_mem hcolon).append (quiet_of_not_mem (by decide)))
    (by decide)

lemma silent_closing {name : Text} (hname : ∀ c ∈ name, Text.isWord c = true) (h : IsPlain b)
    (before : Option Char) :
    Silent (bracedValue? name) before ((closingLines b.names).flatMap fun l => l ++ ['\n']) := by
  have hclass : ':' ∉ b.names.className := Text.not_mem_of_isNameChar h.className.2 (by decide)
  have hfolder : ':' ∉ b.names.folder := Text.not_mem_of_isNameChar h.folder (by decide)
  have hquiet : ∀ l ∈ closingLines b.names, Quiet l := by
    intro l hl
    unfold closingLines at hl
    simp only [List.mem_cons, List.not_mem_nil, or_false] at hl
    rcases hl with rfl | rfl | rfl | rfl | rfl
    · exact quiet_of_not_mem (by decide)
    · exact quiet_keyed (t := "  timestamps".toList) (v := "true".toList) (by decide) (by decide)
        ⟨'t', "rue".toList, rfl, by decide, by decide⟩
    · exact quiet_of_not_mem (by decide)
    · exact quiet_of_not_mem (by decide)
    · refine quiet_of_not_mem fun hmem => ?_
      simp only [List.mem_append, hclass, hfolder, or_false] at hmem
      exact absurd hmem (by decide)
  refine silent_flatMap fun l hl before => ?_
  exact silent_of_quiet hname ((hquiet l hl).append (quiet_of_not_mem (by decide))) (by decide)

/-- The other entries of the schema of the document say nothing of a field. -/
lemma exists_mainSchema_eq (h : IsPlain b) {f : Field} (hf : f ∈ b.fields) :
    ∃ p q, mainSchema (Model.file b) = p ++ (fieldEntry f ++ q) ∧ Silent (bracedValue? f.name) none p ∧
      ∀ before, Silent (bracedValue? f.name) before q := by
  have hword := h.word f hf
  obtain ⟨xs, ys, hfields⟩ := List.append_of_mem hf
  have hdistinct := h.distinct
  rw [hfields, List.map_append, List.map_cons, List.nodup_append] at hdistinct
  have hentries : ∀ gs : List Field, (∀ g ∈ gs, g ∈ b.fields ∧ g.name ≠ f.name) →
      ∀ before, Silent (bracedValue? f.name) before (gs.flatMap fieldEntry) := by
    refine fun gs hgs before => silent_flatMap fun g hg before => ?_
    obtain ⟨hg, hne⟩ := hgs g hg
    exact silent_line hword (h.read f hf).name_ne_nil (h.word g hg) hne
      (isEntry_expression (h.read g hg) (h.name g hg g (by simp)) (h.plain g hg g (by simp)))
  have hxs := hentries xs fun g hg =>
    ⟨by rw [hfields]; simp [hg], hdistinct.2.2 g.name (List.mem_map_of_mem hg) f.name (by simp)⟩
  have hys := hentries ys fun g hg =>
    ⟨by rw [hfields]; simp [hg], fun heq => (List.nodup_cons.1 hdistinct.2.1).1 (heq ▸ List.mem_map_of_mem hg)⟩
  refine ⟨schemaOpening b.names ++ ['\n'] ++ xs.flatMap fieldEntry,
    ys.flatMap fieldEntry ++ (closingLines b.names).flatMap fun l => l ++ ['\n'], ?_,
    (silent_opening hword h none).append (hxs _), fun before => (hys _).append (silent_closing hword h _)⟩
  rw [mainSchema_file h (List.ne_nil_of_mem hf)]
  conv_lhs => rw [hfields]
  rw [List.flatMap_append, List.flatMap_cons]
  simp only [List.append_assoc]

/-- **Every field is found** in the schema of the document, with what its kind says. -/
theorem exists_schemaOf? (h : IsPlain b) {f : Field} (hf : f ∈ b.fields) :
    ∃ e, schemaOf? f.name (mainSchema (Model.file b)) = some e ∧ Agrees (some e) f.kind ∧
      e.isRequired = f.isRequired := by
  have hread := h.read f hf
  have hword := h.word f hf
  have hident := h.name f hf f (by simp)
  obtain ⟨p, q, hschema, hp, hq⟩ := exists_mainSchema_eq h hf
  rw [hschema, fieldEntry]
  rcases expression_of_isRead hread with ⟨hs, hr, he⟩ | ⟨hs, hr, he⟩ | ⟨hs, he⟩
  · have hkind := hread.objects (hread.isStructuredList_iff.1 hs)
    have hcolon : ':' ∉ f.itemSchemaName ++ [']'] := by
      have := Text.not_mem_of_isNameChar (isName_itemSchemaName hident).2 (c := ':') (by decide)
      simp [this]
    -- a list is looked for only where no entry in braces is found, in the whole schema
    have hsilent : Silent (bracedValue? f.name) none
        (p ++ (entryLine f.name ('[' :: (f.itemSchemaName ++ [']'])) ++ q)) :=
      hp.append ((silent_list hword hword hcolon).append (hq _))
    refine ⟨⟨[], none, false⟩, ?_, by rw [hkind]; exact agrees_list, hr.symm⟩
    rw [he]
    exact schemaOf?_list _ _ hsilent
  · have hkind := hread.objects (hread.isStructuredList_iff.1 hs)
    obtain ⟨hagree, hrequired⟩ := agrees_itemsAttributes hident
    refine ⟨_, ?_, by rw [hkind]; exact hagree, by rw [hrequired, hr]⟩
    rw [he]
    exact schemaOf?_literal hword hp (isAttribute_itemsAttributes hident) _
  · obtain ⟨hagree, hrequired⟩ := agrees_ofText hread.kind (h.plain f hf f (by simp)) f.isRequired
    refine ⟨_, ?_, hagree, hrequired⟩
    rw [he]
    exact schemaOf?_literal hword hp
      (fun a ha => isAttribute_of_mem (h.plain f hf f (by simp)) (areWrittenFor_attributes _ _) ha) _

end Scaffold.Recovery
