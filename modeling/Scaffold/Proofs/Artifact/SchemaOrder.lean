import Mathlib.Data.List.Basic
import Mathlib.Tactic.Common
import Scaffold.Artifact.Model
import Scaffold.Artifact.Validation
import Scaffold.Proofs.Artifact.Pieces
import Scaffold.Proofs.Field.Nesting

/-!
# Schemas of items are declared before they are used

The model file and the validation file declare one schema for the items of every list of objects,
and refer to it wherever the list occurs: in the schema of the document, in the schema of other
items, and inside inline objects.  The declarations come from one traversal of the fields
(`Field.nested`), the references from the printers of types, and nothing but the order of the
traversal keeps a reference from standing in front of its declaration.

A text alone does not tell a reference from a literal that is spelled like one, so the two files are
taken apart into pieces: declarations, references, and everything else (`Code.Piece`).  Put together
again the pieces are the files; the references among them are those of the visible lists of objects
(`Field.references`); and each of them comes after its declaration (`declared_before_use`).

Both files are printed in the same way up to the words, which is what a `Dialect` holds.
-/

namespace Scaffold

/-! ## References to lists of objects -/

namespace Field

mutual

/-- The schemas that a field refers to where it is printed: that of its own items, or those of the
visible fields of an inline object. -/
def referencesAt : Field → List Text
  | ⟨name, _, _, kind, children⟩ =>
    match kind with
    | .list _ _ => if structured kind children then [itemSchemaNameOf name] else []
    | .record => references children
    | _ => []
termination_by structural f => f

/-- The schemas that visible fields refer to. -/
def references : List Field → List Text
  | [] => []
  | f :: fs => (if isIdentity f.name then [] else referencesAt f) ++ references fs
termination_by structural fs => fs

end

lemma references_eq_flatMap (fs : List Field) :
    references fs = (visible fs).flatMap referencesAt := by
  induction fs with
  | nil => rfl
  | cons f fs ih =>
    rw [references, ih, visible, visible, List.filter_cons]
    cases isIdentity f.name <;> simp

mutual

/-- A field refers to schemas that are declared at it and below it. -/
lemma referencesAt_subset : ∀ f, referencesAt f ⊆ (nestedIn f).map itemSchemaName
  | ⟨name, isRequired, isOptional, kind, children⟩ => by
    have hchildren := references_subset children
    intro s hs
    rw [nestedIn, List.map_append, List.mem_append]
    unfold referencesAt at hs
    split at hs
    · split at hs
      · rename_i hstructured
        rw [if_pos hstructured]
        exact .inr hs
      · cases hs
    · exact .inl (hchildren hs)
    · cases hs
termination_by structural f => f

/-- Visible fields refer to schemas that are declared among them and below them. -/
lemma references_subset : ∀ fs, references fs ⊆ (nested fs).map itemSchemaName
  | [] => List.nil_subset _
  | f :: fs => by
    have hf := referencesAt_subset f
    have hfs := references_subset fs
    intro s hs
    rw [references, List.mem_append] at hs
    rw [nested, List.map_append, List.mem_append]
    rcases hs with hs | hs
    · split at hs
      · cases hs
      · exact .inl (hf hs)
    · exact .inr (hfs hs)
termination_by structural fs => fs

end

lemma flatMap_referencesAt_subset (fs : List Field) :
    fs.flatMap referencesAt ⊆ (nested fs).map itemSchemaName := by
  intro s hs
  obtain ⟨f, hf, hsf⟩ := List.mem_flatMap.1 hs
  obtain ⟨g, hg, rfl⟩ := List.mem_map.1 (referencesAt_subset f hsf)
  rw [nested_eq_flatMap]
  exact List.mem_map_of_mem (List.mem_flatMap_of_mem hf hg)

open Code

/-! ### Declarations in the order of the traversal -/

/-- Code that declares the schema of the items of a list and refers to what the items refer to. -/
structure DeclaresItems (item : Field → List Piece) : Prop where
  declares : ∀ f, f.itemSchemaName ∈ declarations (item f)
  refersBelow : ∀ f, uses (item f) = references f.children

variable {item : Field → List Piece}

lemma DeclaresItems.map_subset (h : DeclaresItems item) (fs : List Field) :
    fs.map itemSchemaName ⊆ declarations (fs.flatMap item) := by
  induction fs with
  | nil => exact List.nil_subset _
  | cons f fs ih =>
    rw [List.flatMap_cons, declarations_append, List.map_cons]
    exact List.cons_subset.2 ⟨List.mem_append_left _ (h.declares f),
      List.subset_append_of_subset_right _ ih⟩

mutual

lemma scoped_flatMap_nestedIn (h : DeclaresItems item) :
    ∀ (f : Field) (known : List Text), Scoped known ((nestedIn f).flatMap item)
  | ⟨name, isRequired, isOptional, kind, children⟩, known => by
    have hchildren := scoped_flatMap_nested h children known
    rw [nestedIn, List.flatMap_append]
    refine hchildren.append ?_
    split
    · rw [List.flatMap_singleton]
      refine scoped_of_uses fun s hs => List.mem_append_right _ (h.map_subset _ ?_)
      rw [h.refersBelow] at hs
      exact references_subset children hs
    · trivial
termination_by structural f => f

/-- **The traversal declares the schemas of items in a good order**: each comes after those that it
refers to. -/
theorem scoped_flatMap_nested (h : DeclaresItems item) :
    ∀ (fs : List Field) (known : List Text), Scoped known ((nested fs).flatMap item)
  | [], _ => trivial
  | f :: fs, known => by
    rw [nested, List.flatMap_append]
    exact (scoped_flatMap_nestedIn h f known).append (scoped_flatMap_nested h fs _)
termination_by structural fs => fs

end

end Field

/-! ## Printing with pieces -/

open Code

/-- How a language writes the schemas of fields: the type of a field and the expression with its
markers, what stands around the schema of items and around the properties of an inline object, how
the markers are put on a type, and what stands around the declaration of a schema. -/
structure Dialect where
  type : Field → Text
  expression : Bool → Field → Text
  beforeItems : Text
  afterItems : Text
  beforeProperties : Text
  afterProperties : Text
  dress : Bool → Field → List Piece → List Piece
  opening : Text
  closing : Text
  itemFlag : Bool

namespace Dialect

mutual

/-- The pieces of the type of a field. -/
def typePieces (d : Dialect) : Field → List Piece
  | ⟨name, isRequired, isOptional, kind, children⟩ =>
    match kind with
    | .list item target =>
      if Field.structured (.list item target) children then
        [.other d.beforeItems, .used (Field.itemSchemaNameOf name), .other d.afterItems]
      else [.other (d.type ⟨name, isRequired, isOptional, .list item target, children⟩)]
    | .record =>
      if children.isEmpty then [.other (d.type ⟨name, isRequired, isOptional, .record, children⟩)]
      else
        .other d.beforeProperties :: joinPieces ", " (propertyPieces d children) ++
          [.other d.afterProperties]
    | kind => [.other (d.type ⟨name, isRequired, isOptional, kind, children⟩)]
termination_by structural f => f

/-- The pieces of the visible properties of an inline object. -/
def propertyPieces (d : Dialect) : List Field → List (List Piece)
  | [] => []
  | f :: fs =>
    (if Field.isIdentity f.name then []
      else [.other (f.name ++ ": ") :: d.dress false f (typePieces d f)]) ++ propertyPieces d fs
termination_by structural fs => fs

end

/-- The pieces of the line of a field. -/
def line (d : Dialect) (width : Nat) (flag : Bool) (f : Field) : List Piece :=
  .other (indent width (f.name ++ ": ")) :: d.dress flag f (d.typePieces f) ++ [.other [',']]

/-- The lines that declare the schema of the items of a list of objects. -/
def itemLines (d : Dialect) (f : Field) : List (List Piece) :=
  [[.declared f.itemSchemaName, .other d.opening]] ++
    (Field.visible f.children).map (d.line 2 d.itemFlag) ++ plainLines [d.closing, []]

/-- How the pieces of a type can look. -/
inductive Shape (d : Dialect) (f : Field) : List Piece → Prop where
  | plain : Shape d f [.other (d.type f)]
  | items (h : f.isStructuredList = true) :
    Shape d f [.other d.beforeItems, .used f.itemSchemaName, .other d.afterItems]
  | record (ps : List Piece) :
    Shape d f (.other d.beforeProperties :: ps ++ [.other d.afterProperties])

/-- What a dialect says is what its types and expressions are. -/
structure IsFaithful (d : Dialect) : Prop where
  items : ∀ f, f.isStructuredList = true →
    d.type f = d.beforeItems ++ f.itemSchemaName ++ d.afterItems
  record : ∀ f, f.kind = .record → f.children ≠ [] →
    d.type f = d.beforeProperties ++ Text.join ", " ((Field.visible f.children).map fun g =>
      g.name ++ ": " ++ d.expression false g) ++ d.afterProperties
  dress : ∀ flag f ps, d.Shape f ps → pieceText ps = d.type f →
    pieceText (d.dress flag f ps) = d.expression flag f
  uses : ∀ flag f ps, uses (d.dress flag f ps) = uses ps

variable {d : Dialect}

lemma shape_typePieces (d : Dialect) (f : Field) : d.Shape f (d.typePieces f) := by
  obtain ⟨name, isRequired, isOptional, kind, children⟩ := f
  cases kind with
  | list item target =>
    rw [typePieces]
    split
    · exact .items ‹_›
    · exact .plain
  | record =>
    rw [typePieces]
    split
    · exact .plain
    · exact .record _
  | scalar s => exact .plain
  | unknown tag => exact .plain
  | enumeration values => exact .plain
  | reference target => exact .plain

mutual

/-- The pieces of a type are the type. -/
lemma pieceText_typePieces (h : d.IsFaithful) : ∀ f, pieceText (d.typePieces f) = d.type f
  | ⟨name, isRequired, isOptional, kind, children⟩ => by
    have hchildren := map_pieceText_propertyPieces h children
    have hplain : ∀ t : Text, pieceText [.other t] = t := fun t => List.append_nil t
    cases kind with
    | list item target =>
      rw [typePieces]
      split
      · rename_i hs
        rw [h.items ⟨name, isRequired, isOptional, .list item target, children⟩ hs]
        simp [Field.itemSchemaName]
      · exact hplain _
    | record =>
      rw [typePieces]
      split
      · exact hplain _
      · rename_i hne
        have hchildrenNe : children ≠ [] := by simpa using hne
        rw [h.record ⟨name, isRequired, isOptional, .record, children⟩ rfl hchildrenNe, ← hchildren]
        simp [pieceText_joinPieces]
    | scalar s => exact hplain _
    | unknown tag => exact hplain _
    | enumeration values => exact hplain _
    | reference target => exact hplain _
termination_by structural f => f

lemma map_pieceText_propertyPieces (h : d.IsFaithful) :
    ∀ fs, (d.propertyPieces fs).map pieceText =
      (Field.visible fs).map fun g => g.name ++ ": " ++ d.expression false g
  | [] => rfl
  | f :: fs => by
    have hf := h.dress false f _ (d.shape_typePieces f) (pieceText_typePieces h f)
    have hfs := map_pieceText_propertyPieces h fs
    rw [propertyPieces, List.map_append, hfs, Field.visible, Field.visible, List.filter_cons]
    cases Field.isIdentity f.name with
    | true => simp
    | false => simp [hf]
termination_by structural fs => fs

end

mutual

/-- The references in a type are those of its field. -/
lemma uses_typePieces (h : d.IsFaithful) : ∀ f, uses (d.typePieces f) = f.referencesAt
  | ⟨name, isRequired, isOptional, kind, children⟩ => by
    have hchildren := flatMap_uses_propertyPieces h children
    cases kind with
    | list item target =>
      rw [typePieces, Field.referencesAt]
      split
      · rfl
      · rfl
    | record =>
      rw [typePieces, Field.referencesAt]
      split
      · rename_i hnil
        obtain rfl : children = [] := by simpa using hnil
        rfl
      · rw [uses_append, uses_other, uses_joinPieces, hchildren, uses_other, uses_nil,
          List.append_nil]
    | scalar s => rfl
    | unknown tag => rfl
    | enumeration values => rfl
    | reference target => rfl
termination_by structural f => f

lemma flatMap_uses_propertyPieces (h : d.IsFaithful) :
    ∀ fs, (d.propertyPieces fs).flatMap uses = Field.references fs
  | [] => rfl
  | f :: fs => by
    have hf := uses_typePieces h f
    have hfs := flatMap_uses_propertyPieces h fs
    rw [propertyPieces, List.flatMap_append, hfs, Field.references]
    split
    · rfl
    · rw [List.flatMap_singleton, uses_other, h.uses, hf]
termination_by structural fs => fs

end

section

variable (h : d.IsFaithful)
include h

lemma pieceText_line (width : Nat) (flag : Bool) (f : Field) :
    pieceText (d.line width flag f) =
      indent width (f.name ++ ": " ++ d.expression flag f ++ [',']) := by
  have hf := h.dress flag f _ (d.shape_typePieces f) (pieceText_typePieces h f)
  simp [line, hf, indent]

lemma uses_line (width : Nat) (flag : Bool) (f : Field) :
    uses (d.line width flag f) = f.referencesAt := by
  simp [line, h.uses, uses_typePieces h f]

lemma flatMap_uses_line (width : Nat) (flag : Bool) (fs : List Field) :
    (fs.map (d.line width flag)).flatMap uses = fs.flatMap Field.referencesAt := by
  rw [List.flatMap_map]
  simp only [uses_line h]

lemma uses_itemLines (f : Field) :
    (d.itemLines f).flatMap uses = Field.references f.children := by
  simp [itemLines, flatMap_uses_line h, Field.references_eq_flatMap]

end

/-! ### Files -/

/-- The lines of a file that declares the schemas of items before its own. -/
def fileLines (d : Dialect) (head : List Text) (fields : List Field) (body : List (List Piece)) :
    List (List Piece) :=
  plainLines head ++ (Field.nested fields).flatMap d.itemLines ++ body

/-- The lines of the fields of a document, or a remark if there are none. -/
def bodyLines (d : Dialect) (width : Nat) (flag : Bool) (remark : Text) (fields : List Field) :
    List (List Piece) :=
  match fields with
  | [] => plainLines [indent width remark]
  | f :: fs => (f :: fs).map (d.line width flag)

section

variable (h : d.IsFaithful)
include h

lemma declaresItems : Field.DeclaresItems fun f => filePieces (d.itemLines f) where
  declares f := by simp [filePieces, itemLines, declarations]
  refersBelow f := by rw [uses_filePieces, uses_itemLines h]

lemma map_pieceText_bodyLines (width : Nat) (flag : Bool) (remark : Text) (fields : List Field) :
    (d.bodyLines width flag remark fields).map pieceText =
      match fields with
      | [] => [indent width remark]
      | f :: fs => (f :: fs).map fun f =>
        indent width (f.name ++ ": " ++ d.expression flag f ++ [',']) := by
  cases fields with
  | nil => exact map_pieceText_plainLines _
  | cons f fs =>
    rw [bodyLines, List.map_map]
    exact List.map_congr_left fun g _ => pieceText_line h width flag g

lemma uses_bodyLines (width : Nat) (flag : Bool) (remark : Text) (fields : List Field) :
    (d.bodyLines width flag remark fields).flatMap uses = fields.flatMap Field.referencesAt := by
  cases fields with
  | nil => rfl
  | cons f fs => exact flatMap_uses_line h width flag _

lemma map_pieceText_itemLines (f : Field) :
    (d.itemLines f).map pieceText =
      ["const " ++ f.itemSchemaName ++ " =" ++ d.opening] ++
        (Field.visible f.children).map (fun g =>
          indent 2 (g.name ++ ": " ++ d.expression d.itemFlag g ++ [','])) ++ [d.closing, []] := by
  have hlines : (Field.visible f.children).map (pieceText ∘ d.line 2 d.itemFlag) =
      (Field.visible f.children).map fun g =>
        indent 2 (g.name ++ ": " ++ d.expression d.itemFlag g ++ [',']) :=
    List.map_congr_left fun g _ => pieceText_line h 2 d.itemFlag g
  rw [itemLines, List.map_append, List.map_append, List.map_map, map_pieceText_plainLines, hlines]
  simp

omit h in
lemma map_pieceText_fileLines (head : List Text) (fields : List Field)
    (body : List (List Piece)) :
    (d.fileLines head fields body).map pieceText =
      head ++ (Field.nested fields).flatMap (fun f => (d.itemLines f).map pieceText) ++
        body.map pieceText := by
  rw [fileLines, List.map_append, List.map_append, map_pieceText_plainLines, List.map_flatMap]

lemma uses_fileLines (head : List Text) (fields : List Field) (body : List (List Piece)) :
    uses (filePieces (d.fileLines head fields body)) =
      (Field.nested fields).flatMap (fun f => Field.references f.children) ++
        body.flatMap uses := by
  rw [uses_filePieces, fileLines, List.flatMap_append, List.flatMap_append,
    flatMap_uses_plainLines, List.nil_append, List.flatMap_assoc]
  simp only [uses_itemLines h]

/-- A file that declares the schemas of items first, and then refers to those of its own fields,
refers to nothing that is not declared before. -/
theorem declaredFirst_fileLines (head : List Text) {fields : List Field}
    {body : List (List Piece)}
    (hbody : body.flatMap uses ⊆ fields.flatMap Field.referencesAt) :
    DeclaredFirst (filePieces (d.fileLines head fields body)) := by
  have hitems := Field.scoped_flatMap_nested (declaresItems h) fields
    (declarations (filePieces (plainLines head)))
  rw [fileLines, filePieces_append, filePieces_append, filePieces_flatMap]
  refine declaredFirst_of_scoped (Scoped.append (Scoped.append ?_ hitems) ?_)
  · exact scoped_of_uses (by simp [uses_filePieces])
  · refine scoped_of_uses fun s hs => ?_
    rw [uses_filePieces] at hs
    rw [declarations_append]
    exact List.mem_append_right _ (List.mem_append_right _
      ((declaresItems h).map_subset _ (Field.flatMap_referencesAt_subset fields (hbody hs))))

end

end Dialect

/-! ## The two files -/

namespace Mongoose

variable {ps : List Piece}

/-- Pieces without the last two characters, if no reference or declaration is at the end. -/
def shortened (ps : List Piece) : List Piece :=
  match ps.getLast? with
  | some (.other t) => ps.dropLast ++ [.other (t.take (t.length - 2))]
  | _ => ps

/-- The pieces of a literal with modifiers. -/
def dress (mods : List Text) (ps : List Piece) : List Piece :=
  if mods.isEmpty then ps
  else if Text.startsWith ['['] (pieceText ps) then
    .other (['{', ' '] ++ "type: ") :: ps ++ [.other (", " ++ Text.join ", " mods ++ [' ', '}'])]
  else if Text.startsWith typeOpening (pieceText ps) then
    shortened ps ++ [.other (", " ++ Text.join ", " mods ++ [' ', '}'])]
  else ps

/-- How a Mongoose schema is written. -/
def dialect : Dialect where
  type := type
  expression := expression
  beforeItems := ['[']
  afterItems := [']']
  beforeProperties := ['{', ' ']
  afterProperties := [' ', '}']
  dress withDefault f := dress (modifiers withDefault f.isRequired f.kind)
  opening := " new Schema(" ++ lb
  closing := rb ++ ", " ++ Text.braced "_id: false" ++ ");"
  itemFlag := true

lemma uses_shortened (ps : List Piece) : uses (shortened ps) = uses ps := by
  unfold shortened
  split
  · rename_i t hlast
    conv_rhs => rw [← List.dropLast_append_getLast? _ hlast]
    simp
  · rfl

lemma uses_dress (mods : List Text) (ps : List Piece) : uses (dress mods ps) = uses ps := by
  unfold dress
  split
  · rfl
  split
  · simp
  split
  · simp [uses_shortened]
  · rfl

lemma pieceText_shortened {f : Field} (h : dialect.Shape f ps)
    (hlist : Text.startsWith ['['] (pieceText ps) = false) :
    pieceText (shortened ps) = (pieceText ps).take ((pieceText ps).length - 2) := by
  cases h with
  | plain => simp [shortened, dialect]
  | items hs => cases hlist
  | record qs =>
    have hlast : (Piece.other dialect.beforeProperties :: qs ++
        [Piece.other dialect.afterProperties]).getLast? = some (.other dialect.afterProperties) :=
      List.getLast?_concat ..
    have hinit : (Piece.other dialect.beforeProperties :: qs ++
        [Piece.other dialect.afterProperties]).dropLast = .other dialect.beforeProperties :: qs :=
      List.dropLast_concat
    rw [shortened, hlast]
    simp only [hinit]
    simp [dialect]

/-- Modifiers are put on the pieces as on the literal. -/
lemma pieceText_dress (mods : List Text) {f : Field} (h : dialect.Shape f ps) :
    pieceText (dress mods ps) = modified (pieceText ps) mods := by
  unfold dress modified
  split
  · rfl
  split
  · simp [typeLiteral, Text.braced]
  split
  · rename_i hlist _
    rw [pieceText_append, pieceText_shortened h (by simpa using hlist)]
    simp
  · rfl

lemma properties_eq (fs : List Field) :
    properties fs = (Field.visible fs).map fun g => g.name ++ ": " ++ expression false g := by
  induction fs with
  | nil => rfl
  | cons f fs ih =>
    rw [properties, ih, Field.visible, Field.visible, List.filter_cons]
    cases Field.isIdentity f.name <;> simp [expression]

lemma isFaithful_dialect : dialect.IsFaithful where
  items f hs := by
    obtain ⟨name, isRequired, isOptional, kind, children⟩ := f
    cases kind with
    | list item target =>
      have hstructured : Field.structured (.list item target) children = true := hs
      show type _ = _
      rw [type, if_pos hstructured]
      rfl
    | _ => cases hs
  record f hkind hne := by
    obtain ⟨name, isRequired, isOptional, kind, children⟩ := f
    obtain rfl : kind = .record := hkind
    have hempty : children.isEmpty = false := by simpa using hne
    show type _ = _
    rw [type, hempty, properties_eq]
    simp [Text.braced, dialect]
  dress flag f ps hshape htext := by
    have hmods := pieceText_dress (modifiers flag f.isRequired f.kind) hshape
    rwa [htext] at hmods
  uses _ _ ps := uses_dress _ ps

end Mongoose

namespace Zod

/-- How a Zod validator is written. -/
def dialect : Dialect where
  type := type
  expression := expression
  beforeItems := "z.array("
  afterItems := ")"
  beforeProperties := "z.object(" ++ ['{', ' ']
  afterProperties := [' ', '}', ')']
  dress forceOptional f ps :=
    if f.isOptional || forceOptional then ps ++ [.other ".optional()"] else ps
  opening := " z.object(" ++ lb
  closing := rb ++ ");"
  itemFlag := false

lemma properties_eq (fs : List Field) :
    properties fs = (Field.visible fs).map fun g => g.name ++ ": " ++ expression false g := by
  induction fs with
  | nil => rfl
  | cons f fs ih =>
    rw [properties, ih, Field.visible, Field.visible, List.filter_cons]
    cases Field.isIdentity f.name with
    | true => rfl
    | false => simp only [expression, Bool.or_false]; rfl

lemma type_of_structured {f : Field} (h : f.isStructuredList = true) :
    type f = listOf f.itemSchemaName := by
  obtain ⟨name, isRequired, isOptional, kind, children⟩ := f
  cases kind with
  | list item target =>
    unfold type
    exact if_pos h
  | _ => cases h

lemma type_of_record {f : Field} (hkind : f.kind = .record) (hchildren : f.children ≠ []) :
    type f = "z.object(" ++ Text.braced (Text.join ", " (properties f.children)) ++ ")" := by
  obtain ⟨name, isRequired, isOptional, kind, children⟩ := f
  obtain rfl : kind = .record := hkind
  have hempty : ¬children.isEmpty = true := by simpa using hchildren
  unfold type
  exact if_neg hempty

lemma isFaithful_dialect : dialect.IsFaithful where
  items f hs := type_of_structured hs
  record f hkind hchildren := by
    refine (type_of_record hkind hchildren).trans ?_
    rw [properties_eq, dialect, Text.braced]
    simp only [List.cons_append, List.nil_append, List.append_assoc]
    rfl
  dress flag f ps _ htext := by
    show pieceText (if _ then _ else _) = optional _ (type f)
    unfold optional
    split
    · rw [pieceText_append, htext]
      rfl
    · exact htext
  uses flag f ps := by
    show Code.uses (if _ then _ else _) = _
    split
    · simp
    · rfl

end Zod

namespace Model

/-- The pieces of the model file. -/
def pieces (b : Blueprint) : List Piece :=
  let cls := b.names.className
  let folder := b.names.folder
  let document := "<I" ++ cls ++ ", " ++ cls ++ "Model>"
  filePieces (Mongoose.dialect.fileLines
    [importNames ["Schema", "model"] "mongoose",
      importNames ["I" ++ cls, cls ++ "Model"] ("./" ++ folder ++ ".interface"), []]
    b.fields
    (plainLines ["const " ++ folder ++ "Schema = new Schema" ++ document ++ "(" ++ lb] ++
      Mongoose.dialect.bodyLines 2 true "// Define schema fields here" b.fields ++
      plainLines [rb ++ ", " ++ lb, indent 2 "timestamps: true", rb ++ ");", [],
        "export const " ++ cls ++ " = model" ++ document ++ "('" ++ cls ++ "', " ++ folder ++
          "Schema);"]))

lemma map_pieceText_itemLines (f : Field) :
    (Mongoose.dialect.itemLines f).map pieceText = itemLines f := by
  rw [Mongoose.dialect.map_pieceText_itemLines Mongoose.isFaithful_dialect, itemLines]
  simp [Mongoose.dialect, fieldLine]

lemma map_pieceText_bodyLines (fields : List Field) :
    (Mongoose.dialect.bodyLines 2 true "// Define schema fields here" fields).map pieceText =
      match fields with
      | [] => [indent 2 "// Define schema fields here"]
      | f :: fs => (f :: fs).map fieldLine :=
  Dialect.map_pieceText_bodyLines Mongoose.isFaithful_dialect 2 true _ fields

/-- The pieces of the model file are the model file. -/
lemma pieceText_pieces (b : Blueprint) : pieceText (pieces b) = file b := by
  rw [pieces, pieceText_filePieces, file, fileLines, Dialect.map_pieceText_fileLines]
  simp only [List.map_append, map_pieceText_plainLines, map_pieceText_bodyLines,
    map_pieceText_itemLines]
  cases b.fields with
  | nil => simp only [List.append_assoc, List.cons_append, List.nil_append]
  | cons f fs => simp only [List.append_assoc, List.cons_append, List.nil_append]

lemma uses_pieces (b : Blueprint) :
    uses (pieces b) = (Field.nested b.fields).flatMap (fun f => Field.references f.children) ++
      b.fields.flatMap Field.referencesAt := by
  rw [pieces, Dialect.uses_fileLines Mongoose.isFaithful_dialect]
  simp [Dialect.uses_bodyLines Mongoose.isFaithful_dialect]

lemma declaredFirst_pieces (b : Blueprint) : DeclaredFirst (pieces b) := by
  refine Dialect.declaredFirst_fileLines Mongoose.isFaithful_dialect _ ?_
  simp [Dialect.uses_bodyLines Mongoose.isFaithful_dialect]

end Model

namespace Validation

/-- The pieces of the validation file. -/
def pieces (b : Blueprint) : List Piece :=
  let body forceOptional :=
    Zod.dialect.bodyLines 6 forceOptional "// Add validation fields" b.fields
  filePieces (Zod.dialect.fileLines [importNames ["z"] "zod", []] b.fields
    (plainLines [opening ("export const " ++ b.names.className ++ "Validations ="),
        indent 2 ("create" ++ ": z.object(" ++ lb), indent 4 ("body: z.object(" ++ lb)] ++
      body false ++
      plainLines ([closing []] ++ idParams ++ [closing ".optional()", indent 2 (rb ++ "),"), [],
        indent 2 ("update" ++ ": z.object(" ++ lb), indent 4 ("body: z.object(" ++ lb)]) ++
      body true ++
      plainLines ([closing []] ++ idParams ++ [closing [], indent 2 (rb ++ "),"), []] ++
        request "getById" (idParams ++ [closing []]) ++ [[]] ++
        request "getAll"
          [indent 4 ("query: z.object(" ++ lb), indent 6 "page: z.string().optional(),",
            indent 6 "limit: z.string().optional(),", indent 6 "sortBy: z.string().optional(),",
            indent 6 "sortOrder: z.string().optional(),", closing ".optional()"] ++ [[]] ++
        request "delete" (idParams ++ [closing []]) ++ [rb ++ ";"])))

lemma map_pieceText_itemLines (f : Field) :
    (Zod.dialect.itemLines f).map pieceText = itemLines f := by
  have hopening : " = z.object(".toList = " =" ++ " z.object(" := rfl
  rw [Zod.dialect.map_pieceText_itemLines Zod.isFaithful_dialect, itemLines, Zod.dialect, hopening]
  simp only [List.append_assoc]

lemma map_pieceText_bodyLines (forceOptional : Bool) (fields : List Field) :
    (Zod.dialect.bodyLines 6 forceOptional "// Add validation fields" fields).map pieceText =
      bodyLines forceOptional fields :=
  Dialect.map_pieceText_bodyLines Zod.isFaithful_dialect 6 forceOptional _ fields

/-- The pieces of the validation file are the validation file. -/
lemma pieceText_pieces (b : Blueprint) : pieceText (pieces b) = file b := by
  rw [pieces, pieceText_filePieces, file, fileLines, Dialect.map_pieceText_fileLines]
  simp only [List.map_append, map_pieceText_plainLines, map_pieceText_bodyLines,
    map_pieceText_itemLines, bodyRequest, request]
  simp only [List.append_assoc, List.cons_append, List.nil_append]

lemma uses_pieces (b : Blueprint) :
    uses (pieces b) = (Field.nested b.fields).flatMap (fun f => Field.references f.children) ++
      (b.fields.flatMap Field.referencesAt ++ b.fields.flatMap Field.referencesAt) := by
  rw [pieces, Dialect.uses_fileLines Zod.isFaithful_dialect]
  simp [Dialect.uses_bodyLines Zod.isFaithful_dialect]

lemma declaredFirst_pieces (b : Blueprint) : DeclaredFirst (pieces b) := by
  refine Dialect.declaredFirst_fileLines Zod.isFaithful_dialect _ ?_
  simp [Dialect.uses_bodyLines Zod.isFaithful_dialect]

end Validation

namespace Blueprint

/-- **Schemas of items are declared before they are used**, in the model file and in the validation
file.  Each file refers to the schemas that its fields refer to, once for every printed list: the
fields of the items of each nested list, and the fields of the document, which the validation file
prints for creating and for updating. -/
theorem schemas_declared_before_use (b : Blueprint) :
    (pieceText (Model.pieces b) = Model.file b ∧
      uses (Model.pieces b) =
        (Field.nested b.fields).flatMap (fun f => Field.references f.children) ++
          b.fields.flatMap Field.referencesAt ∧
      DeclaredFirst (Model.pieces b)) ∧
    (pieceText (Validation.pieces b) = Validation.file b ∧
      uses (Validation.pieces b) =
        (Field.nested b.fields).flatMap (fun f => Field.references f.children) ++
          (b.fields.flatMap Field.referencesAt ++ b.fields.flatMap Field.referencesAt) ∧
      DeclaredFirst (Validation.pieces b)) := by
  constructor
  · exact ⟨Model.pieceText_pieces b, Model.uses_pieces b, Model.declaredFirst_pieces b⟩
  · exact ⟨Validation.pieceText_pieces b, Validation.uses_pieces b,
      Validation.declaredFirst_pieces b⟩

end Blueprint

end Scaffold
