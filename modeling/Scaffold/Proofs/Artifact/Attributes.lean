import Mathlib.Data.List.Basic
import Mathlib.Tactic.Common
import Scaffold.Artifact.Model
import Scaffold.Proofs.Artifact.TypeTexts

/-!
# Entries of a schema as lists of attributes

The entry of a field in a schema is a literal with one attribute after the other, the type first.
Printing goes a different way: the literal of the type is made first, and modifiers are put into it
by taking off its closing brace.  Both come to the same (`expression_eq`), and the list of attributes
is the form in which entries are read.
-/

namespace Scaffold.Mongoose

/-- An attribute with a key and a value. -/
def keyed (key value : Text) : Text × Text := (key, value)

/-- An attribute as it is written. -/
def attributeText (a : Text × Text) : Text := a.1 ++ ": " ++ a.2

/-- Attributes as they are written behind another one. -/
def moreText (as : List (Text × Text)) : Text := as.flatMap fun a => ',' :: ' ' :: attributeText a

/-- A literal with attributes. -/
def literal (as : List (Text × Text)) : Text := Text.braced (Text.join ", " (as.map attributeText))

/-- The attributes of a target. -/
def targetAttributes : Option Text → List (Text × Text)
  | none | some [] => []
  | some target => [keyed "ref" ('\'' :: target ++ ['\''])]

/-- A list of references to a target. -/
def referencesAttributes (target : Option Text) : List (Text × Text) :=
  keyed "type" "[Schema.Types.ObjectId]" :: targetAttributes target

/-- The attributes of a list that is no list of objects. -/
def listAttributes (item target : Option Text) : List (Text × Text) :=
  match item with
  | none | some [] =>
    if target.isNone || target = some [] || Field.targetsObject target then
      [keyed "type" "[Schema.Types.Mixed]"]
    else referencesAttributes target
  | some tag =>
    if tag = objectIdTag then referencesAttributes target
    else [keyed "type" ('[' :: itemName tag ++ [']'])]

/-- The stored type of a kind that is no list of objects, and what comes with it. -/
def typeAttributes : Kind → List (Text × Text)
  | .scalar s => [keyed "type" (scalarName s)]
  | .unknown _ => [keyed "type" "String"]
  | .enumeration (some (v :: vs)) =>
    [keyed "type" "String", keyed "enum" (Literal.list (v :: vs))]
  | .enumeration _ => [keyed "type" "String"]
  | .reference target => keyed "type" "Schema.Types.ObjectId" :: targetAttributes target
  | .list item target => listAttributes item target
  | .record => [keyed "type" "Schema.Types.Mixed"]

/-- The modifiers as attributes. -/
def modifierAttributes (isRequired : Bool) (kind : Kind) : List (Text × Text) :=
  (if isRequired then [keyed "required" "true"] else []) ++
    match kind with
    | .enumeration (some (v :: _)) => [keyed "default" (Literal.quote v)]
    | _ => []

lemma modifiers_eq (isRequired : Bool) (kind : Kind) :
    modifiers true isRequired kind = (modifierAttributes isRequired kind).map attributeText := by
  unfold modifiers modifierAttributes
  rw [List.map_append]
  congr 1
  · cases isRequired <;> rfl
  · cases kind with
    | enumeration values =>
      match values with
      | none => rfl
      | some [] => rfl
      | some (v :: vs) => rfl
    | _ => rfl

lemma targetAttribute_eq (target : Option Text) :
    targetAttribute target = moreText (targetAttributes target) := by
  unfold targetAttribute targetAttributes
  split
  · rfl
  · rfl
  · unfold moreText
    simp only [List.flatMap_cons, List.flatMap_nil, List.append_nil]
    rfl

/-- Attributes behind the first one each have a comma in front. -/
lemma join_attributes (a : Text × Text) (as : List (Text × Text)) :
    Text.join ", " ((a :: as).map attributeText) = attributeText a ++ moreText as := by
  induction as generalizing a with
  | nil => simp [moreText]
  | cons b as ih =>
    rw [List.map_cons, List.map_cons, Text.join_cons_cons, ← List.map_cons, ih, moreText, moreText,
      List.flatMap_cons, List.append_assoc, List.cons_append, List.cons_append]
    rfl

lemma typeLiteral_eq (type : Text) (as : List (Text × Text)) :
    typeLiteral type (moreText as) = literal (keyed "type" type :: as) := by
  rw [literal, join_attributes, typeLiteral]
  rfl

lemma typeLiteral_nil (type : Text) : typeLiteral type [] = literal [keyed "type" type] :=
  typeLiteral_eq type []

lemma listType_eq (item target : Option Text) :
    listType item target = literal (listAttributes item target) := by
  have hreferences : typeLiteral "[Schema.Types.ObjectId]" (targetAttribute target) =
      literal (referencesAttributes target) := by
    rw [targetAttribute_eq, typeLiteral_eq]
    rfl
  match item with
  | none | some [] =>
    unfold listType listAttributes
    simp only
    split
    · exact typeLiteral_nil _
    · exact hreferences
  | some (c :: tag) =>
    unfold listType listAttributes
    simp only
    split
    · exact hreferences
    · exact typeLiteral_nil _

/-- A kind without nested fields is stored by its attributes. -/
lemma type_eq (name : Text) (isRequired isOptional : Bool) (kind : Kind) :
    type ⟨name, isRequired, isOptional, kind, []⟩ = literal (typeAttributes kind) := by
  cases kind with
  | scalar s => rw [type]; exact typeLiteral_nil _
  | unknown t => rw [type]; exact typeLiteral_nil _
  | enumeration values =>
    match values with
    | none => rw [type]; exact typeLiteral_nil _
    | some [] => rw [type]; exact typeLiteral_nil _
    | some (v :: vs) =>
      have henum : (", enum: " : Text) ++ Literal.list (v :: vs) =
          moreText [keyed "enum" (Literal.list (v :: vs))] := by
        unfold moreText
        simp only [List.flatMap_cons, List.flatMap_nil, List.append_nil]
        rfl
      rw [type]
      show typeLiteral "String" ((", enum: " : Text) ++ Literal.list (v :: vs)) = _
      rw [henum, typeLiteral_eq]
      rfl
  | reference target =>
    rw [type, targetAttribute_eq, typeLiteral_eq]
    rfl
  | list item target =>
    rw [type, Field.structured_nil]
    exact listType_eq item target
  | record => rw [type]; exact typeLiteral_nil _

lemma exists_typeAttributes (kind : Kind) :
    ∃ t as, typeAttributes kind = keyed "type" t :: as := by
  unfold typeAttributes listAttributes referencesAttributes
  repeat' split
  all_goals exact ⟨_, _, rfl⟩

/-- Modifiers go behind the attributes of the type. -/
lemma modified_literal (t : Text) (as mods : List (Text × Text)) :
    modified (literal (keyed "type" t :: as)) (mods.map attributeText) =
      literal (keyed "type" t :: as ++ mods) := by
  cases mods with
  | nil => simp [modified]
  | cons m mods =>
    set start := Text.join ", " ((keyed "type" t :: as).map attributeText) with hstart
    have hbody : literal (keyed "type" t :: as) = ('{' :: ' ' :: start) ++ [' ', '}'] := rfl
    have hlist : Text.startsWith ['['] (literal (keyed "type" t :: as)) = false := rfl
    have hopening : Text.startsWith typeOpening (literal (keyed "type" t :: as)) = true := by
      apply List.isPrefixOf_iff_prefix.2
      rw [hbody, hstart, join_attributes]
      exact ⟨' ' :: (t ++ moreText as) ++ [' ', '}'], by
        unfold typeOpening attributeText keyed
        simp only [List.append_assoc]
        rfl⟩
    -- the modifiers are put before the closing brace, which is the last two characters
    have htake : (literal (keyed "type" t :: as)).take
        ((literal (keyed "type" t :: as)).length - 2) = '{' :: ' ' :: start := by
      rw [hbody, List.length_append, show ([' ', '}'] : Text).length = 2 from rfl, Nat.add_sub_cancel,
        List.take_left]
    have hmore : moreText (as ++ m :: mods) =
        moreText as ++ (", ".toList ++ Text.join ", " ((m :: mods).map attributeText)) := by
      rw [join_attributes, moreText, List.flatMap_append, List.flatMap_cons]
      rfl
    have hjoin : Text.join ", " ((keyed "type" t :: as ++ m :: mods).map attributeText) =
        attributeText (keyed "type" t) ++ moreText (as ++ m :: mods) := join_attributes _ _
    unfold modified
    rw [if_neg (by simp), hlist, if_neg Bool.false_ne_true, if_pos hopening, htake, literal, hjoin,
      hmore, hstart, join_attributes _ as]
    simp only [Text.braced, List.append_assoc, List.cons_append]

/-- The attributes of a field without nested fields. -/
def attributes (isRequired : Bool) (kind : Kind) : List (Text × Text) :=
  typeAttributes kind ++ modifierAttributes isRequired kind

/-- **An entry is a literal of attributes** where the field has no nested fields. -/
theorem expression_eq (name : Text) (isRequired isOptional : Bool) (kind : Kind) :
    expression true ⟨name, isRequired, isOptional, kind, []⟩ =
      literal (attributes isRequired kind) := by
  obtain ⟨t, as, htype⟩ := exists_typeAttributes kind
  rw [expression, type_eq, modifiers_eq, htype, modified_literal, attributes, htype]

/-- The attributes of a list of objects that is required. -/
def itemsAttributes (f : Field) : List (Text × Text) :=
  [keyed "type" ('[' :: f.itemSchemaName ++ [']']), keyed "required" "true"]

/-- The entry of a list of objects is a list, or a literal where the field is required. -/
theorem expression_of_structured {f : Field} (hkind : f.kind = .list none (some objectTag))
    (h : f.isStructuredList = true) :
    expression true f = if f.isRequired then literal (itemsAttributes f)
      else '[' :: f.itemSchemaName ++ [']'] := by
  obtain ⟨name, isRequired, isOptional, kind, children⟩ := f
  obtain rfl : kind = .list none (some objectTag) := hkind
  have htype : type ⟨name, isRequired, isOptional, .list none (some objectTag), children⟩ =
      '[' :: Field.itemSchemaNameOf name ++ [']'] := by
    rw [type]
    exact if_pos h
  rw [expression, htype]
  cases isRequired with
  | true =>
    show modified _ ["required: true".toList] = _
    unfold modified
    rw [if_neg (by simp), if_pos rfl]
    exact typeLiteral_eq _ [keyed "required" "true"]
  | false => rfl

end Scaffold.Mongoose
