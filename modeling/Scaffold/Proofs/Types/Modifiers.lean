import Scaffold.Proofs.Artifact.Attributes
import Scaffold.Proofs.Artifact.SchemaOrder

/-!
# Modifiers of stored types

The modifiers of a field are put on its stored type after the type was printed, and which kind of literal
they meet is guessed from the first characters of the text.  A literal of attributes takes them behind its
attributes, a list of declared items is wrapped into such a literal, and an inline object takes none
(`CarriesModifiers`).

The guess is right for every field but one kind (`carriesModifiers_iff`): an inline object whose first
visible property is called `type` begins like a literal of attributes.  If such an object is required, it
gets a property `required` instead of staying as it is.
-/

namespace Scaffold

/-- The program's identifiers have no punctuation. -/
lemma Text.not_mem_of_isIdentifier {t : Text} {c : Char} (h : isIdentifier t = true)
    (hc : isIdentifierRest c = false) (hline : c ≠ '\n') : c ∉ t := by
  cases t with
  | nil => exact List.not_mem_nil
  | cons d rest =>
    simp only [isIdentifier, Bool.and_eq_true, Bool.or_eq_true, List.isEmpty_iff, beq_iff_eq] at h
    obtain ⟨hstart, hrest⟩ := h
    rw [List.mem_cons, not_or]
    refine ⟨?_, fun hmem => ?_⟩
    · rintro rfl
      rw [isIdentifierRest, hstart, Bool.true_or] at hc
      cases hc
    · rw [← List.takeWhile_append_dropWhile (p := isIdentifierRest) (l := rest), List.mem_append] at hmem
      rcases hmem with hmem | hmem
      · exact absurd (List.mem_takeWhile_imp hmem) (by simp [hc])
      · rcases hrest with hrest | hrest
        · rw [hrest] at hmem
          cases hmem
        · rw [hrest, List.mem_singleton] at hmem
          exact hline hmem

namespace Field

/-- Whether a field is an inline object with properties. -/
def isInlineObject (f : Field) : Bool := f.kind = .record && !f.children.isEmpty

/-- Whether the properties that are shown of a field begin with one that is called `type`. -/
def beginsWithType (f : Field) : Bool := (visible f.children).head?.any fun g => g.name = "type".toList

/-- The inline objects that are taken for a literal of attributes when there is a modifier to put on. -/
def isMistaken (f : Field) : Bool := f.isInlineObject && f.beginsWithType && f.isRequired

end Field

namespace Mongoose

variable {f : Field} {withDefault : Bool}

/-- The modifiers of a field: that it is required, and on demand the first of its values. -/
def fieldModifiers (withDefault : Bool) (f : Field) : List (Text × Text) :=
  (if f.isRequired then [keyed "required" "true"] else []) ++
    if withDefault then (f.values.take 1).map fun v => keyed "default" (Literal.quote v) else []

/-- The modifiers of a field are on the literal of its type: behind its attributes, or behind a list of
declared items that is wrapped for them.  An inline object has none. -/
def CarriesModifiers (withDefault : Bool) (f : Field) : Prop :=
  if f.isInlineObject then expression withDefault f = type f
  else if f.isStructuredList then
    type f = '[' :: f.itemSchemaName ++ [']'] ∧
      expression withDefault f =
        if fieldModifiers withDefault f = [] then type f
        else literal (keyed "type" (type f) :: fieldModifiers withDefault f)
  else
    type f = literal (typeAttributes f.kind) ∧
      expression withDefault f = literal (typeAttributes f.kind ++ fieldModifiers withDefault f)

instance (withDefault : Bool) (f : Field) : Decidable (CarriesModifiers withDefault f) := by
  unfold CarriesModifiers
  infer_instance

lemma modifiers_eq_fieldModifiers (withDefault : Bool) (f : Field) :
    modifiers withDefault f.isRequired f.kind = (fieldModifiers withDefault f).map attributeText := by
  obtain ⟨name, isRequired, isOptional, kind, children⟩ := f
  unfold modifiers fieldModifiers
  rw [List.map_append]
  congr 1
  · cases isRequired <;> rfl
  · cases withDefault with
    | false => rfl
    | true =>
      cases kind with
      | enumeration values =>
        match values with
        | none => rfl
        | some [] => rfl
        | some (v :: vs) => rfl
      | _ => rfl

/-! ## Fields that are no inline objects -/

lemma type_of_structured (h : f.isStructuredList = true) : type f = '[' :: f.itemSchemaName ++ [']'] :=
  isFaithful_dialect.items f h

/-- A field that is neither a list of objects nor an inline object is stored by the attributes of its
kind, whatever is nested in it. -/
lemma type_of_plain (hobject : f.isInlineObject = false) (hlist : f.isStructuredList = false) :
    type f = literal (typeAttributes f.kind) := by
  obtain ⟨name, isRequired, isOptional, kind, children⟩ := f
  rw [← type_eq name isRequired isOptional kind]
  -- the other kinds are written without a look at the children
  cases kind with
  | list item target =>
    have hstructured : Field.structured (.list item target) children = false := hlist
    simp only [type.eq_def, Field.structured_nil, hstructured]
  | record =>
    obtain rfl : children = [] := by simpa [Field.isInlineObject] using hobject
    rfl
  | _ => simp only [type.eq_def]

/-- A list literal is wrapped for its modifiers. -/
lemma modified_list (schema : Text) (mods : List (Text × Text)) :
    modified ('[' :: schema ++ [']']) (mods.map attributeText) =
      if mods = [] then '[' :: schema ++ [']']
      else literal (keyed "type" ('[' :: schema ++ [']']) :: mods) := by
  cases mods with
  | nil => rfl
  | cons m mods =>
    have hmore : (", " ++ Text.join ", " ((m :: mods).map attributeText) : Text) = moreText (m :: mods) := by
      rw [join_attributes, moreText, moreText, List.flatMap_cons]
      rfl
    have hlist : Text.startsWith ['['] ('[' :: schema ++ [']']) = true := rfl
    rw [modified, if_neg (by simp), hlist, if_pos rfl, hmore, typeLiteral_eq, if_neg (List.cons_ne_nil m mods)]

lemma expression_eq_modified (withDefault : Bool) (f : Field) :
    expression withDefault f = modified (type f) ((fieldModifiers withDefault f).map attributeText) := by
  rw [expression, modifiers_eq_fieldModifiers]

/-- Where there is no inline object, the guess is right. -/
lemma carriesModifiers_of_not_object (withDefault : Bool) (h : f.isInlineObject = false) :
    CarriesModifiers withDefault f := by
  rw [CarriesModifiers, if_neg (by simp [h]), expression_eq_modified]
  cases hlist : f.isStructuredList with
  | true =>
    have htype := type_of_structured hlist
    rw [if_pos rfl, htype]
    exact ⟨rfl, modified_list _ _⟩
  | false =>
    obtain ⟨t, as, hkind⟩ := exists_typeAttributes f.kind
    rw [if_neg Bool.false_ne_true, type_of_plain h hlist, hkind]
    exact ⟨rfl, modified_literal t as _⟩

/-! ## Inline objects -/

lemma type_of_object (h : f.isInlineObject = true) :
    type f = Text.braced (Text.join ", "
      ((Field.visible f.children).map fun g => g.name ++ ": " ++ expression false g)) := by
  obtain ⟨name, isRequired, isOptional, kind, children⟩ := f
  simp only [Field.isInlineObject, Bool.and_eq_true, decide_eq_true_eq, Bool.not_eq_true'] at h
  obtain ⟨rfl, hchildren⟩ := h
  rw [type, hchildren, ← properties_eq]
  rfl

/-- A text with a colon begins with a word and a colon exactly if the word is all that is in front of its
first colon. -/
lemma isPrefix_colon_iff {word name rest : Text} (hword : ':' ∉ word) (hname : ':' ∉ name) :
    (word ++ [':']) <+: (name ++ ':' :: rest) ↔ name = word := by
  constructor
  · rintro ⟨after, h⟩
    have hclean {t : Text} (ht : ':' ∉ t) : ∀ c ∈ t, decide (c ≠ ':') = true := fun c hc =>
      decide_eq_true fun hcolon => ht (hcolon ▸ hc)
    have hcut := congrArg (List.takeWhile fun c => c ≠ ':') h
    rw [List.append_assoc, List.singleton_append, List.takeWhile_append_of_pos (hclean hword),
      List.takeWhile_append_of_pos (hclean hname)] at hcut
    simpa using hcut.symm
  · rintro rfl
    exact ⟨rest, by simp⟩

/-- An object begins like a literal of attributes exactly if its first property is called `type`. -/
lemma startsWith_typeOpening_iff (h : f.isInlineObject = true)
    (hnames : ∀ g ∈ f.children, Text.isIdentifier g.name = true) :
    Text.startsWith typeOpening (type f) = true ↔ f.beginsWithType = true := by
  rw [type_of_object h, Field.beginsWithType]
  cases hvisible : Field.visible f.children with
  | nil => decide
  | cons g gs =>
    have hmem : g ∈ Field.visible f.children := hvisible ▸ List.mem_cons_self ..
    have hcolon : ':' ∉ g.name :=
      Text.not_mem_of_isIdentifier (hnames g (List.mem_of_mem_filter hmem)) (by decide) (by decide)
    obtain ⟨rest, hrest⟩ : ∃ rest, Text.join ", "
        ((g :: gs).map fun g => g.name ++ ": " ++ expression false g) = g.name ++ ':' :: rest := by
      cases gs with
      | nil => exact ⟨' ' :: expression false g, by simp⟩
      | cons g' gs => exact ⟨_, by simp [Text.join_cons_cons]; rfl⟩
    have hopening : typeOpening = ['{', ' '] ++ ("type".toList ++ [':']) := rfl
    have hbraced : Text.braced (g.name ++ ':' :: rest) = ['{', ' '] ++ (g.name ++ ':' :: (rest ++ [' ', '}'])) := by
      simp [Text.braced]
    rw [hrest, Text.startsWith, List.isPrefixOf_iff_prefix, hopening, hbraced, List.prefix_append_right_inj,
      isPrefix_colon_iff (by decide) hcolon]
    simp

/-- A required object that is mistaken for a literal of attributes becomes longer. -/
lemma modified_ne_self {literal : Text} {mods : List Text} (hlist : Text.startsWith ['['] literal = false)
    (hopening : Text.startsWith typeOpening literal = true) (hmods : mods ≠ []) :
    modified literal mods ≠ literal := by
  intro h
  have hlength := congrArg List.length h
  have hcomma : (", " : Text).length = 2 := rfl
  rw [modified, if_neg (by simpa using hmods), hlist, if_neg Bool.false_ne_true, if_pos hopening,
    List.length_append, List.length_append, List.length_append, List.length_take, hcomma] at hlength
  simp only [List.length_cons, List.length_nil] at hlength
  omega

lemma fieldModifiers_of_object (withDefault : Bool) (h : f.isInlineObject = true) :
    fieldModifiers withDefault f = if f.isRequired then [keyed "required" "true"] else [] := by
  have hkind : f.kind = .record := by
    simp only [Field.isInlineObject, Bool.and_eq_true, decide_eq_true_eq] at h
    exact h.1
  have hvalues : f.values = [] := by rw [Field.values, hkind]
  rw [fieldModifiers, hvalues]
  cases withDefault <;> exact List.append_nil _

/-- The guess leaves an inline object as it is unless the object is mistaken. -/
lemma carriesModifiers_object_iff (withDefault : Bool) (h : f.isInlineObject = true)
    (hnames : ∀ g ∈ f.children, Text.isIdentifier g.name = true) :
    CarriesModifiers withDefault f ↔ f.isMistaken = false := by
  have hlist : Text.startsWith ['['] (type f) = false := by
    rw [type_of_object h]
    rfl
  have hopening := startsWith_typeOpening_iff h hnames
  rw [CarriesModifiers, if_pos h, Field.isMistaken, h, Bool.true_and, expression_eq_modified,
    fieldModifiers_of_object withDefault h]
  cases hrequired : f.isRequired with
  | false => simp [modified]
  | true =>
    rw [if_pos rfl, Bool.and_true]
    cases htype : f.beginsWithType with
    | true => exact iff_of_false (modified_ne_self hlist (hopening.2 htype) (by simp)) (by decide)
    | false =>
      have hother : Text.startsWith typeOpening (type f) = false := by
        rw [Bool.eq_false_iff, ne_eq, hopening, htype]
        exact Bool.false_ne_true
      apply iff_of_true _ rfl
      rw [modified, if_neg (by simp), hlist, if_neg Bool.false_ne_true, hother, if_neg Bool.false_ne_true]

/-- **Where modifiers go**: the guess from the first characters of a type puts the modifiers of a field on
the literal of its type if and only if the field is no required object that begins with a property called
`type`. -/
theorem carriesModifiers_iff (withDefault : Bool)
    (hnames : ∀ g ∈ f.children, Text.isIdentifier g.name = true) :
    CarriesModifiers withDefault f ↔ f.isMistaken = false := by
  cases hobject : f.isInlineObject with
  | true => exact carriesModifiers_object_iff withDefault hobject hnames
  | false =>
    have hmistaken : f.isMistaken = false := by
      rw [Field.isMistaken, hobject, Bool.false_and, Bool.false_and]
    exact iff_of_true (carriesModifiers_of_not_object withDefault hobject) hmistaken

/-- A required address whose second property is called `type`. -/
def address : Field :=
  ⟨"address", true, false, .record,
    [⟨"city", true, false, .scalar .string, []⟩, ⟨"type", false, false, .scalar .string, []⟩]⟩

/-- The address is printed as the object it is, since its first property has another name. -/
theorem carriesModifiers_address :
    (∀ g ∈ address.children, Text.isIdentifier g.name = true) ∧ CarriesModifiers true address :=
  ⟨by decide, (carriesModifiers_iff true (by decide)).2 (by decide)⟩

/-- A required object whose only property is called `type`. -/
def metaObject : Field :=
  ⟨"meta", true, false, .record, [⟨"type", false, false, .scalar .string, []⟩]⟩

/-- The modifier of the object ends up among its properties. -/
theorem not_carriesModifiers_metaObject :
    type metaObject = "\x7b type: \x7b type: String \x7d \x7d".toList ∧
      expression false metaObject = "\x7b type: \x7b type: String \x7d, required: true \x7d".toList ∧
      ¬ CarriesModifiers false metaObject := by
  decide

end Mongoose

end Scaffold
