import Scaffold.Proofs.Field.Nesting
import Scaffold.Proofs.Table
import Scaffold.Types.Mongoose
import Scaffold.Types.OpenApi
import Scaffold.Types.TypeScript
import Scaffold.Types.Zod

/-!
# One shape behind four types

Stored documents, request validators, static types and API documents each type a field by a recursion
of their own, with the same questions asked in different orders.  `Field.shape` asks them once, and a
shape has one rendering in each of the outputs that knows nothing of fields: the types of a field are the
four renderings of its shape (`IsDescribed.isTyped_shape`).  The renderings are tables of the texts that
are to be printed, so the names of scalars, the lists of values and the optional markers of validators and
static types are part of what is proved.

Since a static type shows which of the shapes it renders (`TypeScript.headOf?_ofShape`), a field that is
a list of objects, of references, of scalars or of anything in one output is one in all of them.

The shape hides nothing that two outputs disagree on, with two exceptions, which `IsDescribed` excludes:
an enumeration without values is one in API documents only, and a list with an empty item tag that has a
target is a list of references except in API documents.
-/

namespace Scaffold

/-! ## Shapes -/

mutual

/-- What all outputs type alike. -/
inductive Shape where
  /-- A scalar. -/
  | scalar (s : Scalar)
  /-- A reference to a document. -/
  | reference (target : Option Text)
  /-- One of the listed values. -/
  | choice (values : List Text)
  /-- A list of objects that are declared under names of their own. -/
  | records
  /-- A list of references. -/
  | references (target : Option Text)
  /-- A list of scalars. -/
  | scalars (s : Scalar)
  /-- A list of anything. -/
  | untyped
  /-- Any object. -/
  | free
  /-- An object with the listed properties. -/
  | object (properties : List Shape.Property)

/-- A property of an object. -/
inductive Shape.Property where
  | mk (name : Text) (isRequired isOptional : Bool) (shape : Shape)

end

/-- What a shape is, without what it is made of. -/
inductive Shape.Head where
  | scalar (s : Scalar)
  | reference
  | choice
  | records
  | references
  | scalars (s : Scalar)
  | untyped
  | free
  | object
  deriving DecidableEq

/-- The head of a shape. -/
def Shape.head : Shape → Shape.Head
  | scalar s => .scalar s
  | reference _ => .reference
  | choice _ => .choice
  | records => .records
  | references _ => .references
  | scalars s => .scalars s
  | untyped => .untyped
  | free => .free
  | object _ => .object

/-- The scalar that a tag stands for: a string unless the tag says otherwise. -/
def Scalar.orString (tag : Text) : Scalar := (Scalar.ofTag? tag).getD .string

/-- The shape of a list without declared items. -/
def Shape.ofList (item target : Option Text) : Shape :=
  match item with
  | none | some [] =>
    if target.isNone || target = some [] || Field.targetsObject target then .untyped else .references target
  | some tag => if tag = objectIdTag then .references target else .scalars (.orString tag)

namespace Field

mutual

/-- The shape of a field. -/
def shape : Field → Shape
  | ⟨_, _, _, kind, children⟩ =>
    match kind with
    | .scalar s => .scalar s
    | .unknown _ => .scalar .string
    | .enumeration values => .choice (values.getD [])
    | .reference target => .reference target
    | .list item target => if structured kind children then .records else .ofList item target
    | .record => if children.isEmpty then .free else .object (shapes children)
termination_by structural f => f

/-- The visible fields as properties. -/
def shapes : List Field → List Shape.Property
  | [] => []
  | f :: fs =>
    (if isIdentity f.name then [] else [.mk f.name f.isRequired f.isOptional (shape f)]) ++ shapes fs
termination_by structural fs => fs

end

end Field

/-! ## Renderings

Nothing that the outputs print with is used here: a text stands as it is read, so that an output which
leaves something out is no rendering of a shape. -/

namespace Shape

/-- What follows the opening quote of a value: a quote or a backslash in it has a backslash in front. -/
def quotedRest : Text → Text
  | [] => "'"
  | '\'' :: cs => "\\'" ++ quotedRest cs
  | '\\' :: cs => "\\\\" ++ quotedRest cs
  | c :: cs => c :: quotedRest cs

/-- A list of values. -/
def listed (values : List Text) : Text :=
  "[" ++ Text.join ", " (values.map fun v => '\'' :: quotedRest v) ++ "]"

end Shape

namespace Mongoose

/-- The module that a stored reference names. -/
def refText : Option Text → Text
  | none | some [] => ""
  | some target => ", ref: '" ++ target ++ "'"

/-- A stored type that is required.  The marker goes into braces that start with a type, and braces are put
around a list; an object with properties has no place for it. -/
def required (type : Text) : Text :=
  if "[".toList <+: type then "\x7b type: " ++ type ++ ", required: true \x7d"
  else if "\x7b type:".toList <+: type then type.dropLast.dropLast ++ ", required: true \x7d"
  else type

mutual

/-- The stored type of a field with a shape. -/
def ofShape (name : Text) : Shape → Text
  | .scalar .string => "\x7b type: String \x7d"
  | .scalar .number => "\x7b type: Number \x7d"
  | .scalar .boolean => "\x7b type: Boolean \x7d"
  | .scalar .date => "\x7b type: Date \x7d"
  | .reference target => "\x7b type: Schema.Types.ObjectId" ++ refText target ++ " \x7d"
  | .choice values => "\x7b type: String, enum: " ++ Shape.listed values ++ " \x7d"
  | .records => "[" ++ name ++ "ItemSchema]"
  | .references target => "\x7b type: [Schema.Types.ObjectId]" ++ refText target ++ " \x7d"
  | .scalars .string => "\x7b type: [String] \x7d"
  | .scalars .number => "\x7b type: [Number] \x7d"
  | .scalars .boolean => "\x7b type: [Boolean] \x7d"
  | .scalars .date => "\x7b type: [Date] \x7d"
  | .untyped => "\x7b type: [Schema.Types.Mixed] \x7d"
  | .free => "\x7b type: Schema.Types.Mixed \x7d"
  | .object properties => "\x7b " ++ Text.join ", " (ofProperties properties) ++ " \x7d"
termination_by structural s => s

/-- The properties of a stored object: only the required marker shows. -/
def ofProperties : List Shape.Property → List Text
  | [] => []
  | ⟨name, true, _, shape⟩ :: ps => (name ++ ": " ++ required (ofShape name shape)) :: ofProperties ps
  | ⟨name, false, _, shape⟩ :: ps => (name ++ ": " ++ ofShape name shape) :: ofProperties ps
termination_by structural ps => ps

end

end Mongoose

namespace Zod

mutual

/-- The validator of a field with a shape. -/
def ofShape (name : Text) : Shape → Text
  | .scalar .string => "z.string()"
  | .scalar .number => "z.number()"
  | .scalar .boolean => "z.boolean()"
  | .scalar .date => "z.string().datetime()"
  | .reference _ => "z.string()"
  | .choice values => "z.enum(" ++ Shape.listed values ++ ")"
  | .records => "z.array(" ++ name ++ "ItemSchema)"
  | .references _ => "z.array(z.string())"
  | .scalars .string => "z.array(z.string())"
  | .scalars .number => "z.array(z.number())"
  | .scalars .boolean => "z.array(z.boolean())"
  | .scalars .date => "z.array(z.string().datetime())"
  | .untyped => "z.array(z.any())"
  | .free => "z.record(z.string(), z.any())"
  | .object properties => "z.object(\x7b " ++ Text.join ", " (ofProperties properties) ++ " \x7d)"
termination_by structural s => s

/-- The properties of a validated object: only the optional marker shows. -/
def ofProperties : List Shape.Property → List Text
  | [] => []
  | ⟨name, _, true, shape⟩ :: ps => (name ++ ": " ++ ofShape name shape ++ ".optional()") :: ofProperties ps
  | ⟨name, _, false, shape⟩ :: ps => (name ++ ": " ++ ofShape name shape) :: ofProperties ps
termination_by structural ps => ps

end

end Zod

namespace TypeScript

mutual

/-- The static type of a field with a shape, declared in a scope. -/
def ofShape (scope name : Text) : Shape → Text
  | .scalar .string => "string"
  | .scalar .number => "number"
  | .scalar .boolean => "boolean"
  | .scalar .date => "Date"
  | .reference _ => "Types.ObjectId"
  | .choice _ => scope ++ Text.capitalizeFirst name ++ "Enum"
  | .records => Text.capitalizeFirst name ++ "Item[]"
  | .references _ => "Types.ObjectId[]"
  | .scalars .string => "string[]"
  | .scalars .number => "number[]"
  | .scalars .boolean => "boolean[]"
  | .scalars .date => "Date[]"
  | .untyped => "any[]"
  | .free => "Record<string, any>"
  | .object properties =>
    "\x7b " ++ Text.join "; " (ofProperties (Text.capitalizeFirst name) properties) ++ " \x7d"
termination_by structural s => s

/-- The properties of an object type: only the optional marker shows. -/
def ofProperties (scope : Text) : List Shape.Property → List Text
  | [] => []
  | ⟨name, _, true, shape⟩ :: ps => (name ++ "?: " ++ ofShape scope name shape) :: ofProperties scope ps
  | ⟨name, _, false, shape⟩ :: ps => (name ++ ": " ++ ofShape scope name shape) :: ofProperties scope ps
termination_by structural ps => ps

end

end TypeScript

namespace OpenApi

/-- The description of a list. -/
def listOfShape (items : Json) (name : Text) (word : String) : Json :=
  .object [("type", .lit "array"), ("items", items), ("description", .str ("Array of " ++ name ++ word))]

mutual

/-- The description of a field with a shape. -/
def ofShape (name : Text) : Shape → Json
  | .scalar .string => .object [("type", .lit "string"), ("description", .str (name ++ " field"))]
  | .scalar .number => .object [("type", .lit "number"), ("description", .str (name ++ " field"))]
  | .scalar .boolean => .object [("type", .lit "boolean"), ("description", .str (name ++ " field"))]
  | .scalar .date =>
    .object [("type", .lit "string"), ("format", .lit "date-time"), ("description", .str (name ++ " field"))]
  | .reference _ => .object [("type", .lit "string"), ("description", .str (name ++ " reference ID"))]
  | .choice values =>
    .object [("type", .lit "string"), ("enum", .arr (values.map .str)), ("description", .str (name ++ " field"))]
  | .records =>
    listOfShape
      (.object [("$ref", .str ("#/components/schemas/" ++ Text.capitalizeFirst name ++ "Item"))]) name " objects"
  | .references _ => listOfShape (.object [("type", .lit "string")]) name " references"
  | .scalars .string => listOfShape (.object [("type", .lit "string")]) name " items"
  | .scalars .number => listOfShape (.object [("type", .lit "number")]) name " items"
  | .scalars .boolean => listOfShape (.object [("type", .lit "boolean")]) name " items"
  | .scalars .date =>
    listOfShape (.object [("type", .lit "string"), ("format", .lit "date-time")]) name " items"
  | .untyped => listOfShape (.object []) name " items"
  | .free => .object [("type", .lit "object"), ("description", .str (name ++ " object"))]
  | .object properties =>
    .object [("type", .lit "object"), ("description", .str (name ++ " object")),
      ("properties", .obj (ofProperties properties))]
termination_by structural s => s

/-- The properties of a described object: no marker shows. -/
def ofProperties : List Shape.Property → Json.Members
  | [] => []
  | ⟨name, _, _, shape⟩ :: ps => (name, ofShape name shape) :: ofProperties ps
termination_by structural ps => ps

end

end OpenApi

/-! ## What a static type shows -/

namespace TypeScript

/-- The scalar whose type ends with a letter. -/
def scalarOfEnd? : Char → Option Scalar
  | 'g' => some .string
  | 'r' => some .number
  | 'n' => some .boolean
  | 'e' => some .date
  | _ => none

/-- What a static type renders, from how it ends. -/
def headOf? (type : Text) : Option Shape.Head :=
  match type.reverse with
  | ']' :: '[' :: 'm' :: _ => some .records
  | ']' :: '[' :: 'd' :: _ => some .references
  | ']' :: '[' :: 'y' :: _ => some .untyped
  | ']' :: '[' :: c :: _ => (scalarOfEnd? c).map .scalars
  | 'm' :: _ => some .choice
  | 'd' :: _ => some .reference
  | '>' :: _ => some .free
  | '}' :: _ => some .object
  | c :: _ => (scalarOfEnd? c).map .scalar
  | [] => none

/-- **A static type shows the head of its shape.** -/
lemma headOf?_ofShape (scope name : Text) (s : Shape) : headOf? (ofShape scope name s) = some s.head := by
  cases s with
  | scalar s => cases s <;> rfl
  | scalars s => cases s <;> rfl
  | choice values =>
    have hend : (ofShape scope name (.choice values)).reverse =
        'm' :: 'u' :: 'n' :: 'E' :: (scope ++ Text.capitalizeFirst name).reverse := List.reverse_append
    rw [headOf?, hend]
    rfl
  | records =>
    have hend : (ofShape scope name .records).reverse =
        ']' :: '[' :: 'm' :: 'e' :: 't' :: 'I' :: (Text.capitalizeFirst name).reverse := List.reverse_append
    rw [headOf?, hend]
    rfl
  | object properties =>
    have hend : (ofShape scope name (.object properties)).reverse = '}' :: ' ' ::
        ("\x7b ".toList ++ Text.join "; " (ofProperties (Text.capitalizeFirst name) properties)).reverse :=
      List.reverse_append
    rw [headOf?, hend]
    rfl
  | reference target => rfl
  | references target => rfl
  | untyped => rfl
  | free => rfl

end TypeScript

/-! ## Described fields -/

/-- Whether the attributes of a kind say what they are there for: an enumeration has values, and a tag
for items is not empty. -/
def Kind.isDescribed : Kind → Bool
  | .enumeration values => !(values.getD []).isEmpty
  | .list item _ => item ≠ some []
  | _ => true

/-- All attributes of a field and of the fields below it say what they are there for. -/
inductive Field.IsDescribed : Field → Prop where
  | intro {f : Field} : f.kind.isDescribed = true → (∀ c ∈ f.children, IsDescribed c) → IsDescribed f

/-- The types of a field are the renderings of a shape. -/
structure Field.IsTyped (f : Field) (s : Shape) : Prop where
  mongoose : Mongoose.type f = Mongoose.ofShape f.name s
  zod : Zod.type f = Zod.ofShape f.name s
  typeScript : ∀ scope, TypeScript.type scope f = TypeScript.ofShape scope f.name s
  openApi : OpenApi.property f = OpenApi.ofShape f.name s

/-- The visible properties of an object are the renderings of a row of properties. -/
structure Field.AreTyped (fields : List Field) (ps : List Shape.Property) : Prop where
  mongoose : Mongoose.properties fields = Mongoose.ofProperties ps
  zod : Zod.properties fields = Zod.ofProperties ps
  typeScript : ∀ scope, TypeScript.properties scope fields = TypeScript.ofProperties scope ps
  openApi : OpenApi.properties fields = OpenApi.ofProperties ps

variable {name : Text} {item target : Option Text} {fields : List Field} {f : Field} {s : Shape}
  {ps : List Shape.Property} {isRequired isOptional : Bool}

/-! ## What the outputs print

Each way of the outputs to print a text is the text that stands in the renderings. -/

lemma Literal.quote_eq (value : Text) : quote value = '\'' :: Shape.quotedRest value := by
  have hrest : value.flatMap escapeChar ++ ['\''] = Shape.quotedRest value := by
    fun_induction Shape.quotedRest value with
    | case1 => rfl
    | case2 cs ih =>
      rw [← ih]
      rfl
    | case3 cs ih =>
      rw [← ih]
      rfl
    | case4 c cs hquote hbackslash ih =>
      have hplain : escapeChar c = [c] := by
        unfold escapeChar
        split
        · rename_i h
          rcases Bool.or_eq_true_iff.1 h with h | h
          · exact (hbackslash (of_decide_eq_true h)).elim
          · exact (hquote (of_decide_eq_true h)).elim
        · rfl
      rw [← ih, List.flatMap_cons, hplain]
      rfl
  exact congrArg ('\'' :: ·) hrest

lemma Literal.list_eq (values : List Text) : list values = Shape.listed values := by
  rw [list, funext quote_eq]
  rfl

lemma Mongoose.targetAttribute_eq_refText (target : Option Text) : targetAttribute target = refText target := by
  match target with
  | none => rfl
  | some [] => rfl
  | some (c :: cs) => rfl

lemma Mongoose.modified_required (type : Text) : modified type ["required: true".toList] = required type := by
  have hlist : Text.startsWith ['['] type = true ↔ "[".toList <+: type := List.isPrefixOf_iff_prefix
  have hliteral : Text.startsWith typeOpening type = true ↔ "\x7b type:".toList <+: type :=
    List.isPrefixOf_iff_prefix
  rw [modified, required, if_neg (by decide)]
  by_cases h : "[".toList <+: type
  · rw [if_pos (hlist.2 h), if_pos h]
    simp [typeLiteral, Text.braced, Text.join]
  · rw [if_neg fun hstarts => h (hlist.1 hstarts), if_neg h]
    by_cases h' : "\x7b type:".toList <+: type
    · rw [if_pos (hliteral.2 h'), if_pos h']
      have hcut : type.dropLast.dropLast = type.take (type.length - 2) := by
        rw [List.dropLast_eq_take, List.dropLast_eq_take, List.length_take, List.take_take]
        congr 1
        omega
      simp [Text.join, hcut]
    · rw [if_neg fun hstarts => h' (hliteral.1 hstarts), if_neg h']

lemma Mongoose.list_itemSchemaNameOf (name : Text) :
    '[' :: Field.itemSchemaNameOf name ++ [']'] = "[" ++ name ++ "ItemSchema]" :=
  congrArg ('[' :: ·) (List.append_assoc name "ItemSchema".toList [']'])

lemma Zod.listOf_itemSchemaNameOf (name : Text) :
    listOf (Field.itemSchemaNameOf name) = "z.array(" ++ name ++ "ItemSchema)" :=
  congrArg ("z.array(".toList ++ ·) (List.append_assoc name "ItemSchema".toList ")".toList)

lemma Zod.enumeration_eq (values : List Text) :
    "z.enum(" ++ Literal.list values ++ ")" = "z.enum(" ++ Shape.listed values ++ ")" := by
  rw [Literal.list_eq]

lemma Zod.object_braced (inner : Text) :
    "z.object(" ++ Text.braced inner ++ ")" = "z.object(\x7b " ++ inner ++ " \x7d)" :=
  congrArg ("z.object(\x7b ".toList ++ ·) (List.append_assoc inner " \x7d".toList ")".toList)

lemma TypeScript.itemTypeNameOf_list (name : Text) :
    Field.itemTypeNameOf name ++ "[]" = Text.capitalizeFirst name ++ "Item[]" :=
  List.append_assoc (Text.capitalizeFirst name) "Item".toList "[]".toList

lemma Mongoose.reference_eq (target : Option Text) :
    typeLiteral "Schema.Types.ObjectId" (targetAttribute target) =
      "\x7b type: Schema.Types.ObjectId" ++ refText target ++ " \x7d" := by
  rw [targetAttribute_eq_refText]
  rfl

lemma Mongoose.enumType_eq (v : Text) (vs : List Text) :
    enumType (v :: vs) = "\x7b type: String, enum: " ++ Shape.listed (v :: vs) ++ " \x7d" := by
  rw [← Literal.list_eq]
  rfl

/-! ## Lists -/

lemma Mongoose.itemName_eq (tag : Text) : itemName tag = scalarName (.orString tag) := by
  unfold itemName Scalar.orString
  cases Scalar.ofTag? tag <;> rfl

lemma Zod.itemName_eq (tag : Text) : itemName tag = scalarName (.orString tag) := by
  unfold itemName Scalar.orString
  cases Scalar.ofTag? tag <;> rfl

lemma TypeScript.itemName_eq {tag : Text} (h : tag ≠ objectIdTag) :
    itemName tag = scalarName (.orString tag) := by
  unfold itemName Scalar.orString
  cases Scalar.ofTag? tag with
  | none => exact if_neg h
  | some s => rfl

lemma OpenApi.itemMembers_eq (tag : Text) : itemMembers tag = scalarMembers (.orString tag) := by
  unfold itemMembers Scalar.orString
  cases Scalar.ofTag? tag <;> rfl

lemma Mongoose.listType_eq_ofShape (name : Text) (item target : Option Text) :
    listType item target = ofShape name (.ofList item target) := by
  match item with
  | none | some [] =>
    simp only [listType, Shape.ofList, targetAttribute_eq_refText]
    split <;> rfl
  | some (c :: cs) =>
    simp only [listType, Shape.ofList, itemName_eq]
    split
    · rw [targetAttribute_eq_refText]
      rfl
    · cases Scalar.orString (c :: cs) <;> rfl

lemma Zod.listType_eq_ofShape (name : Text) (item target : Option Text) :
    listType item target = ofShape name (.ofList item target) := by
  match item with
  | none | some [] =>
    simp only [listType, Shape.ofList]
    split <;> rfl
  | some (c :: cs) =>
    simp only [listType, Shape.ofList, itemName_eq]
    split
    · rename_i htag
      rw [htag]
      rfl
    · cases Scalar.orString (c :: cs) <;> rfl

lemma TypeScript.listType_eq_ofShape (scope name : Text) (item target : Option Text) :
    listType item target = ofShape scope name (.ofList item target) := by
  match item with
  | none | some [] =>
    simp only [listType, Shape.ofList]
    split <;> rfl
  | some (c :: cs) =>
    simp only [listType, Shape.ofList]
    split
    · rename_i htag
      rw [htag]
      rfl
    · rename_i htag
      rw [itemName_eq htag]
      cases Scalar.orString (c :: cs) <;> rfl

/-- API documents ask in another order: first whether a list holds references. -/
lemma OpenApi.listType_eq_ofShape (name : Text) (target : Option Text) (hitem : item ≠ some []) :
    listType name item target = ofShape name (.ofList item target) := by
  match item, hitem with
  | none, _ =>
    have hrefers : holdsReferences none target =
        !(target.isNone || target = some [] || Field.targetsObject target) := by
      cases target <;> simp [holdsReferences]
    simp only [listType, Shape.ofList, hrefers]
    cases target.isNone || target = some [] || Field.targetsObject target <;> rfl
  | some (c :: cs), _ =>
    have hrefers : holdsReferences (some (c :: cs)) target = decide (c :: cs = objectIdTag) := by
      simp [holdsReferences]
    simp only [listType, Shape.ofList, hrefers, decide_eq_true_eq, itemMembers_eq]
    split
    · rfl
    · cases Scalar.orString (c :: cs) <;> rfl

/-! ## All kinds -/

lemma OpenApi.properties_eq_map_visible (fields : List Field) :
    properties fields = (Field.visible fields).map fun f => (f.name, property f) := by
  induction fields with
  | nil => rfl
  | cons f fields ih => rw [properties, ih, Field.map_visible_cons]

/-- Properties with distinct names are all shown in an API document. -/
lemma OpenApi.ofEntries_properties (h : Field.AreDistinct fields) :
    Table.ofEntries (properties fields) = properties fields := by
  rw [properties_eq_map_visible]
  exact Table.ofEntries_of_nodup (h.nodup_keys_visible property)

namespace Field

lemma isTyped_list {children : List Field} (hitem : item ≠ some []) :
    IsTyped ⟨name, isRequired, isOptional, .list item target, children⟩
      (if structured (.list item target) children then .records else .ofList item target) := by
  cases h : structured (.list item target) children with
  | true =>
    refine ⟨?_, ?_, fun scope => ?_, ?_⟩
    · rw [Mongoose.type.eq_def]
      simp only [h, if_true]
      exact Mongoose.list_itemSchemaNameOf name
    · rw [Zod.type.eq_def]
      simp only [h, if_true]
      exact Zod.listOf_itemSchemaNameOf name
    · rw [TypeScript.type.eq_def]
      simp only [h, if_true]
      exact TypeScript.itemTypeNameOf_list name
    · rw [OpenApi.property.eq_def]
      simp only [h, if_true]
      rfl
  | false =>
    refine ⟨?_, ?_, fun scope => ?_, ?_⟩
    · rw [Mongoose.type.eq_def]
      simp only [h, Bool.false_eq_true, if_false, Mongoose.listType_eq_ofShape name]
    · rw [Zod.type.eq_def]
      simp only [h, Bool.false_eq_true, if_false, Zod.listType_eq_ofShape name]
    · rw [TypeScript.type.eq_def]
      simp only [h, Bool.false_eq_true, if_false, TypeScript.listType_eq_ofShape scope name]
    · rw [OpenApi.property.eq_def]
      simp only [h, Bool.false_eq_true, if_false, OpenApi.listType_eq_ofShape name target hitem]

lemma isTyped_record {children : List Field} (hdistinct : AreDistinct children)
    (h : AreTyped children ps) :
    IsTyped ⟨name, isRequired, isOptional, .record, children⟩ (if children.isEmpty then .free else .object ps) := by
  cases hempty : children.isEmpty with
  | true =>
    refine ⟨?_, ?_, fun scope => ?_, ?_⟩
    · rw [Mongoose.type.eq_def]
      simp only [hempty, if_true]
      rfl
    · rw [Zod.type.eq_def]
      simp only [hempty, if_true]
      rfl
    · rw [TypeScript.type.eq_def]
      simp only [hempty, if_true]
      rfl
    · rw [OpenApi.property.eq_def]
      simp only [hempty, if_true]
      rfl
  | false =>
    have hshown : Table.ofEntries (OpenApi.properties children) = OpenApi.ofProperties ps :=
      (OpenApi.ofEntries_properties hdistinct).trans h.openApi
    refine ⟨?_, ?_, fun scope => ?_, ?_⟩
    · rw [Mongoose.type.eq_def]
      simp only [hempty, Bool.false_eq_true, if_false, h.mongoose]
      rfl
    · rw [Zod.type.eq_def]
      simp only [hempty, Bool.false_eq_true, if_false, h.zod]
      exact Zod.object_braced _
    · rw [TypeScript.type.eq_def]
      simp only [hempty, Bool.false_eq_true, if_false, h.typeScript]
      rfl
    · rw [OpenApi.property.eq_def]
      simp only [hempty, Bool.false_eq_true, if_false, hshown]
      rfl

/-- A property takes the required marker in stored documents, and the optional one in validators and
static types. -/
lemma AreTyped.cons (hf : IsTyped f s) (h : AreTyped fields ps) :
    AreTyped (f :: fields)
      ((if isIdentity f.name then [] else [.mk f.name f.isRequired f.isOptional s]) ++ ps) := by
  have hmodifiers : Mongoose.modifiers false f.isRequired f.kind =
      if f.isRequired then ["required: true".toList] else [] := List.append_nil _
  cases hid : isIdentity f.name with
  | true =>
    refine ⟨?_, ?_, fun scope => ?_, ?_⟩
    · simpa [Mongoose.properties, hid] using h.mongoose
    · simpa [Zod.properties, hid] using h.zod
    · simpa [TypeScript.properties, hid] using h.typeScript scope
    · simpa [OpenApi.properties, hid] using h.openApi
  | false =>
    refine ⟨?_, ?_, fun scope => ?_, ?_⟩
    · rw [Mongoose.properties, hid, h.mongoose, hf.mongoose, hmodifiers]
      cases f.isRequired with
      | true =>
        rw [if_pos rfl, Mongoose.modified_required]
        rfl
      | false => rfl
    · rw [Zod.properties, hid, h.zod, hf.zod]
      cases f.isOptional with
      | true => exact congrArg (· :: Zod.ofProperties ps) (List.append_assoc _ _ _).symm
      | false => rfl
    · rw [TypeScript.properties, hid, h.typeScript, hf.typeScript]
      cases f.isOptional with
      | true =>
        have hmarker : f.name ++ ['?'] ++ ": ".toList = f.name ++ "?: ".toList := List.append_assoc _ _ _
        exact congrArg (fun t => (t ++ TypeScript.ofShape scope f.name s) :: TypeScript.ofProperties scope ps) hmarker
      | false => rfl
    · rw [OpenApi.properties, hid, h.openApi, hf.openApi]
      rfl

lemma areTyped_nil : AreTyped [] [] := ⟨rfl, rfl, fun _ => rfl, rfl⟩

mutual

lemma isTyped_shape_of_distinct : ∀ f : Field, IsDescribed f → AreDistinct f.children → IsTyped f f.shape
  | ⟨name, isRequired, isOptional, kind, children⟩, hdescribed, hdistinct => by
    obtain ⟨hkind, hchildren⟩ := hdescribed
    have hproperties := areTyped_shapes children hchildren hdistinct
    rw [shape.eq_def]
    cases kind with
    | scalar s => cases s <;> exact ⟨rfl, rfl, fun _ => rfl, rfl⟩
    | unknown tag => exact ⟨rfl, rfl, fun _ => rfl, rfl⟩
    | reference target => exact ⟨Mongoose.reference_eq target, rfl, fun _ => rfl, rfl⟩
    | enumeration values =>
      match values, hkind with
      | some (v :: vs), _ =>
        exact ⟨Mongoose.enumType_eq v vs, Zod.enumeration_eq (v :: vs), fun _ => rfl, rfl⟩
    | list item target => exact isTyped_list (of_decide_eq_true hkind)
    | record => exact isTyped_record hdistinct hproperties
termination_by structural f => f

lemma areTyped_shapes : ∀ fields : List Field, (∀ f ∈ fields, IsDescribed f) → AreDistinct fields →
    AreTyped fields (shapes fields)
  | [], _, _ => areTyped_nil
  | f :: fs, hdescribed, hdistinct => by
    have hf := isTyped_shape_of_distinct f (hdescribed f List.mem_cons_self)
      (hdistinct.children f List.mem_cons_self)
    have hfs := areTyped_shapes fs (fun g hg => hdescribed g (List.mem_cons_of_mem _ hg)) hdistinct.tail
    exact .cons hf hfs
termination_by structural fs => fs

end

/-- **One shape for all outputs**: where attributes say what they are there for and siblings have
distinct names, the four types of a field render its shape, whose head the static type shows. -/
theorem IsDescribed.isTyped_shape (hdescribed : f.IsDescribed) (hdistinct : AreDistinct f.children) :
    f.IsTyped f.shape ∧
      ∀ scope, TypeScript.headOf? (TypeScript.type scope f) = some f.shape.head := by
  have htyped := isTyped_shape_of_distinct f hdescribed hdistinct
  refine ⟨htyped, fun scope => ?_⟩
  rw [htyped.typeScript, TypeScript.headOf?_ofShape]

/-- An object with a list of every kind, an enumeration, and an object with a list of objects in it. -/
def shipmentField : Field :=
  ⟨"shipment", true, false, .record,
    [.leaf "tags" false true (.list (some "string") none),
      .leaf "owners" false false (.list none (some "User")),
      .leaf "carriers" false false (.list (some objectIdTag) (some "Carrier")),
      .leaf "notes" false true (.list none (some "OBJECT")),
      .leaf "_ID" false false (.reference none),
      .leaf "state" true true (.enumeration (some ["sent", "lost"])),
      .leaf "extra" false false .record,
      ⟨"address", true, false, .record,
        [⟨"lines", true, false, .list (some "string") (some objectTag),
          [.leaf "text" true false (.scalar .string), .leaf "since" false true (.scalar .date)]⟩]⟩]⟩

theorem isTyped_shipmentField : shipmentField.IsDescribed ∧ AreDistinct shipmentField.children ∧
    shipmentField.IsTyped shipmentField.shape ∧
    TypeScript.headOf? (TypeScript.type [] shipmentField) = some .object := by
  have hdescribed : shipmentField.IsDescribed := by
    repeat' first
      | refine .intro rfl (List.forall_mem_cons.2 ⟨?_, ?_⟩)
      | refine .intro rfl nofun
      | refine List.forall_mem_cons.2 ⟨?_, ?_⟩
      | exact nofun
  have hdistinct : AreDistinct shipmentField.children := by
    repeat' first
      | refine .intro (by decide) (List.forall_mem_cons.2 ⟨?_, ?_⟩)
      | exact AreDistinct.nil
      | refine List.forall_mem_cons.2 ⟨?_, ?_⟩
      | exact nofun
  have htyped := hdescribed.isTyped_shape hdistinct
  exact ⟨hdescribed, hdistinct, htyped.1, htyped.2 []⟩

end Field

end Scaffold
