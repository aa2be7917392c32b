import Mathlib.Data.List.Basic
import Mathlib.Tactic.Common
import Scaffold.Proofs.Recovery.Interface

/-!
# The kind that a type text stands for

Types say less than kinds: a tag outside of the vocabulary, an enumeration without values and a
string have one type, and so have the lists whose items are any of these.  `Kind.normal` is what is
left of a kind in its type, and reading the type gives just that (`fieldOf_nested`, `fieldOf_top`).

The obstruction is that a type text is tested in a fixed order, first as a name of an enumeration,
then for the phrase `objectid`, then for brackets, then as a name of an interface.  Names of
enumerations end with `Enum` and those of nested interfaces with `Item`, so no fixed type is taken
for a name; and the name of a nested interface must not contain `objectid`, which is the one
condition on names here.
-/

namespace Scaffold

/-! ## What is left of a field -/

/-- What is left of a kind in its type, for a kind that is no list of objects. -/
def Kind.normal : Kind → Kind
  | scalar s => scalar s
  | unknown _ => scalar .string
  | enumeration (some (v :: vs)) => enumeration (some (v :: vs))
  | enumeration _ => scalar .string
  | reference target => reference target
  | list (some item) target =>
    if item = objectIdTag then list (some objectIdTag) target
    else list (some ((Scalar.ofTag? item).getD .string).tag) none
  | list none target =>
    if target.isNone || Field.targetsObject target then list none none
    else list (some objectIdTag) target
  | record => record

/-- The module that a kind points to. -/
def Kind.target : Kind → Option Text
  | reference target => target
  | list _ target => target
  | _ => none

/-- What is left of a nested field: whether it is required is read from the optional marker. -/
def Field.normalNested (f : Field) : Field :=
  ⟨f.name, !f.isOptional, f.isOptional, f.kind.normal, []⟩

/-- What is left of a field. -/
def Field.normal (f : Field) : Field :=
  if f.isStructuredList then
    ⟨f.name, f.isRequired, f.isOptional, .list none (some objectTag), f.children.map normalNested⟩
  else ⟨f.name, f.isRequired, f.isOptional, f.kind.normal, []⟩

/-! ## Lower case of ASCII texts -/

namespace Text

variable {t u : Text}

lemma lowerAfter_eq_flatMap (h : ∀ c ∈ t, c.toNat < 128) (before : Text) :
    lowerAfter before t = t.flatMap lowerChar := by
  induction t generalizing before with
  | nil => rfl
  | cons c t ih =>
    have hsigma : ¬ c.toNat = 0x3A3 := by
      have := h c (by simp)
      omega
    rw [lowerAfter, if_neg hsigma, ih fun d hd => h d (by simp [hd]), List.flatMap_cons]

lemma lower_append (ht : ∀ c ∈ t, c.toNat < 128) (hu : ∀ c ∈ u, c.toNat < 128) :
    lower (t ++ u) = lower t ++ lower u := by
  have htu : ∀ c ∈ t ++ u, c.toNat < 128 := by
    intro c hc
    rcases List.mem_append.1 hc with hc | hc
    · exact ht c hc
    · exact hu c hc
  rw [lower, lower, lower, lowerAfter_eq_flatMap htu, lowerAfter_eq_flatMap ht,
    lowerAfter_eq_flatMap hu, List.flatMap_append]

end Text

namespace Recovery

open TypeScript (propertyName IsIdentifierText)
open Interface (propertyOf)

variable {E : List (Text × List Text)} {N : List (Text × List Field)} {entry : Option SchemaEntry}
  {type : Text}

/-! ## Type texts -/

/-- Whether a type text speaks of references. -/
def mentionsObjectId (type : Text) : Bool := Text.occurs "objectid" (Text.lower type)

/-- A type text that is no name of an enumeration, where the model lists no values. -/
lemma namedKind?_eq (henum : Table.find? type E = none) (hentry : ∀ e, entry = some e → e.values = [])
    (hunion : '|' ∉ type) :
    namedKind? ⟨E, N⟩ entry type =
      if mentionsObjectId type then
        if Text.endsWith "[]" type then some (.list (some objectIdTag) (entry.bind SchemaEntry.target), [])
        else some (.reference (entry.bind SchemaEntry.target), [])
      else if Text.endsWith "[]" type then
        some (listKind ⟨E, N⟩ (Text.trim (type.take (type.length - 2))))
      else (Table.find? type N).map fun children => (.record, children) := by
  have hliterals : unionLiterals? type = none := by rw [unionLiterals?, if_neg hunion]
  unfold namedKind?
  simp only [henum, hliterals]
  cases entry with
  | none => rfl
  | some e =>
    obtain ⟨values, target, isRequired⟩ := e
    obtain rfl : values = [] := hentry _ rfl
    rfl

/-- The scope of a module: enumerations end with `Enum` and nested interfaces with `Item`. -/
structure IsScope (E : List (Text × List Text)) (N : List (Text × List Field)) : Prop where
  enums : ∀ k ∈ Table.keys E, "Enum".toList <:+ k
  nested : ∀ k ∈ Table.keys N, "Item".toList <:+ k

namespace IsScope

variable (h : IsScope E N)
include h

lemma find?_enums (ht : ¬ "Enum".toList <:+ type) : Table.find? type E = none :=
  Table.find?_eq_none_of_not_mem fun hmem => ht (h.enums _ hmem)

lemma find?_nested (ht : ¬ "Item".toList <:+ type) : Table.find? type N = none :=
  Table.find?_eq_none_of_not_mem fun hmem => ht (h.nested _ hmem)

/-- A type that is none of the names of a scope, no list and no reference. -/
lemma namedKind?_of_plain (hentry : ∀ e, entry = some e → e.values = [])
    (henum : ¬ "Enum".toList <:+ type) (hnested : ¬ "Item".toList <:+ type) (hunion : '|' ∉ type)
    (hid : mentionsObjectId type = false) (hlist : Text.endsWith "[]" type = false) :
    namedKind? ⟨E, N⟩ entry type = none := by
  rw [namedKind?_eq (h.find?_enums henum) hentry hunion, hid, hlist, h.find?_nested hnested]
  rfl

lemma namedKind?_scalar (hentry : ∀ e, entry = some e → e.values = []) (s : Scalar) :
    namedKind? ⟨E, N⟩ entry (TypeScript.scalarName s) = none := by
  have hclosed : (¬ "Enum".toList <:+ TypeScript.scalarName s) ∧
      (¬ "Item".toList <:+ TypeScript.scalarName s) ∧ '|' ∉ TypeScript.scalarName s ∧
      mentionsObjectId (TypeScript.scalarName s) = false ∧
      Text.endsWith "[]" (TypeScript.scalarName s) = false := by
    cases s <;> decide
  obtain ⟨h₁, h₂, h₃, h₄, h₅⟩ := hclosed
  exact h.namedKind?_of_plain hentry h₁ h₂ h₃ h₄ h₅

lemma namedKind?_record (hentry : ∀ e, entry = some e → e.values = []) :
    namedKind? ⟨E, N⟩ entry "Record<string, any>" = none :=
  h.namedKind?_of_plain hentry (by decide) (by decide) (by decide) (by decide) (by decide)

lemma namedKind?_reference (hentry : ∀ e, entry = some e → e.values = []) :
    namedKind? ⟨E, N⟩ entry TypeScript.referenceName =
      some (.reference (entry.bind SchemaEntry.target), []) := by
  have hid : mentionsObjectId TypeScript.referenceName = true := by decide
  have hlist : Text.endsWith "[]" TypeScript.referenceName = false := by decide
  have henum : ¬ "Enum".toList <:+ TypeScript.referenceName := by decide
  rw [namedKind?_eq (h.find?_enums henum) hentry (by decide), hid, hlist]
  rfl

lemma namedKind?_references (hentry : ∀ e, entry = some e → e.values = []) :
    namedKind? ⟨E, N⟩ entry (TypeScript.referenceName ++ "[]") =
      some (.list (some objectIdTag) (entry.bind SchemaEntry.target), []) := by
  have hid : mentionsObjectId (TypeScript.referenceName ++ "[]") = true := by decide
  have hlist : Text.endsWith "[]" (TypeScript.referenceName ++ "[]") = true := by decide
  have henum : ¬ "Enum".toList <:+ TypeScript.referenceName ++ "[]" := by decide
  rw [namedKind?_eq (h.find?_enums henum) hentry (by decide), hid, hlist]
  rfl

lemma namedKind?_any (hentry : ∀ e, entry = some e → e.values = []) :
    namedKind? ⟨E, N⟩ entry "any[]" = some (.list none none, []) := by
  have hid : mentionsObjectId "any[]" = false := by decide
  have hlist : Text.endsWith "[]" "any[]" = true := by decide
  have henum : ¬ "Enum".toList <:+ "any[]".toList := by decide
  have hbase : Text.trim ("any[]".toList.take ("any[]".toList.length - 2)) = "any".toList := by
    decide
  have hany : Table.find? "any".toList N = none := h.find?_nested (by decide)
  rw [namedKind?_eq (h.find?_enums henum) hentry (by decide), hid, hlist, hbase, listKind]
  simp only [hany]
  rfl

lemma namedKind?_scalars (hentry : ∀ e, entry = some e → e.values = []) (s : Scalar) :
    namedKind? ⟨E, N⟩ entry (TypeScript.scalarName s ++ "[]") = some (.list (some s.tag) none, []) := by
  have hclosed : mentionsObjectId (TypeScript.scalarName s ++ "[]") = false ∧
      Text.endsWith "[]" (TypeScript.scalarName s ++ "[]") = true ∧
      (¬ "Enum".toList <:+ TypeScript.scalarName s ++ "[]") ∧ '|' ∉ TypeScript.scalarName s ++ "[]" ∧
      Text.trim ((TypeScript.scalarName s ++ "[]").take ((TypeScript.scalarName s ++ "[]").length - 2)) =
        TypeScript.scalarName s ∧ closestTag (TypeScript.scalarName s) = s.tag ∧
      (¬ (TypeScript.scalarName s = "any".toList ∨ TypeScript.scalarName s = "unknown".toList)) ∧
      ¬ "Item".toList <:+ TypeScript.scalarName s := by
    cases s <;> decide
  obtain ⟨hid, hlist, henum, hunion, hbase, htag, hany, hitem⟩ := hclosed
  rw [namedKind?_eq (h.find?_enums henum) hentry hunion, hid, hlist, hbase, listKind,
    h.find?_nested hitem]
  simp only [if_neg hany, htag]
  rfl

end IsScope

/-! ## Lists of objects -/

/-- The name of the items of a list type. -/
def baseOf (type : Text) : Text := Text.trim (type.take (type.length - 2))

lemma baseOf_items {item : Text} (hname : Text.IsName item) : baseOf (item ++ "[]") = item := by
  have htake : (item ++ "[]".toList).take ((item ++ "[]".toList).length - 2) = item := by
    rw [List.length_append, show "[]".toList.length = 2 from rfl, Nat.add_sub_cancel, List.take_left]
  rw [baseOf, htake]
  exact (TypeScript.TypeShape.name hname).isType.isTypeLine.trim_eq

lemma mentionsObjectId_items {item : Text} (hascii : ∀ c ∈ item, c.toNat < 128) :
    mentionsObjectId (item ++ "[]") = mentionsObjectId item := by
  have hlower : Text.lower (item ++ "[]".toList) = Text.lower item ++ "[]".toList := by
    rw [Text.lower_append hascii (Text.forall_mem_of_all (by decide))]
    rfl
  unfold mentionsObjectId
  rw [hlower, show "[]".toList = '[' :: [']'] from rfl,
    Text.occurs_append_cons (by decide) (by decide)]
  exact Bool.or_false _

/-- A list of objects whose item type is declared. -/
lemma namedKind?_items {item : Text} {children : List Field} (hname : Text.IsName item)
    (hascii : ∀ c ∈ item, c.toNat < 128) (henum : Table.find? (item ++ "[]") E = none)
    (hentry : ∀ e, entry = some e → e.values = []) (hid : mentionsObjectId item = false)
    (hnested : Table.find? item N = some children) :
    namedKind? ⟨E, N⟩ entry (item ++ "[]") = some (.list none (some objectTag), children) := by
  have hunion : '|' ∉ item ++ "[]".toList := by
    rw [List.mem_append, not_or]
    exact ⟨Text.not_mem_of_isNameChar hname.2 (by decide), by decide⟩
  have hlist : Text.endsWith "[]" (item ++ "[]".toList) = true :=
    List.isSuffixOf_iff_suffix.2 (List.suffix_append _ _)
  rw [namedKind?_eq henum hentry hunion, mentionsObjectId_items hascii, hid, hlist, ← baseOf,
    baseOf_items hname, listKind]
  simp only [hnested]
  rfl

/-! ## Fields -/

@[simp] lemma name_fieldOf (scope : Scope) (entry : Option SchemaEntry) (p : Property) :
    (fieldOf scope entry p).name = p.name := by
  unfold fieldOf fieldWithin
  rfl

/-- The kind of a field with a type whose kind is named. -/
lemma fieldOf_of_named {p : Property} {kind : Kind} {children : List Field}
    (htrim : Text.trim p.type = p.type)
    (h : namedKind? ⟨E, N⟩ entry p.type = some (kind, children)) :
    fieldOf ⟨E, N⟩ entry p = ⟨p.name, (entry.map SchemaEntry.isRequired).getD !p.isOptional,
      p.isOptional, kind, children⟩ := by
  unfold fieldOf fieldWithin
  simp only [htrim, h]
  cases entry <;> cases p.type.length <;> rfl

/-- The kind of a field with a type that is read as it stands. -/
lemma fieldOf_of_plain {p : Property} (htrim : Text.trim p.type = p.type)
    (h : namedKind? ⟨E, N⟩ entry p.type = none) (hinline : isInlineObject p.type = false) :
    fieldOf ⟨E, N⟩ entry p = ⟨p.name, (entry.map SchemaEntry.isRequired).getD !p.isOptional,
      p.isOptional, plainKind p.type, []⟩ := by
  unfold fieldOf fieldWithin
  simp only [htrim, h, hinline]
  cases entry <;> cases p.type.length <;> rfl

/-- What the model has to say about a kind: no values that are not there, and its target. -/
structure Agrees (entry : Option SchemaEntry) (kind : Kind) : Prop where
  values : (∀ v vs, kind ≠ .enumeration (some (v :: vs))) → ∀ e, entry = some e → e.values = []
  target : entry.bind SchemaEntry.target = kind.normal.target

variable {scope name : Text} {kind : Kind}

/-- A type without a tag is that of lists of anything, or of references. -/
lemma namedKind?_listType_none (h : IsScope E N) {target : Option Text} (htarget : target ≠ some [])
    (hentry : ∀ e, entry = some e → e.values = [])
    (hagree : entry.bind SchemaEntry.target = (Kind.list none target).normal.target) :
    namedKind? ⟨E, N⟩ entry (TypeScript.listType none target) =
      some ((Kind.list none target).normal, []) := by
  have hbranch : (target.isNone || target = some [] || Field.targetsObject target) =
      (target.isNone || Field.targetsObject target) := by simp [htarget]
  by_cases hany : (target.isNone || Field.targetsObject target) = true
  · have htype : TypeScript.listType none target = "any[]".toList := by
      rw [TypeScript.listType]
      simp only [hbranch, hany, if_true]
    have hnormal : (Kind.list none target).normal = .list none none := by
      rw [Kind.normal, if_pos hany]
    rw [htype, hnormal]
    exact h.namedKind?_any hentry
  · have htype : TypeScript.listType none target = TypeScript.referenceName ++ "[]" := by
      rw [TypeScript.listType, hbranch, if_neg hany]
    have hnormal : (Kind.list none target).normal = .list (some objectIdTag) target := by
      rw [Kind.normal, if_neg hany]
    rw [hnormal] at hagree ⊢
    rw [htype, h.namedKind?_references hentry, hagree]
    rfl

/-- A type with a tag is that of the items, where a tag outside of the vocabulary is that of strings. -/
lemma namedKind?_listType_some (h : IsScope E N) {tag : Text} {target : Option Text} (htag : tag ≠ [])
    (hentry : ∀ e, entry = some e → e.values = [])
    (hagree : entry.bind SchemaEntry.target = (Kind.list (some tag) target).normal.target) :
    namedKind? ⟨E, N⟩ entry (TypeScript.listType (some tag) target) =
      some ((Kind.list (some tag) target).normal, []) := by
  have htype : TypeScript.listType (some tag) target = TypeScript.itemName tag ++ "[]" := by
    cases tag with
    | nil => exact absurd rfl htag
    | cons c tag => rfl
  rw [htype]
  by_cases hid : tag = objectIdTag
  · subst hid
    have hname : TypeScript.itemName objectIdTag = TypeScript.referenceName := by decide
    rw [Kind.normal, if_pos rfl] at hagree ⊢
    rw [hname, h.namedKind?_references hentry, hagree]
    rfl
  · have hname : TypeScript.itemName tag = TypeScript.scalarName ((Scalar.ofTag? tag).getD .string) := by
      rw [TypeScript.itemName]
      cases Scalar.ofTag? tag with
      | some s => rfl
      | none =>
        simp only [if_neg hid]
        rfl
    rw [hname, h.namedKind?_scalars hentry, Kind.normal, if_neg hid]

/-- What a type without nested fields is read as, be it by name or as it stands. -/
structure IsReadAs (E : List (Text × List Text)) (N : List (Text × List Field)) (entry : Option SchemaEntry)
    (type : Text) (kind : Kind) : Prop where
  trim : Text.trim type = type
  read : namedKind? ⟨E, N⟩ entry type = some (kind, []) ∨
    namedKind? ⟨E, N⟩ entry type = none ∧ isInlineObject type = false ∧ plainKind type = kind

lemma IsReadAs.fieldOf_eq {p : Property} (h : IsReadAs E N entry p.type kind) :
    fieldOf ⟨E, N⟩ entry p = ⟨p.name, (entry.map SchemaEntry.isRequired).getD !p.isOptional,
      p.isOptional, kind, []⟩ := by
  rcases h.read with hnamed | ⟨hnone, hinline, rfl⟩
  · exact fieldOf_of_named h.trim hnamed
  · exact fieldOf_of_plain h.trim hnone hinline

/-- A type that was printed has no blanks around it. -/
lemma trim_typeShape (h : TypeScript.TypeShape type) : Text.trim type = type := h.isType.isTypeLine.trim_eq

namespace IsScope

variable (h : IsScope E N) (hentry : ∀ e, entry = some e → e.values = [])
include h hentry

lemma isReadAs_scalar (s : Scalar) : IsReadAs E N entry (TypeScript.scalarName s) (.scalar s) := by
  have hplain : isInlineObject (TypeScript.scalarName s) = false ∧
      plainKind (TypeScript.scalarName s) = .scalar s := by
    cases s <;> decide
  exact ⟨trim_typeShape (.name (TypeScript.isName_scalarName s)), .inr ⟨h.namedKind?_scalar hentry s, hplain⟩⟩

lemma isReadAs_record : IsReadAs E N entry "Record<string, any>" .record :=
  ⟨trim_typeShape (.fixed (t := "Record<string, any>") (by decide)),
    .inr ⟨h.namedKind?_record hentry, by decide, by decide⟩⟩

lemma isReadAs_reference : IsReadAs E N entry TypeScript.referenceName
    (.reference (entry.bind SchemaEntry.target)) :=
  ⟨trim_typeShape (.fixed (t := TypeScript.referenceName) (by decide)), .inl (h.namedKind?_reference hentry)⟩

lemma isReadAs_listType {item target : Option Text} (hitem : item ≠ some []) (htarget : target ≠ some [])
    (hagree : entry.bind SchemaEntry.target = (Kind.list item target).normal.target) :
    IsReadAs E N entry (TypeScript.listType item target) (Kind.list item target).normal := by
  refine ⟨trim_typeShape (TypeScript.typeShape_listType item target), .inl ?_⟩
  cases item with
  | none => exact namedKind?_listType_none h htarget hentry hagree
  | some tag => exact namedKind?_listType_some h (fun htag => hitem (by rw [htag])) hentry hagree

end IsScope

lemma isReadAs_enumeration {t v : Text} {vs : List Text} (ht : Text.IsName t)
    (henum : Table.find? t E = some (v :: vs)) : IsReadAs E N entry t (.enumeration (some (v :: vs))) := by
  refine ⟨trim_typeShape (.name ht), .inl ?_⟩
  unfold namedKind?
  simp only [henum]

/-- **The type of a field** that is no list of objects is read as the normal form of its kind. -/
lemma isReadAs_type (h : IsScope E N) (hkind : kind.IsProper) (hname : IsIdentifierText name)
    (hscope : ∀ c ∈ scope, Text.isNameChar c = true) (hagree : Agrees entry kind)
    (henum : ∀ v vs, kind = .enumeration (some (v :: vs)) →
      Table.find? (Field.enumTypeName scope name) E = some (v :: vs)) (isRequired isOptional : Bool) :
    IsReadAs E N entry (TypeScript.type scope ⟨name, isRequired, isOptional, kind, []⟩) kind.normal := by
  have hlist : ∀ item target, TypeScript.type scope ⟨name, isRequired, isOptional, .list item target, []⟩ =
      TypeScript.listType item target := by
    intro item target
    rw [TypeScript.type, Field.structured_nil]
    rfl
  have hreference : ∀ target, kind = .reference target →
      IsReadAs E N entry TypeScript.referenceName kind.normal := by
    rintro target rfl
    have htarget : entry.bind SchemaEntry.target = target := hagree.target
    have hread := h.isReadAs_reference (hagree.values (by simp))
    rwa [htarget] at hread
  -- an enumeration without values is written as a plain text, and a list of objects is not among these
  cases hkind with
  | leaf hleaf =>
    cases hleaf with
    | scalar s =>
      rw [TypeScript.type]
      exact h.isReadAs_scalar (hagree.values (by simp)) s
    | unknown t =>
      rw [TypeScript.type]
      exact h.isReadAs_scalar (hagree.values (by simp)) .string
    | enumeration values =>
      rw [TypeScript.type]
      rcases values with _ | _ | ⟨v, vs⟩
      · exact h.isReadAs_scalar (hagree.values (by simp)) .string
      · exact h.isReadAs_scalar (hagree.values (by simp)) .string
      · exact isReadAs_enumeration (TypeScript.isName_enumTypeName hscope hname) (henum v vs rfl)
    | reference =>
      rw [TypeScript.type]
      exact hreference none rfl
    | list =>
      rw [hlist]
      exact h.isReadAs_listType (hagree.values (by simp)) (by simp) (by simp) hagree.target
    | record =>
      rw [TypeScript.type]
      exact h.isReadAs_record (hagree.values (by simp))
  | reference t ht =>
    rw [TypeScript.type]
    exact hreference (some t) rfl
  | list item target hitem htarget =>
    rw [hlist]
    exact h.isReadAs_listType (hagree.values (by simp)) hitem htarget hagree.target

/-- A field that is no list of objects is read back up to its normal form. -/
lemma fieldOf_proper (h : IsScope E N) (hkind : kind.IsProper) (hname : IsIdentifierText name)
    (hscope : ∀ c ∈ scope, Text.isNameChar c = true) (hagree : Agrees entry kind)
    (henum : ∀ v vs, kind = .enumeration (some (v :: vs)) →
      Table.find? (Field.enumTypeName scope name) E = some (v :: vs)) (isRequired isOptional : Bool) :
    fieldOf ⟨E, N⟩ entry (propertyOf scope ⟨name, isRequired, isOptional, kind, []⟩) =
      ⟨name, (entry.map SchemaEntry.isRequired).getD !isOptional, isOptional, kind.normal, []⟩ :=
  (isReadAs_type h hkind hname hscope hagree henum isRequired isOptional).fieldOf_eq (p := ⟨name, isOptional, _⟩)

/-- **A nested field is read back** up to its normal form. -/
theorem fieldOf_nested (h : IsScope E []) {f : Field} (hf : f.IsReadNested)
    (hname : IsIdentifierText f.name) (hscope : ∀ c ∈ scope, Text.isNameChar c = true)
    (henum : f.values ≠ [] → Table.find? (Field.enumTypeName scope f.name) E = some f.values) :
    fieldOf ⟨E, []⟩ none (propertyOf scope f) = f.normalNested := by
  obtain ⟨name, isRequired, isOptional, kind, children⟩ := f
  obtain rfl : children = [] := hf.children
  have hkind : kind.IsLeaf := hf.kind
  have hagree : Agrees none kind := by
    refine ⟨fun _ e he => (by cases he), ?_⟩
    cases hkind with
    | enumeration values =>
      match values with
      | none => rfl
      | some [] => rfl
      | some (v :: vs) => rfl
    | _ => rfl
  refine fieldOf_proper h (.leaf hkind) hname hscope hagree ?_ isRequired isOptional
  rintro v vs rfl
  exact henum (by simp [Field.values])

/-- The type of a list of objects. -/
lemma type_of_structured {f : Field} (hf : f.IsRead) (hs : f.isStructuredList = true) (scope : Text) :
    TypeScript.type scope f = f.itemTypeName ++ "[]" := by
  have hkind := hf.objects (hf.isStructuredList_iff.1 hs)
  obtain ⟨name, isRequired, isOptional, kind, children⟩ := f
  obtain rfl : kind = .list none (some objectTag) := hkind
  rw [TypeScript.type]
  exact if_pos hs

lemma toNat_lt_of_mem_itemTypeName {f : Field} (hname : IsIdentifierText f.name) :
    ∀ c ∈ f.itemTypeName, c.toNat < 128 := by
  have hend : ∀ c ∈ "Item".toList, c.toNat < 128 := Text.forall_mem_of_all (by decide)
  intro c hc
  rcases List.mem_append.1 hc with hc | hc
  · exact Text.toNat_lt_of_isIdentifierRest (Text.isIdentifierRest_capitalizeFirst hname.2 c hc)
  · exact hend c hc

/-- A list type is no name of an enumeration. -/
lemma not_suffix_enum (t : Text) : ¬ "Enum".toList <:+ t ++ "[]" := by
  rintro ⟨u, hu⟩
  have hlast := congrArg List.getLast? hu
  rw [List.getLast?_append_of_ne_nil _ (by decide), List.getLast?_append_of_ne_nil _ (by decide)] at hlast
  exact absurd hlast (by decide)

/-- **A list of objects is read back** with what is declared under the name of its items. -/
theorem fieldOf_items (h : IsScope E N) {f : Field} (hf : f.IsRead) (hname : IsIdentifierText f.name)
    (hs : f.isStructuredList = true) (hentry : ∀ e, entry = some e → e.values = [])
    (hid : mentionsObjectId f.itemTypeName = false) {children : List Field}
    (hfind : Table.find? f.itemTypeName N = some children) :
    fieldOf ⟨E, N⟩ entry (propertyOf [] f) = ⟨f.name, (entry.map SchemaEntry.isRequired).getD !f.isOptional,
      f.isOptional, .list none (some objectTag), children⟩ := by
  have hitem := TypeScript.isName_itemTypeName hname
  rw [propertyOf, type_of_structured hf hs]
  exact fieldOf_of_named (p := ⟨f.name, f.isOptional, f.itemTypeName ++ "[]"⟩)
    (TypeScript.TypeShape.list hitem).isType.isTypeLine.trim_eq
    (namedKind?_items hitem (toNat_lt_of_mem_itemTypeName hname) (h.find?_enums (not_suffix_enum _)) hentry
      hid hfind)

/-- **A field is read back** up to its normal form. -/
theorem fieldOf_top (h : IsScope E N) {f : Field} (hf : f.IsRead) (hname : IsIdentifierText f.name)
    {e : SchemaEntry} (hagree : Agrees (some e) f.kind) (hrequired : e.isRequired = f.isRequired)
    (henum : f.values ≠ [] → Table.find? (Field.enumTypeName [] f.name) E = some f.values)
    (hnested : f.isStructuredList = true → mentionsObjectId f.itemTypeName = false ∧
      Table.find? f.itemTypeName N = some (f.children.map Field.normalNested)) :
    fieldOf ⟨E, N⟩ (some e) (propertyOf [] f) = f.normal := by
  by_cases hs : f.isStructuredList = true
  · obtain ⟨hid, hfind⟩ := hnested hs
    have hkind := hf.objects (hf.isStructuredList_iff.1 hs)
    have hentry := hagree.values (by rw [hkind]; simp)
    rw [fieldOf_items h hf hname hs hentry hid hfind, Field.normal, if_pos hs, ← hrequired]
    rfl
  · obtain ⟨name, isRequired, isOptional, kind, children⟩ := f
    have hchildren : children = [] := by
      by_contra hne
      exact hs (hf.isStructuredList_iff.2 hne)
    subst hchildren
    rw [Field.normal, if_neg hs, ← hrequired]
    refine fieldOf_proper h hf.kind hname (by simp) hagree ?_ isRequired isOptional
    intro v vs hkind
    obtain rfl : kind = .enumeration (some (v :: vs)) := hkind
    exact henum (by simp [Field.values])

end Recovery

end Scaffold
