import Scaffold.Field.Definition
import Scaffold.Proofs.Field.Accounting
import Scaffold.Proofs.Recovery.Kinds
import Scaffold.Proofs.Recovery.Members
import Scaffold.Proofs.Table
import Scaffold.Recovery.Fields

/-!
# Reading never fails a check

A field that is read from generated files comes about by handing attributes over to the checks of field
definitions.  `build` is the reading in that form: each way to read a type picks attributes of its own,
and the checks (`Attributes.accept`) may refuse them.  They never do, whatever the files hold, and what
they let through is what `fields` answers (`buildFields_eq`).  The reason is one inversion: a type text
stands for one of seven kinds or for what it is read as itself (`IsNamed`, `agree_attributes?`), and the
attributes that are picked are those of the field.

`build` follows inline objects as deep as they go, with no bound on the depth.  It ends because what
stands in the properties of an inline object is shorter than the object (`length_lt_of_mem_inline`); this
also shows that the bound of `fieldWithin` is never reached.
-/

namespace Scaffold

/-! ## Definitions from attributes -/

namespace Attributes

variable {a : Attributes}

/-- The members of a definition with the attributes, nested definitions apart. -/
def members (a : Attributes) : Json.Members :=
  [Json.member "name" (.str a.name), Json.member "type" (.str a.tag),
    Json.member "is_required" (.bool a.isRequired), Json.member "is_optional" (.bool a.isOptional),
    Json.member "ref" (.ofOption a.target),
    Json.member "enum_values" (match a.values with
      | none => .null
      | some vs => .strings vs),
    Json.member "array_item_type" (.ofOption a.item)]

/-- A field from attributes, through all checks of definitions. -/
def accept (a : Attributes) : Except (List Issue) Field := Definition.assemble a.members (.ok a.properties)

lemma optionalText_ofOption (t : Option Text) : Check.optionalText (.ofOption t) = .ok t := by
  cases t <;> rfl

lemma textItems_strings (place : List Step) (index : Nat) (vs : List Text) :
    Definition.textItems place index (vs.map .str) = .ok vs := by
  induction vs generalizing index with
  | nil => rfl
  | cons v vs ih =>
    rw [List.map_cons, Definition.textItems, ih]
    rfl

/-- A name and a tag must be there, tags are normalized, and then the attributes must fit together. -/
lemma accept_of_build {f : Field} (hname : a.name ≠ []) (htag : a.tag ≠ [])
    (h : { a with tag := normalizeTag a.tag, item := a.item.map normalizeTag : Attributes }.build = .ok f) :
    a.accept = .ok f := by
  have hnonempty : ∀ {t : Text}, t ≠ [] → Check.nonemptyText (.str t) = .ok t := by
    intro t ht
    obtain ⟨c, u, rfl⟩ := List.exists_cons_of_ne_nil ht
    rfl
  have hvalues : Definition.checkValues (Table.find? "enum_values".toList a.members) = .ok a.values := by
    have hfind : Table.find? "enum_values".toList a.members = some (match a.values with
      | none => .null
      | some vs => .strings vs) := rfl
    rw [hfind]
    cases a.values with
    | none => rfl
    | some vs => exact congrArg (Except.map some) (textItems_strings _ 0 vs)
  have hfind : Table.find? "name".toList a.members = some (.str a.name) ∧
      Table.find? "type".toList a.members = some (.str a.tag) ∧
      Table.find? "is_required".toList a.members = some (.bool a.isRequired) ∧
      Table.find? "is_optional".toList a.members = some (.bool a.isOptional) ∧
      Table.find? "ref".toList a.members = some (.ofOption a.target) ∧
      Table.find? "array_item_type".toList a.members = some (.ofOption a.item) :=
    ⟨rfl, rfl, rfl, rfl, rfl, rfl⟩
  have hunknown : Check.unknownNames Definition.attributeNames a.members = [] := rfl
  obtain ⟨hfindName, hfindTag, hfindRequired, hfindOptional, hfindTarget, hfindItem⟩ := hfind
  simp only [accept, Definition.assemble, hvalues, hunknown, hfindName, hfindTag, hfindRequired, hfindOptional,
    hfindTarget, hfindItem, Check.required, hnonempty hname, hnonempty htag, optionalText_ofOption,
    Check.orDefault, Check.boolean, h]

end Attributes

namespace Recovery

/-! ## Shorter texts -/

variable {t w : Text} {p q : Property} {depth : Int}

lemma length_trim_le (t : Text) : (Text.trim t).length ≤ t.length := by
  obtain ⟨w, ht, -⟩ := Text.eq_trimRight_append (Text.trimLeft t)
  have hleft : (Text.trimLeft t).length ≤ t.length := (List.dropWhile_sublist _).length_le
  rw [ht, List.length_append] at hleft
  exact (Nat.le_add_right _ _).trans hleft

lemma length_le_of_mem_pieces (h : w ∈ pieces depth t) : w.length ≤ t.length := by
  induction t generalizing depth w with
  | nil =>
    obtain rfl := List.mem_singleton.1 h
    exact le_rfl
  | cons c t ih =>
    rw [pieces] at h
    split at h
    · rcases List.mem_cons.1 h with rfl | h
      · exact Nat.zero_le _
      · exact (ih h).trans (Nat.le_succ _)
    · obtain ⟨v, vs, hpieces⟩ := exists_pieces (depth + bracketStep c) t
      rw [hpieces] at h
      rcases List.mem_cons.1 h with rfl | h
      · exact Nat.succ_le_succ (ih (hpieces ▸ List.mem_cons_self))
      · exact (ih (hpieces ▸ List.mem_cons_of_mem _ h)).trans (Nat.le_succ _)

lemma length_le_of_mem_members (h : w ∈ members t) : w.length ≤ t.length := by
  obtain ⟨v, hv, rfl⟩ := List.mem_map.1 (List.mem_of_mem_filter h)
  exact (length_trim_le v).trans (length_le_of_mem_pieces hv)

lemma length_withoutSemicolon_le (t : Text) : (withoutSemicolon t).length ≤ t.length := by
  cases t with
  | nil => exact le_rfl
  | cons c t =>
    rw [withoutSemicolon]
    split
    · exact Nat.succ_le_succ (List.length_dropLast ▸ Nat.sub_le _ _)
    · exact le_rfl

lemma length_skipBlanks_le (t : Text) : (skipBlanks t).length ≤ t.length := (List.dropWhile_sublist _).length_le

/-- A type is no longer than the member that it stands in. -/
lemma length_type_le (h : property? t = some p) : p.type.length ≤ t.length := by
  simp only [property?, Option.bind_eq_bind, Option.bind_eq_some_iff] at h
  obtain ⟨⟨name, r⟩, hname, a, hcolon, h⟩ := h
  split at h
  · cases h
  obtain rfl := Option.some.inj h
  have hname : r.length ≤ t.length := by
    rw [(append_of_word? hname).1, List.length_append]
    exact Nat.le_add_left _ _
  have hcolon : a.length ≤ r.length := by
    have hafter := congrArg List.length (after?_eq_some_iff.1 hcolon)
    rw [List.length_append] at hafter
    split at hafter
    · rename_i rest hr
      obtain rfl : r = '?' :: rest := hr
      have hskip := length_skipBlanks_le rest
      rw [List.length_cons]
      dsimp only at hafter
      omega
    · have hskip := length_skipBlanks_le r
      dsimp only at hafter
      omega
  calc (Text.trim (withoutSemicolon (skipBlanks a))).length
      ≤ (withoutSemicolon (skipBlanks a)).length := length_trim_le _
    _ ≤ (skipBlanks a).length := length_withoutSemicolon_le _
    _ ≤ a.length := length_skipBlanks_le a
    _ ≤ t.length := hcolon.trans hname

/-- A type in a body is no longer than the body. -/
lemma length_type_le_of_mem (h : p ∈ properties t) : p.type.length ≤ t.length := by
  obtain ⟨l, hl, hp⟩ := List.mem_filterMap.1 h
  exact (length_type_le hp).trans (length_le_of_mem_members hl)

/-- **What stands in an inline object is shorter** than the object. -/
lemma length_lt_of_mem_inline (h : isInlineObject t = true) (hq : q ∈ properties (inlineBody t)) :
    (Text.trim q.type).length < t.length := by
  have hne : t ≠ [] := by
    rintro rfl
    cases h
  have hbody : (inlineBody t).length ≤ t.length - 1 := by
    rw [inlineBody, List.length_dropLast, List.length_drop]
    exact Nat.sub_le _ _
  have hpos := List.length_pos_of_ne_nil hne
  have htrim := length_trim_le q.type
  have hle := length_type_le_of_mem hq
  omega

/-! ## Handing attributes over -/

/-- Attributes of a property with nothing but its name, its tag and its markers. -/
def plainAttributes (entry : Option SchemaEntry) (p : Property) (tag : Text) : Attributes where
  name := p.name
  tag := tag
  isRequired := match entry with
    | some e => e.isRequired
    | none => !p.isOptional
  isOptional := p.isOptional

/-- The attributes that a type text stands for on its own, unless it is an inline object. -/
def attributesOfText? (scope : Scope) (plain : Text → Attributes) (target : Option Text) (type : Text) :
    Option Attributes :=
  match unionLiterals? type with
  | some values => some { plain enumTag with values := if values.isEmpty then none else some values }
  | none =>
    if Text.occurs "objectid" (Text.lower type) then
      if Text.endsWith "[]" type then
        some { plain arrayTag with item := some objectIdTag, target := target }
      else some { plain objectIdTag with target := target }
    else if Text.endsWith "[]" type then
      let base := Text.trim (type.take (type.length - 2))
      match Table.find? base scope.nested with
      | some children =>
        some { plain arrayTag with target := some objectTag, properties := some children }
      | none =>
        if base = "any".toList ∨ base = "unknown".toList then some (plain arrayTag)
        else some { plain arrayTag with item := some (closestTag base) }
    else
      match Table.find? type scope.nested with
      | some children => some { plain objectTag with properties := some children }
      | none =>
        if isInlineObject type then none
        else if Text.startsWith "record<" (Text.lower type) then some (plain objectTag)
        else some (plain (closestTag type))

/-- The attributes that a property hands over, unless its type is an inline object: values that are
declared under the name of the type come first, then those that the model lists. -/
def attributes? (scope : Scope) (entry : Option SchemaEntry) (p : Property) : Option Attributes :=
  let type := Text.trim p.type
  let plain := plainAttributes entry p
  match Table.find? type scope.enums with
  | some values => some { plain enumTag with values := some values }
  | none =>
    match entry with
    | some ⟨v :: vs, _, _⟩ => some { plain enumTag with values := some (v :: vs) }
    | _ => attributesOfText? scope plain (entry.bind SchemaEntry.target) type

lemma isInlineObject_of_attributes? {scope : Scope} {entry : Option SchemaEntry}
    (h : attributes? scope entry p = none) : isInlineObject (Text.trim p.type) = true := by
  simp only [attributes?, attributesOfText?] at h
  repeat' split at h
  all_goals first
    | assumption
    | cases h

/-- The attributes that an inline object hands over. -/
def inlineAttributes (entry : Option SchemaEntry) (p : Property) (children : List Field) : Attributes :=
  { plainAttributes entry p objectTag with properties := if children.isEmpty then none else some children }

/-- A field from a property, through the checks.  The properties of an inline object come first. -/
def build (scope : Scope) (entry : Option SchemaEntry) (p : Property) : Except (List Issue) Field :=
  match _h : attributes? scope entry p with
  | some a => a.accept
  | none => do
    let children ← (properties (inlineBody (Text.trim p.type))).attach.mapM fun ⟨q, _⟩ => build scope none q
    (inlineAttributes entry p children).accept
termination_by (Text.trim p.type).length
decreasing_by exact length_lt_of_mem_inline (isInlineObject_of_attributes? _h) ‹_›

/-! ## What is built -/

variable {scope : Scope} {entry : Option SchemaEntry} {type : Text} {kind : Kind} {children : List Field}
  {bound : Nat}

/-- The field of a property with a kind and nested fields. -/
def fieldWith (entry : Option SchemaEntry) (p : Property) (kind : Kind) (children : List Field) : Field where
  name := p.name
  isRequired := match entry with
    | some e => e.isRequired
    | none => !p.isOptional
  isOptional := p.isOptional
  kind := kind
  children := children

lemma fieldWithin_of_named (h : namedKind? scope entry (Text.trim p.type) = some (kind, children)) :
    fieldWithin bound scope entry p = fieldWith entry p kind children := by
  rw [fieldWithin.eq_def]
  simp only [h]
  rfl

/-- Without a name the text counts, of which nothing is read inside at the bound. -/
lemma fieldWithin_of_plain (h : namedKind? scope entry (Text.trim p.type) = none)
    (hinline : bound = 0 ∨ isInlineObject (Text.trim p.type) = false) :
    fieldWithin bound scope entry p = fieldWith entry p (plainKind (Text.trim p.type)) [] := by
  rw [fieldWithin.eq_def]
  cases bound with
  | zero =>
    simp only [h]
    rfl
  | succ bound =>
    simp only [h, hinline.resolve_left (Nat.succ_ne_zero bound), Bool.false_eq_true, if_false]
    rfl

lemma fieldWithin_of_inline (h : namedKind? scope entry (Text.trim p.type) = none)
    (hinline : isInlineObject (Text.trim p.type) = true) :
    fieldWithin (bound + 1) scope entry p = fieldWith entry p .record
      ((properties (inlineBody (Text.trim p.type))).map (fieldWithin bound scope none)) := by
  rw [fieldWithin.eq_def]
  simp only [h, hinline, if_true]
  rfl

lemma mem_closestTags (type : Text) : closestTag type ∈ Scalar.all.map Scalar.tag ++ [objectIdTag] := by
  rw [closestTag]
  cases h : (Scalar.all.map Scalar.tag ++ [objectIdTag]).find? fun tag =>
      Text.occurs tag (Text.trim (Text.lower type)) with
  | none => exact show Scalar.string.tag ∈ Scalar.all.map Scalar.tag ++ [objectIdTag] by decide
  | some tag => exact List.mem_of_find?_eq_some h

/-- The closest tag is one in normal form. -/
lemma normalizeTag_closestTag (type : Text) :
    closestTag type ≠ [] ∧ normalizeTag (closestTag type) = closestTag type := by
  have hall : ∀ tag ∈ Scalar.all.map Scalar.tag ++ [objectIdTag], tag ≠ [] ∧ normalizeTag tag = tag := by
    decide
  exact hall _ (mem_closestTags type)

/-- A union has at least one value. -/
lemma ne_nil_of_unionLiterals? {values : List Text} (h : unionLiterals? type = some values) : values ≠ [] := by
  rintro rfl
  unfold unionLiterals? at h
  split at h
  · obtain ⟨part, parts, hparts⟩ := List.exists_cons_of_ne_nil (Text.splitOn_ne_nil '|' type)
    rw [hparts, List.mapM_cons] at h
    simp only [Option.bind_eq_bind, Option.bind_eq_some_iff, Option.pure_def, Option.some.injEq] at h
    obtain ⟨_, -, _, -, hcons⟩ := h
    cases hcons
  · cases h

/-- Declarations of a scope that have something to declare. -/
structure Scope.IsFilled (scope : Scope) : Prop where
  enums : ∀ e ∈ scope.enums, e.2 ≠ []
  nested : ∀ e ∈ scope.nested, e.2 ≠ []

/-- **What a name for a kind can stand for**: values, a reference, a list, or declared fields. -/
inductive IsNamed (scope : Scope) : Kind → List Field → Prop where
  | values (v : Text) (vs : List Text) : IsNamed scope (.enumeration (some (v :: vs))) []
  | reference (target : Option Text) : IsNamed scope (.reference target) []
  | references (target : Option Text) : IsNamed scope (.list (some objectIdTag) target) []
  | untyped : IsNamed scope (.list none none) []
  | items (type : Text) : IsNamed scope (.list (some (closestTag type)) none) []
  | objects (key : Text) (children : List Field) : (key, children) ∈ scope.nested →
    IsNamed scope (.list none (some objectTag)) children
  | object (key : Text) (children : List Field) : (key, children) ∈ scope.nested →
    IsNamed scope .record children

/-- The kind of a type text and the attributes that are handed over for it. -/
def Agree (scope : Scope) (entry : Option SchemaEntry) (p : Property) (type : Text) (a? : Option Attributes) :
    Option (Kind × List Field) → Prop
  | some (kind, children) =>
    IsNamed scope kind children ∧ a? = some (fieldWith entry p kind children).attributes
  | none => a? = if isInlineObject type then none else some (fieldWith entry p (plainKind type) []).attributes

lemma plainAttributes_closestTag (entry : Option SchemaEntry) (p : Property) (type : Text) :
    plainAttributes entry p (closestTag type) = (fieldWith entry p (.ofTag (closestTag type)) []).attributes := by
  have hmem := mem_closestTags type
  generalize closestTag type = tag at hmem
  simp only [Scalar.all, List.map_cons, List.map_nil, List.cons_append, List.nil_append, List.mem_cons,
    List.not_mem_nil, or_false] at hmem
  rcases hmem with rfl | rfl | rfl | rfl | rfl <;> rfl

/-- Attributes that a type text stands for on its own are those of its kind. -/
lemma agree_attributesOfText? (hscope : scope.IsFilled) (entry : Option SchemaEntry) (p : Property)
    (henum : Table.find? type scope.enums = none) (target : Option Text) (isRequired : Bool) :
    Agree scope entry p type (attributesOfText? scope (plainAttributes entry p) target type)
      (namedKind? scope (some ⟨[], target, isRequired⟩) type) := by
  have hfilled : ∀ {key : Text} {cs : List Field}, Table.find? key scope.nested = some cs →
      ∃ c rest, cs = c :: rest ∧ (key, c :: rest) ∈ scope.nested := by
    intro key cs h
    have hmem := Table.mem_of_find? h
    obtain ⟨c, rest, rfl⟩ := List.exists_cons_of_ne_nil (hscope.nested _ hmem)
    exact ⟨c, rest, rfl, hmem⟩
  -- both readers ask the same questions of the text, in the same order
  simp only [namedKind?, attributesOfText?, henum]
  cases hunion : unionLiterals? type with
  | some values =>
    obtain ⟨v, vs, rfl⟩ := List.exists_cons_of_ne_nil (ne_nil_of_unionLiterals? hunion)
    exact ⟨.values v vs, rfl⟩
  | none =>
    simp only [Option.bind_some]
    by_cases hid : Text.occurs "objectid" (Text.lower type) = true
    · rw [if_pos hid, if_pos hid]
      split
      · exact ⟨.references target, rfl⟩
      · exact ⟨.reference target, rfl⟩
    rw [if_neg hid, if_neg hid]
    by_cases hlist : Text.endsWith "[]" type = true
    · rw [if_pos hlist, if_pos hlist, listKind]
      cases hfind : Table.find? (Text.trim (type.take (type.length - 2))) scope.nested with
      | some cs =>
        obtain ⟨c, rest, rfl, hmem⟩ := hfilled hfind
        exact ⟨.objects _ _ hmem, rfl⟩
      | none =>
        simp only
        split
        · exact ⟨.untyped, rfl⟩
        · exact ⟨.items _, rfl⟩
    · rw [if_neg hlist, if_neg hlist]
      cases hfind : Table.find? type scope.nested with
      | some cs =>
        obtain ⟨c, rest, rfl, hmem⟩ := hfilled hfind
        exact ⟨.object _ _ hmem, rfl⟩
      | none =>
        simp only [Option.map_none, Agree, plainKind]
        split
        · rfl
        split
        · rfl
        · rw [plainAttributes_closestTag]

/-- **The attributes that are handed over are those of the field** that is read. -/
lemma agree_attributes? (hscope : scope.IsFilled) (entry : Option SchemaEntry) (p : Property) :
    Agree scope entry p (Text.trim p.type) (attributes? scope entry p)
      (namedKind? scope entry (Text.trim p.type)) := by
  unfold attributes?
  dsimp only
  cases henum : Table.find? (Text.trim p.type) scope.enums with
  | some values =>
    obtain ⟨v, vs, rfl⟩ := List.exists_cons_of_ne_nil (hscope.enums _ (Table.mem_of_find? henum))
    simp only [namedKind?, henum]
    exact ⟨.values v vs, rfl⟩
  | none =>
    cases entry with
    | none =>
      have htext := agree_attributesOfText? hscope none p henum none false
      simp only [namedKind?, henum] at htext ⊢
      exact htext
    | some e =>
      obtain ⟨values, target, isRequired⟩ := e
      cases values with
      | nil => exact agree_attributesOfText? hscope (some ⟨[], target, isRequired⟩) p henum target isRequired
      | cons v vs =>
        simp only [namedKind?, henum]
        exact ⟨.values v vs, rfl⟩

/-! ## What is handed over is let through -/

lemma accept_of_isAccepted {f : Field} (h : f.IsAccepted) : f.attributes.accept = .ok f := by
  refine Attributes.accept_of_build h.name_ne_nil h.tag_ne_nil ?_
  rw [h.tag, h.item]
  exact h.build

lemma IsNamed.isAccepted (h : IsNamed scope kind children) (hname : p.name ≠ []) :
    (fieldWith entry p kind children).IsAccepted := by
  have hclosest := fun type => (normalizeTag_closestTag type).2
  cases h with
  | values v vs => exact Field.isAccepted_of_settled hname (Kind.isSettled_enumeration _) fun h => absurd rfl h
  | reference target => exact Field.isAccepted_of_settled hname (Kind.isSettled_reference _) fun h => absurd rfl h
  | references target =>
    refine Field.isAccepted_of_settled hname (Kind.isSettled_list ?_ _) fun h => absurd rfl h
    rintro t ⟨⟩
    decide
  | untyped => exact Field.isAccepted_of_settled hname (Kind.isSettled_list (fun _ h => by cases h) _) fun h => absurd rfl h
  | items type =>
    refine Field.isAccepted_of_settled hname (Kind.isSettled_list ?_ _) fun h => absurd rfl h
    rintro t ⟨⟩
    exact hclosest type
  | objects key children =>
    exact Field.isAccepted_of_settled hname (Kind.isSettled_list (fun _ h => by cases h) _) fun _ => .inr ⟨none, rfl⟩
  | object key children => exact Field.isAccepted_of_settled hname Kind.isSettled_record fun _ => .inl rfl

lemma isAccepted_plainKind (type : Text) (hname : p.name ≠ []) :
    (fieldWith entry p (plainKind type) []).IsAccepted := by
  refine Field.isAccepted_of_settled hname ?_ fun h => absurd rfl h
  show (plainKind type).IsSettled
  rw [plainKind]
  split
  · exact Kind.isSettled_record
  · exact Kind.isSettled_ofTag (normalizeTag_closestTag type).1 (normalizeTag_closestTag type).2

lemma name_ne_nil_of_mem (h : p ∈ properties t) : p.name ≠ [] := by
  obtain ⟨l, -, hp⟩ := List.mem_filterMap.1 h
  simp only [property?, Option.bind_eq_bind, Option.bind_eq_some_iff] at hp
  obtain ⟨⟨name, r⟩, hname, a, -, hp⟩ := hp
  split at hp
  · cases hp
  · obtain rfl := Option.some.inj hp
    exact (append_of_word? hname).2.1

/-- Checks that are all passed give a list. -/
lemma mapM_eq_ok {α β ε : Type} {f : α → Except ε β} {g : α → β} {xs : List α} (h : ∀ x ∈ xs, f x = .ok (g x)) :
    xs.mapM f = .ok (xs.map g) := by
  induction xs with
  | nil => rfl
  | cons x xs ih =>
    rw [List.mapM_cons, h x List.mem_cons_self, ih fun y hy => h y (List.mem_cons_of_mem _ hy)]
    rfl

/-- A type text is an inline object, or an accepted field is read off it at once. -/
lemma inline_or_accepted (hscope : scope.IsFilled) (entry : Option SchemaEntry) (hname : p.name ≠ []) (bound : Nat) :
    (namedKind? scope entry (Text.trim p.type) = none ∧ isInlineObject (Text.trim p.type) = true ∧
      attributes? scope entry p = none) ∨
    (attributes? scope entry p = some (fieldWithin bound scope entry p).attributes ∧
      (fieldWithin bound scope entry p).IsAccepted) := by
  have hagree := agree_attributes? hscope entry p
  cases hnamed : namedKind? scope entry (Text.trim p.type) with
  | some found =>
    obtain ⟨kind, children⟩ := found
    rw [hnamed] at hagree
    rw [fieldWithin_of_named hnamed]
    exact .inr ⟨hagree.2, hagree.1.isAccepted hname⟩
  | none =>
    rw [hnamed, Agree] at hagree
    cases hinline : isInlineObject (Text.trim p.type) with
    | true =>
      rw [hinline] at hagree
      exact .inl ⟨rfl, rfl, hagree⟩
    | false =>
      rw [hinline] at hagree
      rw [fieldWithin_of_plain hnamed (.inr hinline)]
      exact .inr ⟨hagree, isAccepted_plainKind _ hname⟩

lemma isAccepted_inline (hname : p.name ≠ []) (children : List Field) :
    (fieldWith entry p .record children).IsAccepted :=
  Field.isAccepted_of_settled hname Kind.isSettled_record fun _ => .inl rfl

lemma build_of_attributes {a : Attributes} (h : attributes? scope entry p = some a) :
    build scope entry p = a.accept := by
  rw [build]
  split
  · rename_i a' ha
    rw [h] at ha
    rw [Option.some.inj ha]
  · rename_i hnone
    rw [h] at hnone
    cases hnone

/-- Properties of an inline object are built before the object. -/
lemma build_of_inline (h : attributes? scope entry p = none) :
    build scope entry p = (properties (inlineBody (Text.trim p.type))).mapM (build scope none) >>=
      fun children => (inlineAttributes entry p children).accept := by
  rw [build]
  split
  · rename_i a ha
    rw [h] at ha
    cases ha
  · congr 1
    rw [List.mapM_subtype (g := build scope none) fun _ _ => rfl, List.unattach_attach]

/-- **Every field that is read passes the checks**, and no bound on the depth matters from the length of
the type on. -/
lemma build_eq (hscope : scope.IsFilled) (hname : p.name ≠ []) (hbound : (Text.trim p.type).length ≤ bound) :
    build scope entry p = .ok (fieldWithin bound scope entry p) := by
  induction bound generalizing p entry with
  | zero =>
    obtain ⟨-, hinline, -⟩ | ⟨hattributes, haccepted⟩ := inline_or_accepted hscope entry hname 0
    · rw [List.length_eq_zero_iff.1 (Nat.le_zero.1 hbound)] at hinline
      cases hinline
    · rw [build_of_attributes hattributes, accept_of_isAccepted haccepted]
  | succ bound ih =>
    obtain ⟨hnamed, hinline, hattributes⟩ | ⟨hattributes, haccepted⟩ :=
      inline_or_accepted hscope entry hname (bound + 1)
    · have hchildren : ∀ q ∈ properties (inlineBody (Text.trim p.type)),
          build scope none q = .ok (fieldWithin bound scope none q) := by
        intro q hq
        have hlt := length_lt_of_mem_inline hinline hq
        exact ih (name_ne_nil_of_mem hq) (by omega)
      rw [build_of_inline hattributes, mapM_eq_ok hchildren, fieldWithin_of_inline hnamed hinline]
      exact accept_of_isAccepted (isAccepted_inline hname _)
    · rw [build_of_attributes hattributes, accept_of_isAccepted haccepted]

/-! ## What a field is that was read -/

/-- A field as it may be read, and all fields below it: an enumeration has values, and nested fields with
the target of objects are the items of a list. -/
inductive IsRecovered : Field → Prop where
  | intro {f : Field} : (∀ values, f.kind = .enumeration values → values.getD [] ≠ []) →
    (∀ properties, f.attributes.target = some objectTag → f.attributes.properties = some properties →
      f.attributes.tag = arrayTag ∧ properties ≠ []) →
    (∀ c ∈ f.children, IsRecovered c) → IsRecovered f

lemma isRecovered_leaf (h : ∀ values, kind = .enumeration values → values.getD [] ≠ []) :
    IsRecovered (fieldWith entry p kind []) :=
  .intro h (fun _ _ hproperties => by cases hproperties) nofun

lemma isRecovered_record (h : ∀ c ∈ children, IsRecovered c) : IsRecovered (fieldWith entry p .record children) :=
  .intro nofun (fun _ htarget => by cases htarget) h

lemma isRecovered_items (h : ∀ c ∈ children, IsRecovered c) :
    IsRecovered (fieldWith entry p (.list none (some objectTag)) children) := by
  refine .intro nofun (fun properties _ hproperties => ⟨rfl, ?_⟩) h
  rintro rfl
  simp [Field.attributes] at hproperties

lemma isRecovered_plainKind (type : Text) : IsRecovered (fieldWith entry p (plainKind type) []) := by
  refine isRecovered_leaf fun values hkind => ?_
  have hmem := mem_closestTags type
  rw [plainKind] at hkind
  split at hkind
  · cases hkind
  · generalize closestTag type = tag at hmem hkind
    simp only [Scalar.all, List.map_cons, List.map_nil, List.cons_append, List.nil_append, List.mem_cons,
      List.not_mem_nil, or_false] at hmem
    rcases hmem with rfl | rfl | rfl | rfl | rfl <;> cases hkind

lemma IsNamed.isRecovered (h : IsNamed scope kind children)
    (hnested : ∀ e ∈ scope.nested, ∀ f ∈ e.2, IsRecovered f) : IsRecovered (fieldWith entry p kind children) := by
  cases h with
  | values v vs =>
    refine isRecovered_leaf ?_
    rintro _ ⟨⟩
    exact List.cons_ne_nil v vs
  | objects key children hmem => exact isRecovered_items (hnested _ hmem)
  | object key children hmem => exact isRecovered_record (hnested _ hmem)
  | _ => exact isRecovered_leaf nofun

lemma isRecovered_of_named {found : Kind × List Field} (hscope : scope.IsFilled)
    (hnested : ∀ e ∈ scope.nested, ∀ f ∈ e.2, IsRecovered f)
    (h : namedKind? scope entry (Text.trim p.type) = some found) : IsRecovered (fieldWithin bound scope entry p) := by
  have hagree := agree_attributes? hscope entry p
  rw [h] at hagree
  rw [fieldWithin_of_named h]
  exact hagree.1.isRecovered hnested

/-- Fields are read as they may be if the declared ones are. -/
lemma isRecovered_fieldWithin (hscope : scope.IsFilled)
    (hnested : ∀ e ∈ scope.nested, ∀ f ∈ e.2, IsRecovered f) (entry : Option SchemaEntry) (p : Property) :
    IsRecovered (fieldWithin bound scope entry p) := by
  induction bound generalizing p entry with
  | zero =>
    cases hnamed : namedKind? scope entry (Text.trim p.type) with
    | some found => exact isRecovered_of_named hscope hnested hnamed
    | none =>
      rw [fieldWithin_of_plain hnamed (.inl rfl)]
      exact isRecovered_plainKind _
  | succ bound ih =>
    cases hnamed : namedKind? scope entry (Text.trim p.type) with
    | some found => exact isRecovered_of_named hscope hnested hnamed
    | none =>
      cases hinline : isInlineObject (Text.trim p.type) with
      | false =>
        rw [fieldWithin_of_plain hnamed (.inr hinline)]
        exact isRecovered_plainKind _
      | true =>
        rw [fieldWithin_of_inline hnamed hinline]
        refine isRecovered_record fun c hc => ?_
        obtain ⟨q, -, rfl⟩ := List.mem_map.1 hc
        exact ih none q

/-! ## Whole files -/

/-- The fields of nested interfaces, through the checks. -/
def buildNested (enums : List (Text × List Text)) (main : Text) (is : List (Text × Text)) :
    Except (List Issue) (List (Text × List Field)) := do
  let nested ← (is.filter fun i => isNestedName main i.1).mapM fun (name, body) => do
    let children ← ((properties body).filter fun p => p.name ≠ "_id".toList).mapM (build ⟨enums, []⟩ none)
    return (name, children)
  return Table.ofEntries (nested.filter fun e => !e.2.isEmpty)

/-- The fields that the interface and the model file of a module describe, through the checks. -/
def buildFields (interface model : Text) : Except (List Issue) (List Field) :=
  let bs := blocks interface
  let is := interfaces bs
  match mainInterface? is with
  | none => .ok []
  | some (main, body) => do
    let nested ← buildNested (enumerations bs) main is
    ((properties body).filter fun p => p.name ∉ suppliedNames).mapM fun p =>
      build ⟨enumerations bs, nested⟩ (schemaOf? p.name (mainSchema model)) p

variable {enums : List (Text × List Text)} {main : Text} {is : List (Text × Text)} {bs : List Block}

lemma ne_nil_of_mem_enumerations : ∀ e ∈ enumerations bs, e.2 ≠ [] := by
  intro e he
  obtain ⟨b, -, hb⟩ := List.mem_filterMap.1 (Table.mem_of_mem_ofEntries he)
  split at hb
  · rename_i hvalues
    obtain rfl := Option.some.inj hb
    simp only [Bool.and_eq_true, Bool.not_eq_true', List.isEmpty_eq_false_iff] at hvalues
    exact hvalues.2
  · cases hb

/-- Nested interfaces are read without other nested interfaces, and kept if they have fields. -/
lemma nestedInterfaces_eq (enums : List (Text × List Text)) (main : Text) (is : List (Text × Text)) :
    nestedInterfaces enums main is = Table.ofEntries (((is.filter fun i => isNestedName main i.1).map fun i =>
      (i.1, ((properties i.2).filter fun p => p.name ≠ "_id".toList).map (fieldOf ⟨enums, []⟩ none))).filter
        fun e => !e.2.isEmpty) := by
  rw [nestedInterfaces]
  congr 1
  induction is with
  | nil => rfl
  | cons i is ih =>
    obtain ⟨name, body⟩ := i
    cases hname : isNestedName main name with
    | false =>
      simp only [List.filterMap_cons, List.filter_cons, hname, Bool.false_eq_true, if_false]
      exact ih
    | true =>
      simp only [List.filterMap_cons, List.filter_cons, hname, if_true, List.map_cons]
      cases ((properties body).filter fun p => p.name ≠ "_id".toList).map (fieldOf ⟨enums, []⟩ none) with
      | nil => exact ih
      | cons f fs => exact congrArg ((name, f :: fs) :: ·) ih

lemma isFilled_leaf (henums : ∀ e ∈ enums, e.2 ≠ []) : Scope.IsFilled ⟨enums, []⟩ := ⟨henums, nofun⟩

/-- A read property passes the checks, whatever is around it. -/
lemma build_eq_fieldOf {body : Text} (hscope : scope.IsFilled) (entry : Option SchemaEntry)
    (hp : p ∈ properties body) : build scope entry p = .ok (fieldOf scope entry p) :=
  build_eq hscope (name_ne_nil_of_mem hp) (length_trim_le p.type)

lemma buildNested_eq (henums : ∀ e ∈ enums, e.2 ≠ []) (main : Text) (is : List (Text × Text)) :
    buildNested enums main is = .ok (nestedInterfaces enums main is) := by
  have hbodies : ∀ i ∈ is.filter fun i => isNestedName main i.1,
      (((properties i.2).filter fun p => p.name ≠ "_id".toList).mapM (build ⟨enums, []⟩ none) >>= fun children =>
        pure (i.1, children)) =
      (.ok (i.1, ((properties i.2).filter fun p => p.name ≠ "_id".toList).map (fieldOf ⟨enums, []⟩ none)) :
        Except (List Issue) _) := by
    intro i _
    rw [mapM_eq_ok fun p hp => build_eq_fieldOf (isFilled_leaf henums) none (List.mem_of_mem_filter hp)]
    rfl
  rw [buildNested, mapM_eq_ok hbodies, nestedInterfaces_eq]
  rfl

lemma mem_nestedInterfaces {e : Text × List Field} (h : e ∈ nestedInterfaces enums main is) :
    e.2 ≠ [] ∧ ∃ ps : List Property, e.2 = ps.map (fieldOf ⟨enums, []⟩ none) := by
  rw [nestedInterfaces_eq] at h
  have hmem := Table.mem_of_mem_ofEntries h
  have hne := List.of_mem_filter hmem
  rw [Bool.not_eq_true', List.isEmpty_eq_false_iff] at hne
  obtain ⟨i, -, rfl⟩ := List.mem_map.1 (List.mem_of_mem_filter hmem)
  exact ⟨hne, _, rfl⟩

/-- The scope of a file is filled with fields as they may be read. -/
lemma isFilled_file (bs : List Block) (main : Text) (is : List (Text × Text)) :
    Scope.IsFilled ⟨enumerations bs, nestedInterfaces (enumerations bs) main is⟩ ∧
      ∀ e ∈ nestedInterfaces (enumerations bs) main is, ∀ f ∈ e.2, IsRecovered f := by
  refine ⟨⟨ne_nil_of_mem_enumerations, fun e he => (mem_nestedInterfaces he).1⟩, fun e he f hf => ?_⟩
  obtain ⟨-, ps, hps⟩ := mem_nestedInterfaces he
  rw [hps] at hf
  obtain ⟨p, -, rfl⟩ := List.mem_map.1 hf
  exact isRecovered_fieldWithin (isFilled_leaf ne_nil_of_mem_enumerations) nofun none p

/-- **Reading survives any text**: whatever the two files hold, every field that is built on the way
passes its checks, and the fields are those that are read.  None of them has a name that the storage layer
supplies; at every depth, in declarations as well, enumerations have values and nested fields with the
target of objects are the items of a list.  What is read inside an inline object is shorter than it. -/
theorem buildFields_eq (interface model : Text) :
    buildFields interface model = .ok (fields interface model) ∧
      (∀ f ∈ fields interface model, f.name ∉ suppliedNames ∧ IsRecovered f) ∧
      (∀ main is, ∀ e ∈ nestedInterfaces (enumerations (blocks interface)) main is,
        e.2 ≠ [] ∧ ∀ f ∈ e.2, IsRecovered f) ∧
      ∀ type, isInlineObject type = true → ∀ p ∈ properties (inlineBody type),
        (Text.trim p.type).length < type.length := by
  have hnested : ∀ main is, ∀ e ∈ nestedInterfaces (enumerations (blocks interface)) main is,
      e.2 ≠ [] ∧ ∀ f ∈ e.2, IsRecovered f :=
    fun main is e he => ⟨(mem_nestedInterfaces he).1, (isFilled_file (blocks interface) main is).2 e he⟩
  refine ⟨?_, ?_, hnested, fun type hinline p hp => length_lt_of_mem_inline hinline hp⟩
  · rw [buildFields, fields]
    dsimp only
    cases mainInterface? (interfaces (blocks interface)) with
    | none => rfl
    | some found =>
      obtain ⟨main, body⟩ := found
      obtain ⟨hscope, -⟩ := isFilled_file (blocks interface) main (interfaces (blocks interface))
      simp only [buildNested_eq ne_nil_of_mem_enumerations]
      exact mapM_eq_ok fun p hp => build_eq_fieldOf hscope _ (List.mem_of_mem_filter hp)
  · intro f hf
    rw [fields] at hf
    dsimp only at hf
    cases hmain : mainInterface? (interfaces (blocks interface)) with
    | none =>
      rw [hmain] at hf
      cases hf
    | some found =>
      obtain ⟨main, body⟩ := found
      rw [hmain] at hf
      obtain ⟨hscope, hrecovered⟩ := isFilled_file (blocks interface) main (interfaces (blocks interface))
      obtain ⟨p, hp, rfl⟩ := List.mem_map.1 hf
      have hname := List.of_mem_filter hp
      rw [name_fieldOf]
      exact ⟨of_decide_eq_true hname, isRecovered_fieldWithin hscope hrecovered _ p⟩

/-- Declarations that break off, one of them with an inline object. -/
def tornInterface : Text :=
  "export enum Role \x7b\n  A = 'a',\n  B = 'b\n\x7d\nexport interface IUser \x7b\n  _id: Types.ObjectId;\n" ++
    "  size?: \x7b w: number \x7d;\n  role: Role;\n  rest: \x7b x".toList

theorem buildFields_tornInterface : isInlineObject "\x7b w: number \x7d" = true ∧
    ∃ fs, buildFields tornInterface "new Schema<IUser>(\x7b role: \x7b enum: ['" = .ok fs ∧
      fs.map Field.name = ["size", "role", "rest"].map String.toList ∧
      ∀ p ∈ properties (inlineBody "\x7b w: number \x7d"), (Text.trim p.type).length < 13 := by
  have hinline : isInlineObject "\x7b w: number \x7d" = true := by decide
  obtain ⟨hbuild, -, -, hshorter⟩ := buildFields_eq tornInterface "new Schema<IUser>(\x7b role: \x7b enum: ['"
  exact ⟨hinline, _, hbuild, by decide +kernel, hshorter _ hinline⟩

end Recovery

end Scaffold
