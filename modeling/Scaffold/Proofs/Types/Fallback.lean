import Scaffold.Field.Audit
import Scaffold.Proofs.Types.Shape

/-!
# What the audit announces

The audit says of some fields that they will be strings, and of some lists that their items will be.
`Field.announced` is the field with that done to it, at every place below it that the audit reports and
nowhere else (`announced_eq_self_iff`).
Stored documents, request validators and static types keep to what is announced, whatever the tree, with
one exception: a list with a blank item tag, which is reported and typed as a list of anything or of
references (`blanks`).  API documents also break the word given for enumerations without values, which
they describe with an empty list of values (`isKeptInApi`).

That the first kind of exception shows in every tree is seen by counting a letter.  Each list with a
blank item tag has one `y` in its static type, in `any` or in `Types.ObjectId`, where the announced type
has none (`count_type`); so no two differences can make up for each other.
-/

namespace Scaffold

/-! ## Announcements -/

/-- Whether a finding announces that a field will be a string. -/
def Finding.announcesString : Finding → Bool
  | unknownType _ _ | noValues _ => true
  | _ => false

/-- Whether a finding announces that the items of a list will be strings. -/
def Finding.announcesStringItems : Finding → Bool
  | unknownItemType _ _ => true
  | _ => false

/-- A list with strings as its items. -/
def Kind.withStringItems : Kind → Kind
  | list _ target => list (some Scalar.string.tag) target
  | kind => kind

/-- The occurrences of a character in joined pieces are those in the pieces. -/
lemma Text.count_join {c : Char} {separator : Text} (h : separator.count c = 0) (ps : List Text) :
    (join separator ps).count c = ps.flatten.count c := by
  induction ps with
  | nil => rfl
  | cons p ps ih =>
    cases ps with
    | nil => rw [join_singleton, List.flatten_singleton]
    | cons q ps =>
      rw [join_cons_cons, List.count_append, List.count_append, h, ih, Nat.add_zero, ← List.count_append]
      rfl

namespace Field

/-- The path to a field below an owner. -/
def pathBelow (owner name : Text) : Text := if owner.isEmpty then name else owner ++ '.' :: name

mutual

/-- A field in which everything that the audit announces has been done, to the field and below it. -/
def announced (owner : Text) : Field → Field
  | ⟨name, isRequired, isOptional, kind, children⟩ =>
    let path := pathBelow owner name
    let found := findings path ⟨name, isRequired, isOptional, kind, children⟩
    if found.any Finding.announcesString then leaf name isRequired isOptional (.scalar .string)
    else
      ⟨name, isRequired, isOptional,
        if found.any Finding.announcesStringItems then kind.withStringItems else kind,
        announcedAll path children⟩
termination_by structural f => f

/-- All fields of a list with everything done that is announced. -/
def announcedAll (owner : Text) : List Field → List Field
  | [] => []
  | f :: fs => announced owner f :: announcedAll owner fs
termination_by structural fs => fs

end

mutual

/-- The number of lists with a blank item tag that show in the type of a field. -/
def blanks : Field → Nat
  | ⟨_, _, _, kind, children⟩ =>
    match kind with
    | .list item _ => if !structured kind children && item = some [] then 1 else 0
    | .record => blanksAmong children
    | _ => 0
termination_by structural f => f

/-- The number of lists with a blank item tag that show in the types of the visible fields. -/
def blanksAmong : List Field → Nat
  | [] => 0
  | f :: fs => (if isIdentity f.name then 0 else blanks f) + blanksAmong fs
termination_by structural fs => fs

end

mutual

/-- Whether the description of a field in an API document shows neither an enumeration without values
nor a list with a blank item tag. -/
def isKeptInApi : Field → Bool
  | ⟨_, _, _, kind, children⟩ =>
    match kind with
    | .enumeration values => !(values.getD []).isEmpty
    | .list item _ => structured kind children || item ≠ some []
    | .record => areKeptInApi children
    | _ => true
termination_by structural f => f

/-- Whether this holds of the fields that a table of the visible ones shows, the last of each name. -/
def areKeptInApi : List Field → Bool
  | [] => true
  | f :: fs =>
    (isIdentity f.name || (visible fs).any (fun g => g.name = f.name) || isKeptInApi f) &&
      areKeptInApi fs
termination_by structural fs => fs

end

/-- A field is stored, validated and typed like another one. -/
structure HasTextsOf (f g : Field) : Prop where
  mongoose : Mongoose.type f = Mongoose.type g
  zod : Zod.type f = Zod.type g
  typeScript : ∀ scope, TypeScript.type scope f = TypeScript.type scope g

/-- A field is stored, validated, typed and described like another one. -/
structure HasTypesOf (f g : Field) : Prop extends HasTextsOf f g where
  openApi : OpenApi.property f = OpenApi.property g

/-- The properties of an object are stored, validated and typed like those of another one. -/
structure HaveTextsOf (fs gs : List Field) : Prop where
  mongoose : Mongoose.properties fs = Mongoose.properties gs
  zod : Zod.properties fs = Zod.properties gs
  typeScript : ∀ scope, TypeScript.properties scope fs = TypeScript.properties scope gs

variable {owner path name : Text} {isRequired isOptional : Bool} {kind : Kind} {children fs : List Field}
  {f : Field} {item target : Option Text}

/-! ## What is announced of each kind -/

/-- Only the kind of a field announces anything. -/
lemma any_findings (p : Finding → Bool) (hidentifier : p (.notIdentifier path) = false)
    (hreserved : p (.reservedName path) = false) (hmarkers : p (.requiredAndOptional path) = false)
    (f : Field) : (findings path f).any p = (kindFindings path f).any p := by
  have hif : ∀ (c : Prop) [Decidable c] (x : Finding), p x = false →
      (if c then [] else [x]).any p = false := by
    intro c _ x hx
    split
    · rfl
    · rw [List.any_cons, hx, List.any_nil, Bool.or_false]
  have hif' : ∀ (c : Prop) [Decidable c] (x : Finding), p x = false →
      (if c then [x] else []).any p = false := by
    intro c _ x hx
    split
    · rw [List.any_cons, hx, List.any_nil, Bool.or_false]
    · rfl
  rw [findings, List.any_append, List.any_append, List.any_append, hif _ _ hidentifier,
    hif' _ _ hreserved, hif' _ _ hmarkers, Bool.false_or, Bool.or_false, Bool.or_false]

/-- A string is announced for unknown tags and for enumerations without values. -/
lemma announcesString_findings (f : Field) : (findings path f).any Finding.announcesString =
    match f.kind with
    | .unknown _ => true
    | .enumeration values => (values.getD []).isEmpty
    | _ => false := by
  rw [any_findings _ rfl rfl rfl, kindFindings]
  cases f.kind with
  | enumeration values =>
    rcases values with _ | _ | ⟨v, vs⟩
    · rfl
    · rfl
    · simp only [Option.getD_some]
      split
      · rfl
      · rfl
  | list item target =>
    simp only [List.any_append, Bool.or_eq_false_iff]
    constructor
    · cases item with
      | none => rfl
      | some t =>
        simp only
        split
        · rfl
        · rfl
    · split
      · rfl
      · rfl
  | _ => rfl

/-- Strings as items are announced for tags outside of the vocabulary. -/
lemma announcesStringItems_findings (f : Field) :
    (findings path f).any Finding.announcesStringItems =
      match f.kind with
      | .list (some t) _ => decide (t ∉ knownTags)
      | _ => false := by
  rw [any_findings _ rfl rfl rfl, kindFindings]
  cases f.kind with
  | enumeration values =>
    rcases values with _ | _ | ⟨v, vs⟩
    · rfl
    · rfl
    · simp only [Option.getD_some]
      split
      · rfl
      · rfl
  | list item target =>
    have hobjects : (if target = some objectTag ∧ f.children.isEmpty = true then [Finding.noProperties path]
        else []).any Finding.announcesStringItems = false := by
      split
      · rfl
      · rfl
    rw [List.any_append, hobjects, Bool.or_false]
    cases item with
    | none => rfl
    | some t =>
      by_cases ht : t ∈ knownTags
      · simp [ht]
      · simp [ht, Finding.announcesStringItems]
  | _ => rfl

/-- Whether the audit announces anything of a field. -/
def isAnnounced (path : Text) (f : Field) : Bool :=
  (findings path f).any Finding.announcesString || (findings path f).any Finding.announcesStringItems

lemma ne_leaf_of_announcesString (h : (findings path f).any Finding.announcesString = true) :
    leaf f.name f.isRequired f.isOptional (.scalar .string) ≠ f := by
  intro hf
  rw [announcesString_findings, ← hf] at h
  cases h

lemma withStringItems_ne (h : (findings path f).any Finding.announcesStringItems = true) :
    f.kind.withStringItems ≠ f.kind := by
  intro hkind
  rw [announcesStringItems_findings] at h
  cases hlist : f.kind with
  | list item target =>
    rw [hlist] at h hkind
    cases item with
    | none => cases h
    | some t =>
      obtain rfl : Scalar.string.tag = t := by
        cases hkind
        rfl
      have hknown : Scalar.string.tag ∈ knownTags := by decide
      exact of_decide_eq_true h hknown
  | _ =>
    rw [hlist] at h
    cases h

mutual

/-- **Only what the audit announces is done**: a tree is left alone just if nothing is announced of the
fields that the audit walks through. -/
theorem announced_eq_self_iff : ∀ (f : Field) (owner : Text),
    announced owner f = f ↔ ∀ e ∈ walk owner f, isAnnounced e.1 e.2 = false
  | ⟨name, isRequired, isOptional, kind, children⟩, owner => by
    have hchildren := announcedAll_eq_self_iff children (pathBelow owner name)
    rw [announced, walk, List.forall_mem_cons, ← pathBelow, ← hchildren, isAnnounced]
    dsimp only
    split
    · rename_i hstring
      have hne := ne_leaf_of_announcesString hstring
      simp only [hstring, Bool.true_or, Bool.true_eq_false, false_and, iff_false]
      exact hne
    · rename_i hstring
      rw [Bool.not_eq_true] at hstring
      split
      · rename_i hitems
        have hne := withStringItems_ne hitems
        simp only [hitems, Bool.or_true, Bool.true_eq_false, false_and, iff_false]
        exact fun h => hne (congrArg Field.kind h)
      · rename_i hitems
        rw [Bool.not_eq_true] at hitems
        simp [hstring, hitems]
termination_by structural f => f

lemma announcedAll_eq_self_iff : ∀ (fs : List Field) (owner : Text),
    announcedAll owner fs = fs ↔ ∀ e ∈ walkAll owner fs, isAnnounced e.1 e.2 = false
  | [], _ => iff_of_true rfl nofun
  | f :: fs, owner => by
    have hf := announced_eq_self_iff f owner
    have hfs := announcedAll_eq_self_iff fs owner
    rw [announcedAll, walkAll, List.forall_mem_append, List.cons.injEq, hf, hfs]
termination_by structural fs => fs

end

/-- The item tag that is announced. -/
def announcedTag (tag : Text) : Text := if tag ∈ knownTags then tag else Scalar.string.tag

/-- A field of an unknown tag and an enumeration without values become strings. -/
lemma announced_string
    (h : kind = .enumeration none ∨ kind = .enumeration (some []) ∨ ∃ t, kind = .unknown t) :
    announced owner ⟨name, isRequired, isOptional, kind, children⟩ =
      leaf name isRequired isOptional (.scalar .string) := by
  have hstring : ∀ path, (findings path ⟨name, isRequired, isOptional, kind, children⟩).any
      Finding.announcesString = true := by
    intro path
    rw [announcesString_findings]
    rcases h with rfl | rfl | ⟨t, rfl⟩ <;> rfl
  rw [announced]
  simp only [hstring, if_true]

/-- Every other field stays what it is. -/
lemma announced_kept (kind : Kind) (hlist : ∀ item target, kind ≠ .list item target)
    (hunknown : ∀ t, kind ≠ .unknown t) (hvalues : ∀ values, kind = .enumeration values → values.getD [] ≠ []) :
    announced owner ⟨name, isRequired, isOptional, kind, children⟩ =
      ⟨name, isRequired, isOptional, kind, announcedAll (pathBelow owner name) children⟩ := by
  rw [announced]
  simp only [announcesString_findings, announcesStringItems_findings]
  cases kind with
  | list item target => exact absurd rfl (hlist item target)
  | unknown t => exact absurd rfl (hunknown t)
  | enumeration values =>
    have hne : (values.getD []).isEmpty = false :=
      Bool.eq_false_iff.2 fun h => hvalues values rfl (List.isEmpty_iff.1 h)
    simp only [hne, Bool.false_eq_true, if_false]
  | _ => rfl

/-- A list gets the item tag that is announced. -/
lemma announced_list (item target : Option Text) :
    announced owner ⟨name, isRequired, isOptional, .list item target, children⟩ =
      ⟨name, isRequired, isOptional, .list (item.map announcedTag) target,
        announcedAll (pathBelow owner name) children⟩ := by
  rw [announced]
  simp only [announcesString_findings, announcesStringItems_findings, Bool.false_eq_true, if_false]
  cases item with
  | none => rfl
  | some t =>
    by_cases ht : t ∈ knownTags
    · simp [announcedTag, ht]
    · simp [announcedTag, ht, Kind.withStringItems]

/-- The name and the markers of a field stay. -/
lemma announced_markers (owner : Text) (f : Field) : (announced owner f).name = f.name ∧
    (announced owner f).isRequired = f.isRequired ∧ (announced owner f).isOptional = f.isOptional := by
  obtain ⟨name, isRequired, isOptional, kind, children⟩ := f
  rw [announced]
  dsimp only
  split
  · exact ⟨rfl, rfl, rfl⟩
  · exact ⟨rfl, rfl, rfl⟩

lemma isEmpty_announcedAll (owner : Text) (fs : List Field) : (announcedAll owner fs).isEmpty = fs.isEmpty := by
  cases fs <;> rfl

/-- A list of objects stays one. -/
lemma structured_announced (item item' target : Option Text) (path : Text) (children : List Field) :
    structured (.list item' target) (announcedAll path children) = structured (.list item target) children := by
  rw [structured, structured, isEmpty_announcedAll]

/-! ## Lists -/

lemma ofTag?_eq_none {t : Text} (ht : t ∉ knownTags) : Scalar.ofTag? t = none := by
  refine List.find?_eq_none.2 fun s hs h => ht ?_
  have htag : s.tag = t := of_decide_eq_true h
  exact List.mem_append_left _ (List.mem_map.2 ⟨s, hs, htag⟩)

lemma announcedTag_ne_nil (t : Text) : announcedTag t ≠ [] := by
  unfold announcedTag
  split
  · rename_i ht
    rintro rfl
    exact absurd ht (by decide)
  · decide

/-- A tag that is not blank is typed as announced. -/
lemma ofList_announcedTag (target : Option Text) (hitem : item ≠ some []) :
    Shape.ofList (item.map announcedTag) target = Shape.ofList item target := by
  match item, hitem with
  | none, _ => rfl
  | some (c :: cs), _ =>
    rw [Option.map_some, announcedTag]
    split
    · rfl
    · rename_i ht
      have hid : c :: cs ≠ objectIdTag := by
        intro h
        exact ht (h ▸ by decide)
      have hscalar : Scalar.orString (c :: cs) = .string := by rw [Scalar.orString, ofTag?_eq_none ht]; rfl
      simp only [Shape.ofList, if_neg hid, hscalar]
      rfl

/-- The types of a list without declared items are those of its shape. -/
lemma listType_congr {item' : Option Text} (h : Shape.ofList item' target = Shape.ofList item target) :
    Mongoose.listType item' target = Mongoose.listType item target ∧
      Zod.listType item' target = Zod.listType item target ∧
      TypeScript.listType item' target = TypeScript.listType item target := by
  refine ⟨?_, ?_, ?_⟩
  · rw [Mongoose.listType_eq_ofShape [], Mongoose.listType_eq_ofShape [], h]
  · rw [Zod.listType_eq_ofShape [], Zod.listType_eq_ofShape [], h]
  · rw [TypeScript.listType_eq_ofShape [] [], TypeScript.listType_eq_ofShape [] [], h]

lemma hasTextsOf_list (h : structured (.list item target) children = true ∨ item ≠ some []) :
    HasTextsOf
      ⟨name, isRequired, isOptional, .list (item.map announcedTag) target, announcedAll path children⟩
      ⟨name, isRequired, isOptional, .list item target, children⟩ := by
  have hstructured := structured_announced item (item.map announcedTag) target path children
  rcases h with h | h
  · rw [h] at hstructured
    refine ⟨?_, ?_, fun scope => ?_⟩
    · simp only [Mongoose.type.eq_def, h, hstructured, if_true]
    · simp only [Zod.type.eq_def, h, hstructured, if_true]
    · simp only [TypeScript.type.eq_def, h, hstructured, if_true]
  · obtain ⟨hmongoose, hzod, htypeScript⟩ := listType_congr (ofList_announcedTag target h)
    refine ⟨?_, ?_, fun scope => ?_⟩
    · simp only [Mongoose.type.eq_def, hmongoose, hstructured]
    · simp only [Zod.type.eq_def, hzod, hstructured]
    · simp only [TypeScript.type.eq_def, htypeScript, hstructured]

/-! ## Stored documents, validators and static types -/

/-- A field that is neither a list nor an object keeps to what is announced. -/
lemma hasTextsOf_plain (owner : Text) (f : Field) (hlist : ∀ item target, f.kind ≠ .list item target)
    (hrecord : f.kind ≠ .record) : HasTextsOf (announced owner f) f := by
  obtain ⟨name, isRequired, isOptional, kind, children⟩ := f
  cases kind with
  | scalar s =>
    rw [announced_kept (.scalar s) nofun nofun nofun]
    exact ⟨rfl, rfl, fun _ => rfl⟩
  | reference target =>
    rw [announced_kept (.reference target) nofun nofun nofun]
    exact ⟨rfl, rfl, fun _ => rfl⟩
  | unknown t =>
    rw [announced_string (.inr (.inr ⟨t, rfl⟩))]
    exact ⟨rfl, rfl, fun _ => rfl⟩
  | enumeration values =>
    match values with
    | none =>
      rw [announced_string (.inl rfl)]
      exact ⟨rfl, rfl, fun _ => rfl⟩
    | some [] =>
      rw [announced_string (.inr (.inl rfl))]
      exact ⟨rfl, rfl, fun _ => rfl⟩
    | some (v :: vs) =>
      rw [announced_kept (.enumeration (some (v :: vs))) nofun nofun (by rintro _ ⟨⟩; exact List.cons_ne_nil v vs)]
      exact ⟨rfl, rfl, fun _ => rfl⟩
  | list item target => exact absurd rfl (hlist item target)
  | record => exact absurd rfl hrecord

lemma hasTextsOf_record {gs : List Field} (hempty : gs.isEmpty = children.isEmpty) (h : HaveTextsOf gs children) :
    HasTextsOf ⟨name, isRequired, isOptional, .record, gs⟩ ⟨name, isRequired, isOptional, .record, children⟩ := by
  refine ⟨?_, ?_, fun scope => ?_⟩
  · simp only [Mongoose.type.eq_def, hempty, h.mongoose]
  · simp only [Zod.type.eq_def, hempty, h.zod]
  · simp only [TypeScript.type.eq_def, hempty, scopeOf, structured, h.typeScript]
    rfl

/-- A property is shown with the markers of its field. -/
lemma HaveTextsOf.cons {g : Field} {gs : List Field} (hname : g.name = f.name)
    (hrequired : g.isRequired = f.isRequired) (hoptional : g.isOptional = f.isOptional)
    (hf : isIdentity f.name = false → HasTextsOf g f) (hfs : HaveTextsOf gs fs) :
    HaveTextsOf (g :: gs) (f :: fs) := by
  have hmodifiers : Mongoose.modifiers false g.isRequired g.kind = Mongoose.modifiers false f.isRequired f.kind :=
    congrArg (fun r => (if r then ["required: true".toList] else []) ++ []) hrequired
  cases hid : isIdentity f.name with
  | true =>
    refine ⟨?_, ?_, fun scope => ?_⟩
    · simp only [Mongoose.properties, hname, hid, if_true, hfs.mongoose]
    · simp only [Zod.properties, hname, hid, if_true, hfs.zod]
    · simp only [TypeScript.properties, hname, hid, if_true, hfs.typeScript]
  | false =>
    refine ⟨?_, ?_, fun scope => ?_⟩
    · simp only [Mongoose.properties, hmodifiers, hname, (hf hid).mongoose, hfs.mongoose]
    · simp only [Zod.properties, hname, hoptional, (hf hid).zod, hfs.zod]
    · simp only [TypeScript.properties, hname, hoptional, (hf hid).typeScript, hfs.typeScript]

mutual

/-- Without blank item tags stored documents, validators and static types keep to what is announced. -/
lemma hasTextsOf_announced : ∀ (f : Field) (owner : Text), f.blanks = 0 → HasTextsOf (announced owner f) f
  | ⟨name, isRequired, isOptional, kind, children⟩, owner, h => by
    have hchildren := haveTextsOf_announcedAll children (pathBelow owner name)
    have hplain := hasTextsOf_plain owner ⟨name, isRequired, isOptional, kind, children⟩
    rw [blanks.eq_def] at h
    cases kind with
    | list item target =>
      rw [announced_list]
      refine hasTextsOf_list ?_
      by_contra hblank
      rw [not_or, not_not, Bool.not_eq_true] at hblank
      obtain ⟨hunstructured, rfl⟩ := hblank
      simp [hunstructured] at h
    | record =>
      rw [announced_kept .record nofun nofun nofun]
      exact hasTextsOf_record (isEmpty_announcedAll _ _) (hchildren h)
    | _ => exact hplain nofun nofun
termination_by structural f => f

lemma haveTextsOf_announcedAll : ∀ (fs : List Field) (owner : Text), blanksAmong fs = 0 →
    HaveTextsOf (announcedAll owner fs) fs
  | [], _, _ => ⟨rfl, rfl, fun _ => rfl⟩
  | f :: fs, owner, h => by
    have hf := hasTextsOf_announced f owner
    have hfs := haveTextsOf_announcedAll fs owner
    obtain ⟨hname, hrequired, hoptional⟩ := announced_markers owner f
    rw [blanksAmong, Nat.add_eq_zero_iff] at h
    refine .cons hname hrequired hoptional (fun hid => hf ?_) (hfs h.2)
    simpa only [hid, Bool.false_eq_true, if_false] using h.1
termination_by structural fs => fs

end

/-! ## Blank item tags show -/

lemma count_announcedType (target : Option Text) : (TypeScript.listType (some []) target).count 'y' = 1 ∧
    (TypeScript.listType (some Scalar.string.tag) target).count 'y' = 0 := by
  constructor
  · simp only [TypeScript.listType]
    split
    · decide
    · decide
  · rfl

mutual

lemma count_type : ∀ (f : Field) (owner scope : Text), (TypeScript.type scope f).count 'y' =
    (TypeScript.type scope (announced owner f)).count 'y' + f.blanks
  | ⟨name, isRequired, isOptional, kind, children⟩, owner, scope => by
    have hchildren := count_properties children (pathBelow owner name)
    have hplain := hasTextsOf_plain owner ⟨name, isRequired, isOptional, kind, children⟩
    rw [blanks.eq_def]
    cases kind with
    | list item target =>
      rw [announced_list]
      by_cases hblank : structured (.list item target) children = false ∧ item = some []
      · obtain ⟨hunstructured, rfl⟩ := hblank
        have hstructured := structured_announced (some []) ((some []).map announcedTag) target
          (pathBelow owner name) children
        obtain ⟨hone, hzero⟩ := count_announcedType target
        rw [hunstructured] at hstructured
        simp only [TypeScript.type.eq_def, hunstructured, hstructured, Bool.false_eq_true, if_false, hone]
        -- a blank tag is written with the one `y` of `any`, and what it is announced as has none
        rw [show (some []).map announcedTag = some Scalar.string.tag by decide, hzero]
        rfl
      · have hkept : structured (.list item target) children = true ∨ item ≠ some [] := by
          rw [not_and_or, Bool.not_eq_false] at hblank
          exact hblank
        rw [(hasTextsOf_list hkept).typeScript]
        rcases hkept with hkept | hkept
        · simp [hkept]
        · simp [hkept]
    | record =>
      rw [announced_kept .record nofun nofun nofun]
      simp only [TypeScript.type.eq_def, isEmpty_announcedAll]
      cases children with
      | nil => rfl
      | cons c cs =>
        have hbraced : ∀ ps : List Text, (Text.braced (Text.join "; " ps)).count 'y' = ps.flatten.count 'y' := by
          intro ps
          rw [← Text.count_join (by decide : List.count 'y' "; ".toList = 0)]
          simp [Text.braced]
        simp only [List.isEmpty_cons, Bool.false_eq_true, if_false, hbraced]
        exact hchildren _
    | _ => exact congrArg (List.count 'y') ((hplain nofun nofun).typeScript scope).symm
termination_by structural f => f

lemma count_properties : ∀ (fs : List Field) (owner scope : Text),
    (TypeScript.properties scope fs).flatten.count 'y' =
      (TypeScript.properties scope (announcedAll owner fs)).flatten.count 'y' + blanksAmong fs
  | [], _, _ => rfl
  | f :: fs, owner, scope => by
    have hf := count_type f owner scope
    have hfs := count_properties fs owner scope
    obtain ⟨hname, -, hoptional⟩ := announced_markers owner f
    rw [announcedAll, TypeScript.properties, TypeScript.properties, blanksAmong, hname, hoptional]
    cases hid : isIdentity f.name with
    | true => simp [hfs]
    | false =>
      simp only [Bool.false_eq_true, if_false, List.singleton_append, List.flatten_cons, List.count_append,
        hfs, hf]
      omega
termination_by structural fs => fs

end

/-! ## API documents -/

lemma property_list_iff : OpenApi.property
      ⟨name, isRequired, isOptional, .list (item.map announcedTag) target, announcedAll path children⟩ =
        OpenApi.property ⟨name, isRequired, isOptional, .list item target, children⟩ ↔
      structured (.list item target) children = true ∨ item ≠ some [] := by
  have hstructured := structured_announced item (item.map announcedTag) target path children
  simp only [OpenApi.property.eq_def, hstructured]
  cases structured (.list item target) children with
  | true => simp
  | false =>
    simp only [Bool.false_eq_true, if_false, false_or]
    constructor
    · -- items that may be anything are not described as strings
      rintro h rfl
      have hannounced : OpenApi.holdsReferences ((some []).map announcedTag) target = false := rfl
      have hblank : OpenApi.holdsReferences (some []) target = false := rfl
      simp only [OpenApi.listType.eq_def, hannounced, hblank, Bool.false_eq_true, if_false] at h
      cases h
    · intro hitem
      have hitem' : item.map announcedTag ≠ some [] := by
        intro h
        obtain ⟨t, -, ht⟩ := Option.map_eq_some_iff.1 h
        exact announcedTag_ne_nil t ht
      rw [OpenApi.listType_eq_ofShape name target hitem', OpenApi.listType_eq_ofShape name target hitem,
        ofList_announcedTag target hitem]

lemma any_name_visible (fs : List Field) (name : Text) :
    (visible fs).any (fun g => g.name = name) = true ↔ name ∈ Table.keys (OpenApi.properties fs) := by
  rw [OpenApi.properties_eq_map_visible, Table.keys, List.map_map]
  simp only [List.any_eq_true, List.mem_map, decide_eq_true_eq, Function.comp_apply]

lemma keys_properties_announcedAll (owner : Text) (fs : List Field) :
    Table.keys (OpenApi.properties (announcedAll owner fs)) = Table.keys (OpenApi.properties fs) := by
  induction fs with
  | nil => rfl
  | cons f fs ih =>
    rw [announcedAll, OpenApi.properties, OpenApi.properties, (announced_markers owner f).1]
    cases isIdentity f.name with
    | true => exact ih
    | false => exact congrArg (f.name :: ·) ih

mutual

/-- An API document keeps to what is announced where it shows no enumeration without values and no blank
item tag. -/
lemma property_announced_iff : ∀ (f : Field) (owner : Text),
    OpenApi.property (announced owner f) = OpenApi.property f ↔ f.isKeptInApi = true
  | ⟨name, isRequired, isOptional, kind, children⟩, owner => by
    have hchildren := ofEntries_announcedAll_iff children (pathBelow owner name)
    rw [isKeptInApi.eq_def]
    cases kind with
    | scalar s =>
      rw [announced_kept (.scalar s) nofun nofun nofun]
      exact iff_of_true rfl rfl
    | reference target =>
      rw [announced_kept (.reference target) nofun nofun nofun]
      exact iff_of_true rfl rfl
    | unknown t =>
      rw [announced_string (.inr (.inr ⟨t, rfl⟩))]
      exact iff_of_true rfl rfl
    | enumeration values =>
      match values with
      | none =>
        rw [announced_string (.inl rfl)]
        exact iff_of_false nofun nofun
      | some [] =>
        rw [announced_string (.inr (.inl rfl))]
        exact iff_of_false nofun nofun
      | some (v :: vs) =>
        rw [announced_kept (.enumeration (some (v :: vs))) nofun nofun (by rintro _ ⟨⟩; exact List.cons_ne_nil v vs)]
        exact iff_of_true rfl rfl
    | list item target =>
      rw [announced_list, property_list_iff]
      simp only [Bool.or_eq_true, decide_eq_true_eq]
    | record =>
      rw [announced_kept .record nofun nofun nofun]
      simp only [OpenApi.property.eq_def, isEmpty_announcedAll]
      cases children with
      | nil => exact iff_of_true rfl rfl
      | cons c cs =>
        simp only [List.isEmpty_cons, Bool.false_eq_true, if_false, ← hchildren, Json.object, List.map_append,
          List.map_cons, List.map_nil, Json.obj.injEq, List.append_cancel_left_eq, List.cons.injEq,
          Prod.mk.injEq, true_and, and_true]
termination_by structural f => f

lemma ofEntries_announcedAll_iff : ∀ (fs : List Field) (owner : Text),
    Table.ofEntries (OpenApi.properties (announcedAll owner fs)) = Table.ofEntries (OpenApi.properties fs) ↔
      areKeptInApi fs = true
  | [], _ => iff_of_true rfl rfl
  | f :: fs, owner => by
    have hf := property_announced_iff f owner
    have hfs := ofEntries_announcedAll_iff fs owner
    have hkeys := keys_properties_announcedAll owner fs
    rw [announcedAll, OpenApi.properties, OpenApi.properties, areKeptInApi, (announced_markers owner f).1]
    cases hid : isIdentity f.name with
    | true => simpa using hfs
    | false =>
      simp only [Bool.false_eq_true, if_false, List.singleton_append, Table.ofEntries_cons_iff hkeys, hf, hfs,
        Bool.false_or, Bool.and_eq_true, Bool.or_eq_true, any_name_visible]
termination_by structural fs => fs

end

/-! ## All tables -/

/-- **The tables do what the audit announces, up to two slips**: a field is stored, validated and typed
like the one in which everything announced has been done if and only if its static type shows no list
with a blank item tag.  It is also described like that one if and only if its description, besides,
shows no enumeration without values. -/
theorem hasTypesOf_announced_iff (f : Field) :
    (HasTextsOf (announced [] f) f ↔ f.blanks = 0) ∧
      (HasTypesOf (announced [] f) f ↔ f.blanks = 0 ∧ f.isKeptInApi = true) := by
  have htexts : HasTextsOf (announced [] f) f ↔ f.blanks = 0 := by
    constructor
    · intro h
      have hcount := count_type f [] []
      rw [h.typeScript] at hcount
      omega
    · exact hasTextsOf_announced f []
  have hopenApi := property_announced_iff f []
  refine ⟨htexts, fun h => ⟨htexts.1 h.toHasTextsOf, hopenApi.1 h.openApi⟩, ?_⟩
  rintro ⟨hblanks, hkept⟩
  exact ⟨htexts.2 hblanks, hopenApi.2 hkept⟩

/-- An enumeration without values is described with an empty list of values. -/
theorem not_hasTypesOf_announced_status :
    ¬ HasTypesOf (announced [] (leaf "status" false false (.enumeration none)))
      (leaf "status" false false (.enumeration none)) := by
  intro h
  have hkept := (property_announced_iff _ []).1 h.openApi
  cases hkept

-- A list with a blank item tag is typed as a list of anything.
example : TypeScript.type [] (leaf "tags" false false (.list (some []) none)) = "any[]".toList ∧
    TypeScript.type [] (announced [] (leaf "tags" false false (.list (some []) none))) = "string[]".toList := by
  decide

end Field

end Scaffold
