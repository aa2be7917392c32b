import Scaffold.Field.Attributes
import Scaffold.Proofs.Field.Tokens
import Scaffold.Proofs.Text.Case

/-!
# What becomes of a token

A field that a token stands for is as the checks of field definitions want it (`Field.IsAccepted`): made
from its attributes it comes out unchanged, since tags are normalized once and for all
(`normalizeTag_normalizeTag`).  So no token makes the checks fail.

Nor does a token vanish.  `Accounts` lists what can become of it: the identity field is left out without
a word, a token outside of the grammar leaves one warning, and of a list of objects every property is
kept, or leaves a warning, or is the identity field (`length_slots`).
-/

namespace Scaffold

/-- **Tags are normalized in one step.** -/
theorem normalizeTag_normalizeTag (raw : Text) : normalizeTag (normalizeTag raw) = normalizeTag raw := by
  have htrim : Text.trim (Text.lower (Text.trim raw)) = Text.lower (Text.trim raw) :=
    Text.trim_lower (Text.trim_trim raw)
  by_cases hid : Text.lower (Text.trim raw) = "id".toList
  · have hobject : normalizeTag raw = objectIdTag := if_pos hid
    rw [hobject]
    decide
  · have hraw : normalizeTag raw = Text.lower (Text.trim raw) := if_neg hid
    rw [hraw, normalizeTag, htrim, Text.lower_lower]
    exact if_neg hid

/-! ## Fields and their checks -/

/-- A kind that is written with tags in normal form, a known one for a known kind. -/
structure Kind.IsSettled (k : Kind) : Prop where
  tag_ne_nil : k.tag ≠ []
  tag : normalizeTag k.tag = k.tag
  item : ∀ item target, k = .list (some item) target → normalizeTag item = item
  unknown : ∀ t, k = .unknown t → Kind.ofTag t = .unknown t

/-- A field passes all checks of its attributes, and comes out of them as it is. -/
structure Field.IsAccepted (f : Field) : Prop where
  name_ne_nil : f.attributes.name ≠ []
  tag_ne_nil : f.attributes.tag ≠ []
  tag : normalizeTag f.attributes.tag = f.attributes.tag
  item : f.attributes.item.map normalizeTag = f.attributes.item
  build : f.attributes.build = .ok f

/-- An accepted field with a trimmed name that is not the one of the identity. -/
structure Field.IsTidy (f : Field) : Prop where
  accepted : f.IsAccepted
  trimmed : Text.trim f.name = f.name
  visible : f.name ≠ [] ∧ isIdentity f.name = false

/-- A tidy field without nested fields, target and item tag. -/
structure Field.IsTidyLeaf (f : Field) : Prop extends f.IsTidy where
  properties : f.attributes.properties = none
  target : f.attributes.target = none
  item : f.attributes.item = none

/-- A tidy field that has nested fields only if it is a list with the target of objects. -/
structure Field.IsTidyTree (f : Field) : Prop extends f.IsTidy where
  nested : ∀ properties, f.attributes.properties = some properties → properties ≠ [] ∧
    f.attributes.tag = arrayTag ∧ f.attributes.target = some objectTag ∧ ∀ c ∈ properties, c.IsTidyLeaf

variable {k : Kind} {f : Field} {children : List Field} {tag : Text} {item target : Option Text}

namespace Kind

lemma isSettled_enumeration (values : Option (List Text)) : (enumeration values).IsSettled where
  tag_ne_nil := show enumTag ≠ [] by decide
  tag := show normalizeTag enumTag = enumTag by decide
  item := nofun
  unknown := nofun

lemma isSettled_reference (target : Option Text) : (reference target).IsSettled where
  tag_ne_nil := show objectIdTag ≠ [] by decide
  tag := show normalizeTag objectIdTag = objectIdTag by decide
  item := nofun
  unknown := nofun

lemma isSettled_list (h : ∀ t, item = some t → normalizeTag t = t) (target : Option Text) :
    (list item target).IsSettled where
  tag_ne_nil := show arrayTag ≠ [] by decide
  tag := show normalizeTag arrayTag = arrayTag by decide
  item := by
    rintro t target' h'
    cases h'
    exact h t rfl
  unknown := nofun

lemma isSettled_record : record.IsSettled where
  tag_ne_nil := show objectTag ≠ [] by decide
  tag := show normalizeTag objectTag = objectTag by decide
  item := nofun
  unknown := nofun

/-- The kind that a tag in normal form stands for. -/
lemma isSettled_ofTag (hne : tag ≠ []) (h : normalizeTag tag = tag) : (ofTag tag).IsSettled where
  tag_ne_nil := by rwa [tag_ofTag]
  tag := by rwa [tag_ofTag]
  item := by
    intro item target hlist
    have hleaf := Token.isLeaf_ofTag tag
    rw [hlist] at hleaf
    cases hleaf
  unknown := by
    intro t ht
    have htag := tag_ofTag tag
    rw [ht] at htag
    rw [show t = tag from htag, ht]
    exact congrArg unknown htag

end Kind

namespace Field

/-- Attributes of a field fit together if only objects and lists of objects have nested fields. -/
lemma build_attributes (hunknown : ∀ t, f.kind = .unknown t → Kind.ofTag t = .unknown t)
    (hchildren : f.children ≠ [] → f.kind = .record ∨ ∃ item, f.kind = .list item (some objectTag)) :
    f.attributes.build = .ok f := by
  obtain ⟨name, isRequired, isOptional, kind, children⟩ := f
  cases children with
  | nil =>
    cases kind with
    | scalar s => cases s <;> rfl
    | unknown t =>
      have hkind : Kind.ofTag t = .unknown t := hunknown t rfl
      simp [Attributes.build, Attributes.inconsistency?, attributes, Attributes.kind, Kind.tag, hkind]
    | enumeration values => cases values <;> rfl
    | reference target => cases target <;> rfl
    | list item target => cases item <;> cases target <;> rfl
    | record => rfl
  | cons c cs =>
    rcases hchildren (List.cons_ne_nil c cs) with rfl | ⟨item, rfl⟩
    · rfl
    · cases item <;> rfl

lemma isAccepted_of_settled (hname : f.name ≠ []) (hkind : f.kind.IsSettled)
    (hchildren : f.children ≠ [] → f.kind = .record ∨ ∃ item, f.kind = .list item (some objectTag)) :
    f.IsAccepted where
  name_ne_nil := hname
  tag_ne_nil := hkind.tag_ne_nil
  tag := hkind.tag
  item := by
    cases hlist : f.attributes.item with
    | none => rfl
    | some t =>
      obtain ⟨name, isRequired, isOptional, kind, children⟩ := f
      cases kind with
      | list item target =>
        obtain rfl : item = some t := hlist
        exact congrArg some (hkind.item t target rfl)
      | _ => cases hlist
  build := build_attributes hkind.unknown hchildren

lemma isTidy_of_settled (hname : f.name ≠ []) (htrim : Text.trim f.name = f.name)
    (hid : isIdentity f.name = false) (hkind : f.kind.IsSettled)
    (hchildren : f.children ≠ [] → f.kind = .list none (some objectTag)) : f.IsTidy where
  accepted := isAccepted_of_settled hname hkind fun h => .inr ⟨none, hchildren h⟩
  trimmed := htrim
  visible := ⟨hname, hid⟩

lemma isTidyLeaf_of_settled (hname : f.name ≠ []) (htrim : Text.trim f.name = f.name)
    (hid : isIdentity f.name = false) (hkind : f.kind.IsSettled) (hleaf : f.kind.IsLeaf)
    (hchildren : f.children = []) : f.IsTidyLeaf := by
  have htidy := isTidy_of_settled hname htrim hid hkind fun h => absurd hchildren h
  obtain ⟨name, isRequired, isOptional, kind, children⟩ := f
  obtain rfl : children = [] := hchildren
  exact ⟨htidy, rfl, by cases hleaf <;> rfl, by cases hleaf <;> rfl⟩

lemma isTidyTree_of_settled (hname : f.name ≠ []) (htrim : Text.trim f.name = f.name)
    (hid : isIdentity f.name = false) (hkind : f.kind.IsSettled)
    (hobjects : f.children ≠ [] → f.kind = .list none (some objectTag))
    (hchildren : ∀ c ∈ f.children, c.IsTidyLeaf) : f.IsTidyTree := by
  refine ⟨isTidy_of_settled hname htrim hid hkind hobjects, fun properties hproperties => ?_⟩
  obtain ⟨name, isRequired, isOptional, kind, children⟩ := f
  cases children with
  | nil => cases hproperties
  | cons c cs =>
    obtain rfl : kind = .list none (some objectTag) := hobjects (List.cons_ne_nil c cs)
    obtain rfl : c :: cs = properties := Option.some.inj hproperties
    exact ⟨List.cons_ne_nil c cs, rfl, rfl, hchildren⟩

end Field

namespace Token

variable {depth : Int} {token raw rawTag : Text} {parts more : List Text} {d : Decorated} {r : Reading}

/-! ## Names and slots of a token -/

/-- The name that a token begins with, without markers. -/
def name? (token : Text) : Option Text :=
  match form token with
  | .shorthand name _ | .parts name _ _ => some (undecorate name).name
  | .other => none

/-- The parts of a list of objects that are meant for its properties. -/
def propertyParts (rawTag : Text) : List Text → List Text
  | [] => []
  | item :: rest =>
    if (enumBody? (Text.trim rawTag)).isNone && normalizeTag (Text.trim rawTag) = arrayTag &&
        Text.lower (Text.trim item) = objectTag then rest
    else []

/-- The parts of a token that are meant for properties of a list of objects. -/
def properties (token : Text) : List Text :=
  match form token with
  | .parts _ rawTag more => propertyParts rawTag more
  | _ => []

/-- Names with types; the last name may have none. -/
def slots : List Text → List (Text × Option Text)
  | [] => []
  | [name] => [(name, none)]
  | name :: tag :: rest => (name, some tag) :: slots rest

/-- Whether a slot has a type and the name of the identity. -/
def isIdentitySlot (slot : Text × Option Text) : Bool :=
  slot.2.isSome && Field.isIdentity (undecorate slot.1).name

/-- **What can become of a token**, and what is said about it. -/
inductive Accounts (depth : Int) (name : Option Text) (parts : List Text) :
    Option Field → Diagnostics → Prop where
  /-- The identity field is left out without a word. -/
  | identity (n : Text) : name = some n → Field.isIdentity n = true → Accounts depth name parts none []
  /-- A token outside of the grammar leaves one warning. -/
  | dropped (d : Diagnostic) : d.isWarning = true → Accounts depth name parts none [d]
  /-- A field without properties to read leaves no warning. -/
  | plain (f : Field) (said : Diagnostics) : f.IsTidyTree → parts = [] → Diagnostics.warnings said = [] →
    Accounts depth name parts (some f) said
  /-- Every property of a list of objects is kept, warned of, or the identity. -/
  | objects (f : Field) (said : Diagnostics) : f.IsTidyTree → 1 ≤ depth →
    (slots parts).length = f.children.length + (Diagnostics.warnings said).length +
      ((slots parts).filter isIdentitySlot).length →
    Accounts depth name parts (some f) said
  /-- Without nesting, one warning stands for all properties of a list of objects. -/
  | disabled (f : Field) (said : Diagnostics) : f.IsTidyTree → depth < 1 → parts ≠ [] → f.children = [] →
    (Diagnostics.warnings said).length = 1 → Accounts depth name parts (some f) said

/-- What is said about a reading. -/
def Reading.findings (r : Reading) : Diagnostics := r.remarks.map Remark.diagnostic

/-- A token read after findings were made. -/
def readInto (depth : Int) (token : Text) (found : Diagnostics) : Option Field × Diagnostics :=
  ((read depth token).field?, found ++ (read depth token).findings)

/-! ## Properties -/

lemma trim_undecorate (raw : Text) : Text.trim (undecorate raw).name = (undecorate raw).name :=
  Text.trim_trim _

/-- A property is kept, warned of, or the identity. -/
lemma length_readProperty {rawName : Text} (hr : readProperty token rawName rawTag = r) :
    r.field?.toList.length + r.remarks.length +
      (if Field.isIdentity (undecorate rawName).name then 1 else 0) = 1 ∧
      ∀ remark ∈ r.remarks, remark.severity = .warning := by
  have hnil : Field.isIdentity [] = false := by decide
  subst hr
  simp only [readProperty]
  split
  · rename_i hempty
    rw [List.isEmpty_iff.1 hempty, hnil]
    exact ⟨rfl, by simp [Remark.severity]⟩
  split
  · exact ⟨rfl, by simp⟩
  split
  · exact ⟨rfl, by simp⟩
  split
  · exact ⟨rfl, by simp [Remark.severity]⟩
  · exact ⟨rfl, by simp⟩

/-- **No property vanishes**: the slots are those of the fields that are kept, those that are warned of
and those of the identity. -/
lemma length_slots (token : Text) (parts : List Text) :
    (slots parts).length = (readProperties token parts).1.length + (readProperties token parts).2.length +
        ((slots parts).filter isIdentitySlot).length ∧
      ∀ remark ∈ (readProperties token parts).2, remark.severity = .warning := by
  fun_induction readProperties token parts with
  | case1 => exact ⟨rfl, by simp⟩
  | case2 dangling => exact ⟨rfl, by simp [Remark.severity]⟩
  | case3 name tag rest r fs rs heq ih =>
    obtain ⟨hone, hwarn⟩ := length_readProperty (r := r) rfl
    rw [heq] at ih
    obtain ⟨hlength, hrest⟩ := ih
    refine ⟨?_, fun remark hremark => (List.mem_append.1 hremark).elim (hwarn remark) (hrest remark)⟩
    have hslot : isIdentitySlot (name, some tag) = Field.isIdentity (undecorate name).name := rfl
    rw [slots, List.length_cons, List.filter_cons, List.length_append, List.length_append, hslot]
    simp only at hlength
    split
    · rename_i hid
      rw [if_pos hid] at hone
      rw [List.length_cons]
      omega
    · rename_i hid
      rw [if_neg hid] at hone
      omega

lemma isTidyLeaf_readProperty {rawName : Text} {f : Field}
    (h : (readProperty token rawName rawTag).field? = some f) : f.IsTidyLeaf := by
  have hread := isReadNested_readProperty h
  have hfield : ∃ kind : Kind, kind.IsSettled ∧ f = (undecorate rawName).field kind [] := by
    simp only [readProperty] at h
    split at h
    · cases h
    split at h
    · cases h
    split at h
    · exact ⟨_, Kind.isSettled_enumeration _, (Option.some.inj h).symm⟩
    split at h
    · cases h
    · rename_i hne
      refine ⟨_, Kind.isSettled_ofTag ?_ (normalizeTag_normalizeTag rawTag), (Option.some.inj h).symm⟩
      exact fun hnil => hne (List.isEmpty_iff.2 hnil)
  obtain ⟨kind, hkind, rfl⟩ := hfield
  exact Field.isTidyLeaf_of_settled hread.name_ne_nil (trim_undecorate rawName) hread.visible hkind hread.kind rfl

lemma isTidyLeaf_of_mem_readProperties (token : Text) (parts : List Text) :
    ∀ f ∈ (readProperties token parts).1, f.IsTidyLeaf := by
  fun_induction readProperties token parts with
  | case1 => simp
  | case2 dangling => simp
  | case3 name tag rest r fs rs heq ih =>
    rw [heq] at ih
    intro f hf
    simp only [List.mem_append, Option.mem_toList] at hf
    exact hf.elim isTidyLeaf_readProperty (ih f)

/-! ## Tokens -/

section Named

variable {name : Option Text} (hne : (undecorate raw).name ≠ [])
  (hid : Field.isIdentity (undecorate raw).name = false)

include hne hid

lemma isTidyTree_field {kind : Kind} (hkind : kind.IsSettled) : ((undecorate raw).field kind []).IsTidyTree :=
  Field.isTidyTree_of_settled hne (trim_undecorate raw) hid hkind (fun h => absurd rfl h) (by simp [Decorated.field])

lemma accounts_readPlain {tag : Text} (htag : tag ≠ []) (hnormal : normalizeTag tag = tag) :
    Accounts depth name [] (readPlain token (undecorate raw) tag more).field?
      (readPlain token (undecorate raw) tag more).findings := by
  have hof := Kind.isSettled_ofTag htag hnormal
  simp only [readPlain]
  split
  · exact .plain _ _ (isTidyTree_field hne hid (Kind.isSettled_reference _)) rfl rfl
  · refine .plain _ _ (isTidyTree_field hne hid hof) rfl ?_
    simp only [Reading.findings]
    split
    · rfl
    · rfl

lemma accounts_readObjects (parts : List Text) :
    Accounts depth name parts (readObjects depth token (undecorate raw) parts).field?
      (readObjects depth token (undecorate raw) parts).findings := by
  have hkind : (Kind.list none (some objectTag)).IsSettled :=
    Kind.isSettled_list (fun _ h => by cases h) _
  cases parts with
  | nil =>
    have hread : readObjects depth token (undecorate raw) [] =
        ⟨some ((undecorate raw).field (.list none (some objectTag)) []), []⟩ := by
      simp [readObjects, readProperties]
    rw [hread]
    exact .plain _ _ (isTidyTree_field hne hid hkind) rfl rfl
  | cons part parts =>
    by_cases hdepth : depth < 1
    · have hread : readObjects depth token (undecorate raw) (part :: parts) =
          ⟨some ((undecorate raw).field (.list none (some objectTag)) []),
            [.propertiesDisabled (undecorate raw).name token]⟩ := by
        simp [readObjects, hdepth]
      rw [hread]
      exact .disabled _ _ (isTidyTree_field hne hid hkind) hdepth (List.cons_ne_nil _ _) rfl rfl
    · have hread : readObjects depth token (undecorate raw) (part :: parts) =
          ⟨some ((undecorate raw).field (.list none (some objectTag)) (readProperties token (part :: parts)).1),
            (readProperties token (part :: parts)).2⟩ := by
        simp [readObjects, hdepth]
      obtain ⟨hlength, hwarn⟩ := length_slots token (part :: parts)
      have hwarnings : Diagnostics.warnings ((readProperties token (part :: parts)).2.map Remark.diagnostic) =
          (readProperties token (part :: parts)).2.map Remark.diagnostic := by
        refine List.filter_eq_self.2 fun diagnostic hmem => ?_
        obtain ⟨remark, hremark, rfl⟩ := List.mem_map.1 hmem
        simp [Diagnostic.isWarning, Remark.diagnostic, hwarn remark hremark]
      have htree : ((undecorate raw).field (.list none (some objectTag))
          (readProperties token (part :: parts)).1).IsTidyTree :=
        Field.isTidyTree_of_settled hne (trim_undecorate raw) hid hkind (fun _ => rfl)
          (isTidyLeaf_of_mem_readProperties token (part :: parts))
      rw [hread]
      refine .objects _ _ htree (by omega) ?_
      rw [Reading.findings, hwarnings, List.length_map]
      exact hlength

lemma accounts_readParts : Accounts depth name (propertyParts rawTag more)
    (readParts depth token (undecorate raw) rawTag more).field?
    (readParts depth token (undecorate raw) rawTag more).findings := by
  have hnormal := normalizeTag_normalizeTag (Text.trim rawTag)
  cases henum : enumBody? (Text.trim rawTag) with
  | some body =>
    have hparts : propertyParts rawTag more = [] := by cases more <;> simp [propertyParts, henum]
    simp only [readParts, henum, hparts]
    exact .plain _ _ (isTidyTree_field hne hid (Kind.isSettled_enumeration _)) rfl rfl
  | none =>
    simp only [readParts, henum]
    by_cases htag : normalizeTag (Text.trim rawTag) = []
    · rw [if_pos (List.isEmpty_iff.2 htag)]
      exact .dropped _ rfl
    rw [if_neg (mt List.isEmpty_iff.1 htag)]
    -- properties are read behind an array only
    by_cases harray : normalizeTag (Text.trim rawTag) = arrayTag
    · rw [if_pos harray]
      cases more with
      | nil => exact accounts_readPlain hne hid htag hnormal
      | cons item rest =>
        simp only [propertyParts, henum, harray]
        by_cases hobjects : Text.lower (Text.trim item) = objectTag
        · simp only [hobjects, decide_true, Option.isNone_none, Bool.and_self, if_true]
          exact accounts_readObjects hne hid rest
        · simp only [hobjects, decide_false, Bool.and_false, Bool.false_eq_true, if_false]
          refine .plain _ _ (isTidyTree_field hne hid (Kind.isSettled_list ?_ _)) rfl rfl
          intro t ht
          have hitem : t = normalizeTag item := by
            unfold present at ht
            split at ht
            · cases ht
            · exact (Option.some.inj ht).symm
          rw [hitem, normalizeTag_normalizeTag]
    · have hparts : propertyParts rawTag more = [] := by cases more <;> simp [propertyParts, harray]
      rw [if_neg harray, hparts]
      exact accounts_readPlain hne hid htag hnormal

end Named

lemma accounts_read (depth : Int) (token : Text) :
    Accounts depth (name? token) (properties token) (read depth token).field? (read depth token).findings := by
  unfold read name? properties
  cases form token with
  | shorthand name vs =>
    simp only
    split
    · exact .dropped _ rfl
    rename_i hne
    split
    · rename_i hid
      exact .identity _ rfl hid
    · rename_i hid
      have hname : (undecorate name).name ≠ [] := fun h => hne (List.isEmpty_iff.2 h)
      exact .plain _ _ (isTidyTree_field hname (Bool.eq_false_iff.2 hid) (Kind.isSettled_enumeration _)) rfl rfl
  | parts name tag more =>
    simp only
    split
    · exact .dropped _ rfl
    rename_i hne
    split
    · rename_i hid
      exact .identity _ rfl hid
    · rename_i hid
      have hname : (undecorate name).name ≠ [] := fun h => hne (List.isEmpty_iff.2 h)
      exact accounts_readParts hname (Bool.eq_false_iff.2 hid)
  | other => exact .dropped _ rfl

/-- **No token vanishes, and none makes a check fail**: whatever was found before, reading a token adds to
the findings what `Accounts` says of the token, and a field that comes of it passes all checks. -/
theorem readInto_accounts (depth : Int) (token : Text) (found : Diagnostics) :
    ∃ said, (readInto depth token found).2 = found ++ said ∧
      Accounts depth (name? token) (properties token) (readInto depth token found).1 said :=
  ⟨_, rfl, accounts_read depth token⟩

end Token

end Scaffold
