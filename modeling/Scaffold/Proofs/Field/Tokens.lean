import Mathlib.Data.List.Basic
import Mathlib.Tactic.Common
import Scaffold.Field.Token
import Scaffold.Types.Naming

/-!
# Which fields tokens stand for

The token grammar does not reach every field: only a list of objects has nested fields, those have
none themselves, and an attribute that is there is not empty (`IsRead`).  Everything that is said
about the files of a module rests on this, so it is shown once for all tokens
(`Parsed.isRead_of_mem`).
-/

namespace Scaffold

/-- Values that are written, each of them with a character at least. -/
def Kind.HasProperValues (k : Kind) : Prop :=
  ∀ vs, k = .enumeration (some vs) → vs ≠ [] ∧ ∀ v ∈ vs, v ≠ []

/-- The kind of a nested field: references and lists have no attributes. -/
inductive Kind.IsLeaf : Kind → Prop
  | scalar (s : Scalar) : IsLeaf (.scalar s)
  | unknown (t : Text) : IsLeaf (.unknown t)
  | enumeration (values : Option (List Text)) : IsLeaf (.enumeration values)
  | reference : IsLeaf (.reference none)
  | list : IsLeaf (.list none none)
  | record : IsLeaf .record

/-- A kind whose attributes are not empty. -/
inductive Kind.IsProper : Kind → Prop
  | leaf {k : Kind} : k.IsLeaf → IsProper k
  | reference (t : Text) : t ≠ [] → IsProper (.reference (some t))
  | list (item target : Option Text) : item ≠ some [] → target ≠ some [] → IsProper (.list item target)

namespace Field

/-- A field nested in a list of objects. -/
structure IsReadNested (f : Field) : Prop where
  visible : isIdentity f.name = false
  name_ne_nil : f.name ≠ []
  children : f.children = []
  values : f.kind.HasProperValues
  kind : f.kind.IsLeaf

/-- A field that a token stands for. -/
structure IsRead (f : Field) : Prop where
  visible : isIdentity f.name = false
  name_ne_nil : f.name ≠ []
  values : f.kind.HasProperValues
  kind : f.kind.IsProper
  objects : f.children ≠ [] → f.kind = .list none (some objectTag)
  children : ∀ c ∈ f.children, c.IsReadNested

end Field

namespace Token

lemma isLeaf_ofTag (t : Text) : (Kind.ofTag t).IsLeaf := by
  unfold Kind.ofTag
  split
  · exact .scalar _
  repeat' split
  · exact .enumeration _
  · exact .list
  · exact .record
  · exact .reference
  · exact .unknown _

lemma hasProperValues_ofTag (t : Text) : (Kind.ofTag t).HasProperValues := by
  intro vs h
  unfold Kind.ofTag at h
  split at h
  · cases h
  · split at h
    · cases h
    · repeat' split at h
      all_goals cases h

lemma hasProperValues_enumeration (raw : Text) : (enumeration (values raw)).HasProperValues := by
  intro vs h
  simp only [enumeration, Kind.enumeration.injEq] at h
  split at h
  · cases h
  · rename_i hne
    simp only [Option.some.injEq] at h
    subst h
    refine ⟨by simpa using hne, fun v hv => ?_⟩
    simpa using (List.mem_filter.1 hv).2

lemma present_ne (t : Text) : present t ≠ some [] := by
  unfold present
  split
  · simp
  · rename_i h
    intro heq
    simp only [Option.some.injEq] at heq
    exact h (by rw [heq]; rfl)

/-! ## Properties of a list of objects -/

lemma isReadNested_readProperty {token name tag : Text} {f : Field}
    (h : (readProperty token name tag).field? = some f) : f.IsReadNested := by
  unfold readProperty at h
  simp only at h
  split at h
  · cases h
  rename_i hne
  split at h
  · cases h
  rename_i hid
  have hvisible := Bool.eq_false_iff.2 hid
  have hname : (undecorate name).name ≠ [] := by simpa using hne
  split at h
  · rename_i body _
    simp only [Option.some.injEq] at h
    subst h
    exact ⟨hvisible, hname, rfl, hasProperValues_enumeration body, .enumeration _⟩
  split at h
  · cases h
  · simp only [Option.some.injEq] at h
    subst h
    exact ⟨hvisible, hname, rfl, hasProperValues_ofTag _, isLeaf_ofTag _⟩

lemma isReadNested_readProperties (token : Text) (parts : List Text) :
    ∀ f ∈ (readProperties token parts).1, f.IsReadNested := by
  fun_induction readProperties token parts with
  | case1 => simp
  | case2 dangling => simp
  | case3 name tag rest r fs rs heq ih =>
    rw [heq] at ih
    intro f hf
    simp only [List.mem_append, Option.mem_toList] at hf
    rcases hf with hf | hf
    · exact isReadNested_readProperty hf
    · exact ih f hf

/-! ## Tokens -/

variable {depth : Int} {token tag : Text} {d : Decorated} {more : List Text} {f : Field}

lemma isRead_field (hid : Field.isIdentity d.name = false) (hne : d.name ≠ []) {k : Kind}
    (hv : k.HasProperValues) (hk : k.IsProper) : (d.field k []).IsRead where
  visible := hid
  name_ne_nil := hne
  values := hv
  kind := hk
  objects h := absurd rfl h
  children := by simp [Decorated.field]

lemma hasProperValues_list (item target : Option Text) : (Kind.list item target).HasProperValues :=
  fun _ h => by cases h

lemma hasProperValues_reference (target : Option Text) : (Kind.reference target).HasProperValues :=
  fun _ h => by cases h

lemma isProper_reference {target : Option Text} (h : target ≠ some []) :
    (Kind.reference target).IsProper := by
  cases target with
  | none => exact .leaf .reference
  | some t => exact .reference t fun ht => h (by rw [ht])

lemma isRead_readPlain (hid : Field.isIdentity d.name = false) (hne : d.name ≠ [])
    (h : (readPlain token d tag more).field? = some f) : f.IsRead := by
  unfold readPlain at h
  simp only at h
  split at h
  · simp only [Option.some.injEq] at h
    subst h
    exact isRead_field hid hne (hasProperValues_reference _) (isProper_reference (present_ne _))
  · simp only [Option.some.injEq] at h
    subst h
    exact isRead_field hid hne (hasProperValues_ofTag _) (.leaf (isLeaf_ofTag _))

lemma isRead_readObjects (hid : Field.isIdentity d.name = false) (hne : d.name ≠ [])
    (h : (readObjects depth token d more).field? = some f) : f.IsRead := by
  have hproper : (Kind.list none (some objectTag)).IsProper := .list _ _ (by simp) (by decide)
  unfold readObjects at h
  simp only at h
  split at h
  · simp only [Option.some.injEq] at h
    subst h
    exact isRead_field hid hne (hasProperValues_list _ _) hproper
  · simp only [Option.some.injEq] at h
    subst h
    exact ⟨hid, hne, hasProperValues_list _ _, hproper, fun _ => rfl,
      isReadNested_readProperties token more⟩

lemma isRead_readParts (hid : Field.isIdentity d.name = false) (hne : d.name ≠ [])
    (h : (readParts depth token d tag more).field? = some f) : f.IsRead := by
  unfold readParts at h
  split at h
  · rename_i body _
    simp only [Option.some.injEq] at h
    subst h
    exact isRead_field hid hne (hasProperValues_enumeration body) (.leaf (.enumeration _))
  simp only at h
  split at h
  · cases h
  split at h
  · split at h
    · exact isRead_readPlain hid hne h
    split at h
    · exact isRead_readObjects hid hne h
    · simp only [Option.some.injEq] at h
      subst h
      exact isRead_field hid hne (hasProperValues_list _ _)
        (.list _ _ (present_ne _) (present_ne _))
  · exact isRead_readPlain hid hne h

theorem isRead_read (h : (read depth token).field? = some f) : f.IsRead := by
  unfold read at h
  split at h
  · rename_i name vs _
    simp only at h
    split at h
    · cases h
    rename_i hne
    split at h
    · cases h
    rename_i hid
    simp only [Option.some.injEq] at h
    subst h
    exact isRead_field (Bool.eq_false_iff.2 hid) (by simpa using hne) (hasProperValues_enumeration vs)
      (.leaf (.enumeration _))
  · simp only at h
    split at h
    · cases h
    rename_i hne
    split at h
    · cases h
    rename_i hid
    exact isRead_readParts (Bool.eq_false_iff.2 hid) (by simpa using hne) h
  · cases h

end Token

namespace Parsed

lemma isRead_readTokens (depth : Int) (tokens : List Text) (skipping : Bool) :
    ∀ f ∈ (readTokens depth skipping tokens).fields, f.IsRead := by
  induction tokens generalizing skipping with
  | nil => simp [readTokens]
  | cons token rest ih =>
    intro f hf
    rw [readTokens] at hf
    split at hf
    · exact ih true f hf
    simp only at hf
    split at hf
    · exact ih skipping f hf
    split at hf
    · exact ih skipping f hf
    · simp only [List.mem_append, Option.mem_toList] at hf
      rcases hf with hf | hf
      · exact Token.isRead_read hf
      · exact ih skipping f hf

/-- **Tokens stand for proper fields.** -/
theorem isRead_of_mem {tokens : List Text} {f : Field} (h : f ∈ (ofTokens tokens).fields) : f.IsRead :=
  isRead_readTokens 1 tokens false f h

end Parsed

/-! ## What this says about lists of objects -/

namespace Field

variable {f : Field} {fs : List Field}

lemma visible_eq_self (h : ∀ f ∈ fs, isIdentity f.name = false) : visible fs = fs :=
  List.filter_eq_self.2 fun f hf => by simp [h f hf]

lemma IsRead.isStructuredList_iff (h : f.IsRead) : f.isStructuredList = true ↔ f.children ≠ [] := by
  unfold isStructuredList structured
  constructor
  · intro hs hempty
    rw [hempty] at hs
    split at hs <;> simp at hs
  · intro hne
    rw [h.objects hne]
    have hobject : targetsObject (some objectTag) = true := by decide
    simp [hobject, hne]

lemma nested_of_leaves (h : ∀ f ∈ fs, f.children = []) : nested fs = [] := by
  induction fs with
  | nil => rfl
  | cons f fs ih =>
    obtain ⟨name, isRequired, isOptional, kind, children⟩ := f
    obtain rfl : children = [] := h _ (List.mem_cons_self ..)
    have hnot : structured kind [] = false := by cases kind <;> simp [structured]
    rw [nested, nestedIn, nested, hnot, ih fun f hf => h f (by simp [hf])]
    rfl

/-- The lists of objects below fields whose nested fields have none of their own. -/
lemma nested_eq_filter_of_leaves (h : ∀ f ∈ fs, ∀ c ∈ f.children, c.children = []) :
    nested fs = fs.filter isStructuredList := by
  induction fs with
  | nil => rfl
  | cons f fs ih =>
    obtain ⟨name, isRequired, isOptional, kind, children⟩ := f
    have hleaves : nested children = [] := nested_of_leaves (h _ (List.mem_cons_self ..))
    rw [nested, nestedIn, hleaves, ih fun f hf => h f (by simp [hf]), List.filter_cons]
    unfold isStructuredList
    simp only [List.nil_append]
    split <;> rfl

/-- The schemas that are declared are those of the lists of objects. -/
lemma nested_eq_filter (h : ∀ f ∈ fs, f.IsRead) : nested fs = fs.filter isStructuredList :=
  nested_eq_filter_of_leaves fun f hf c hc => ((h f hf).children c hc).children

end Field

end Scaffold
