import Scaffold.Proofs.Field.Tokens
import Scaffold.Proofs.Recovery.Kinds

/-!
# What is left of fields

Reading fields back from the files of a module gives their normal forms.  These have the names and the
nesting of the fields; what they may lose is said by kinds that are hollow or unknown, which have the
type of a string, and by nested fields that are neither required nor optional, or both.
-/

namespace Scaffold

/-- Whether a kind is an enumeration without values, which has the type of a string. -/
def Kind.isHollow : Kind → Bool
  | enumeration values => (values.getD []).isEmpty
  | _ => false

/-- Whether a kind has a tag outside of the vocabulary, which has the type of a string. -/
def Kind.isUnknown : Kind → Bool
  | unknown _ => true
  | _ => false

/-- What is left of a list is a list. -/
lemma Kind.exists_normal_list (item target : Option Text) :
    ∃ item' target', (Kind.list item target).normal = .list item' target' := by
  unfold Kind.normal
  cases item with
  | none =>
    simp only
    split
    · exact ⟨_, _, rfl⟩
    · exact ⟨_, _, rfl⟩
  | some tag =>
    simp only
    split
    · exact ⟨_, _, rfl⟩
    · exact ⟨_, _, rfl⟩

namespace Field

variable {f : Field} {fs : List Field}

@[simp] lemma name_normal (f : Field) : f.normal.name = f.name := by
  unfold normal
  split <;> rfl

@[simp] lemma name_normalNested (f : Field) : f.normalNested.name = f.name := rfl

@[simp] lemma isRequired_normal (f : Field) : f.normal.isRequired = f.isRequired := by
  unfold normal
  split <;> rfl

lemma normal_of_structured (h : f.isStructuredList = true) : f.normal =
    ⟨f.name, f.isRequired, f.isOptional, .list none (some objectTag), f.children.map normalNested⟩ :=
  if_pos h

lemma IsRead.normal_of_not_structured (hf : f.IsRead) (h : f.isStructuredList = false) :
    f.children = [] ∧ f.normal = ⟨f.name, f.isRequired, f.isOptional, f.kind.normal, []⟩ := by
  refine ⟨?_, if_neg (ne_of_eq_of_ne h Bool.false_ne_true)⟩
  by_contra hne
  exact absurd (hf.isStructuredList_iff.2 hne) (ne_of_eq_of_ne h Bool.false_ne_true)

lemma isStructuredList_normal (f : Field) : f.normal.isStructuredList = f.isStructuredList := by
  cases h : f.isStructuredList with
  | true =>
    have hchildren : f.children ≠ [] := by
      intro hnil
      unfold isStructuredList structured at h
      rw [hnil] at h
      split at h <;> simp at h
    have hobject : targetsObject (some objectTag) = true := by decide
    rw [normal_of_structured h]
    simp [isStructuredList, structured, hobject, hchildren]
  | false =>
    rw [normal, if_neg (ne_of_eq_of_ne h Bool.false_ne_true)]
    unfold isStructuredList structured
    split <;> simp

lemma children_of_mem_children_normal {c : Field} (h : c ∈ f.normal.children) : c.children = [] := by
  unfold normal at h
  split at h
  · obtain ⟨g, -, rfl⟩ := List.mem_map.1 h
    rfl
  · cases h

/-- The lists of objects among what is left of fields. -/
lemma nested_map_normal (h : ∀ f ∈ fs, f.IsRead) : nested (fs.map normal) = (nested fs).map normal := by
  have hleaves : ∀ f ∈ fs.map normal, ∀ c ∈ f.children, c.children = [] := by
    intro f hf c hc
    obtain ⟨g, -, rfl⟩ := List.mem_map.1 hf
    exact children_of_mem_children_normal hc
  have hsame : isStructuredList ∘ normal = isStructuredList := funext isStructuredList_normal
  rw [nested_eq_filter_of_leaves hleaves, nested_eq_filter h, List.filter_map, hsame]

end Field

end Scaffold
