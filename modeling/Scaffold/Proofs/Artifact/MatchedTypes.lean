import Scaffold.Proofs.Recovery.Brackets
import Scaffold.Proofs.Artifact.TypeTexts

/-!
# The brackets of static types

An inline object is a type with braces and semicolons, and may hold further ones.  However deep a tree of fields is,
the brackets of the type that is printed for it match, and its semicolons stand inside of them
(`TypeScript.isMatchedType_type`).  All that is asked of the fields is that their names are words of ASCII.
-/

namespace Scaffold

open Recovery (Matched IsTypeLine matched_of_plain matched_of_all matched_join bracketStep_of_isNameChar)

lemma Text.isNameChar_of_forall_isAsciiWord {t : Text} (h : ∀ c ∈ t, isAsciiWord c = true) :
    ∀ c ∈ t, isNameChar c = true :=
  fun c hc => isNameChar_of_isWord (isWord_of_isAsciiWord (h c hc))

/-! ## Legible fields -/

/-- Names of ASCII letters, digits and underscores, and values that are not empty and have no braces, at every
depth. -/
inductive Field.IsLegible : Field → Prop where
  | intro {f : Field} : f.name ≠ [] → (∀ c ∈ f.name, Text.isAsciiWord c = true) →
      (∀ v ∈ f.values, v ≠ [] ∧ '{' ∉ v ∧ '}' ∉ v) → (∀ c ∈ f.children, IsLegible c) → IsLegible f

namespace Field

variable {f g : Field} {fs : List Field} {scope name : Text}

namespace IsLegible

lemma name_ne_nil (h : f.IsLegible) : f.name ≠ [] := by
  cases h with
  | intro hne _ _ _ => exact hne

lemma name_word (h : f.IsLegible) : ∀ c ∈ f.name, Text.isAsciiWord c = true := by
  cases h with
  | intro _ hword _ _ => exact hword

lemma values (h : f.IsLegible) : ∀ v ∈ f.values, v ≠ [] ∧ '{' ∉ v ∧ '}' ∉ v := by
  cases h with
  | intro _ _ hvalues _ => exact hvalues

lemma children (h : f.IsLegible) : ∀ c ∈ f.children, c.IsLegible := by
  cases h with
  | intro _ _ _ hchildren => exact hchildren

lemma isIdentifierText (h : f.IsLegible) : TypeScript.IsIdentifierText f.name :=
  ⟨h.name_ne_nil, fun c hc => Text.isIdentifierRest_of_isAsciiWord (h.name_word c hc)⟩

end IsLegible

/-- Legibility does not depend on the markers. -/
lemma IsLegible.optional (h : f.IsLegible) : IsLegible { f with isOptional := true } :=
  .intro h.name_ne_nil h.name_word h.values h.children

lemma isAsciiWord_itemTypeNameOf (h : ∀ c ∈ name, Text.isAsciiWord c = true) :
    ∀ c ∈ itemTypeNameOf name, Text.isAsciiWord c = true := by
  intro c hc
  rcases List.mem_append.1 hc with hc | hc
  · exact Text.isAsciiWord_capitalizeFirst h c hc
  · exact Text.forall_mem_of_all (P := fun c => Text.isAsciiWord c = true) (by decide) c hc

lemma isAsciiWord_scopeOf (h : ∀ c ∈ name, Text.isAsciiWord c = true) (kind : Kind) (children : List Field) :
    ∀ c ∈ scopeOf name kind children, Text.isAsciiWord c = true := by
  unfold scopeOf
  split
  · exact isAsciiWord_itemTypeNameOf h
  · exact Text.isAsciiWord_capitalizeFirst h

lemma isAsciiWord_enumTypeName (hscope : ∀ c ∈ scope, Text.isAsciiWord c = true)
    (hname : ∀ c ∈ name, Text.isAsciiWord c = true) :
    ∀ c ∈ enumTypeName scope name, Text.isAsciiWord c = true := by
  intro c hc
  simp only [enumTypeName, List.mem_append] at hc
  rcases hc with (hc | hc) | hc
  · exact hscope c hc
  · exact Text.isAsciiWord_capitalizeFirst hname c hc
  · exact Text.forall_mem_of_all (P := fun c => Text.isAsciiWord c = true) (by decide) c hc

mutual

/-- What is nested in legible fields is legible. -/
lemma isLegible_of_mem_nestedIn : ∀ f : Field, f.IsLegible → ∀ g ∈ nestedIn f, g.IsLegible
  | ⟨name, isRequired, isOptional, kind, children⟩, h, g, hg => by
    have hchildren := isLegible_of_mem_nested children h.children g
    rw [nestedIn, List.mem_append] at hg
    rcases hg with hg | hg
    · exact hchildren hg
    · split at hg
      · obtain rfl := List.mem_singleton.1 hg
        exact h
      · cases hg
termination_by structural f => f

lemma isLegible_of_mem_nested : ∀ fs : List Field, (∀ f ∈ fs, f.IsLegible) → ∀ g ∈ nested fs, g.IsLegible
  | [], _, g, hg => absurd hg List.not_mem_nil
  | f :: fs, h, g, hg => by
    have hf := isLegible_of_mem_nestedIn f (h f (by simp)) g
    have hfs := isLegible_of_mem_nested fs (fun f hf => h f (by simp [hf])) g
    rw [nested, List.mem_append] at hg
    exact hg.elim hf hfs
termination_by structural fs => fs

end

end Field

/-! ## Types of any depth -/

namespace TypeScript

/-- The text of a type: its brackets match, and a property that ends with it is read to its end. -/
structure IsMatchedType (t : Text) : Prop where
  matched : Matched false t
  head : ∃ c u, t = c :: u ∧ Text.isBlank c = false
  last : ∀ c, t.getLast? = some c → Text.isBlank c = false ∧ c ≠ ';'

lemma IsMatchedType.isTypeLine {t : Text} (h : IsMatchedType t) : IsTypeLine t :=
  ⟨h.matched.newline, h.head, h.last⟩

lemma matched_of_isNameChar {within : Bool} {t : Text} (h : ∀ c ∈ t, Text.isNameChar c = true) :
    Matched within t := by
  refine matched_of_plain fun c hc => ⟨bracketStep_of_isNameChar (h c hc), ?_, ?_⟩
  · rintro rfl
    exact absurd (h _ hc) (by decide)
  · rintro rfl
    exact absurd (h _ hc) (by decide)

/-- Types without inline objects are matched. -/
lemma TypeShape.isMatchedType {t : Text} (h : TypeShape t) : IsMatchedType t := by
  refine ⟨?_, h.isType.isTypeLine.head, h.isType.isTypeLine.last⟩
  cases h with
  | fixed h =>
    have hrecord : Matched false "Record<string, any>" := by
      have hargument : Matched true "string, any" := matched_of_all (by decide)
      exact Matched.append (t := "Record") (matched_of_all (by decide)) (.group (by decide) hargument .nil)
    simp only [fixedTypes, List.mem_cons, List.not_mem_nil, or_false] at h
    rcases h with rfl | rfl | rfl | rfl
    · exact matched_of_all (by decide)
    · exact matched_of_all (by decide)
    · exact matched_of_all (by decide)
    · exact hrecord
  | name h => exact matched_of_isNameChar h.2
  | list h => exact (matched_of_isNameChar h.2).append (matched_of_all (by decide))

/-- The semicolons between the properties of an inline object stand within its braces. -/
lemma isMatchedType_braced {ts : List Text} (h : ∀ t ∈ ts, Matched false t) :
    IsMatchedType (Text.braced (Text.join "; " ts)) := by
  have hseparator : Matched true "; " :=
    .plain (by decide) (by decide) (fun _ => rfl) (.plain (by decide) (by decide) (fun _ => rfl) .nil)
  have hblank : Matched true [' '] := matched_of_all (by decide)
  have hinner := (hblank.append (matched_join hseparator fun t ht => (h t ht).inner)).append hblank
  have htext : Text.braced (Text.join "; " ts) =
      '{' :: (([' '] ++ Text.join "; " ts ++ [' ']) ++ '}' :: []) := by
    simp [Text.braced]
  refine ⟨htext ▸ .group (by decide) hinner .nil, ⟨_, _, rfl, by decide⟩, fun c hc => ?_⟩
  rw [Text.braced, List.getLast?_append_of_ne_nil _ (by simp)] at hc
  obtain rfl := Option.some.inj hc
  decide

lemma matched_line {name t : Text} (hname : ∀ c ∈ name, Text.isNameChar c = true) (isOptional : Bool)
    (ht : IsMatchedType t) : Matched false (propertyName isOptional name ++ ": " ++ t) := by
  have hmarker : Matched false (propertyName isOptional name) := by
    unfold propertyName
    split
    · exact (matched_of_isNameChar hname).append (matched_of_all (by decide))
    · exact matched_of_isNameChar hname
  exact (hmarker.append (matched_of_all (by decide))).append ht.matched

mutual

/-- **The brackets of a type match**, whatever is nested in it. -/
theorem isMatchedType_type : ∀ (scope : Text) (f : Field), (∀ c ∈ scope, Text.isAsciiWord c = true) →
    f.IsLegible → IsMatchedType (type scope f)
  | scope, ⟨name, isRequired, isOptional, kind, children⟩, hscope, h => by
    have hname : IsIdentifierText name := h.isIdentifierText
    have hchildren := matched_properties (Field.scopeOf name kind children) children
      (Field.isAsciiWord_scopeOf h.name_word kind children) h.children
    cases kind with
    | scalar s => exact (TypeShape.name (isName_scalarName s)).isMatchedType
    | unknown t => exact (TypeShape.name isName_string).isMatchedType
    | reference target => exact (TypeShape.fixed (t := referenceName) (by decide)).isMatchedType
    | enumeration values =>
      rw [type]
      split
      · exact (TypeShape.name isName_string).isMatchedType
      · exact (TypeShape.name (isName_enumTypeName (Text.isNameChar_of_forall_isAsciiWord hscope) hname)).isMatchedType
    | list item target =>
      rw [type]
      split
      · exact (TypeShape.list (isName_itemTypeName hname)).isMatchedType
      · exact (typeShape_listType item target).isMatchedType
    | record =>
      rw [type]
      split
      · exact (TypeShape.fixed (t := "Record<string, any>") (by decide)).isMatchedType
      · exact isMatchedType_braced hchildren
termination_by structural _ f => f

lemma matched_properties : ∀ (scope : Text) (fs : List Field), (∀ c ∈ scope, Text.isAsciiWord c = true) →
    (∀ f ∈ fs, f.IsLegible) → ∀ t ∈ properties scope fs, Matched false t
  | _, [], _, _, t, ht => absurd ht List.not_mem_nil
  | scope, f :: fs, hscope, h, t, ht => by
    have hf := isMatchedType_type scope f hscope (h f (by simp))
    have hfs := matched_properties scope fs hscope (fun g hg => h g (by simp [hg])) t
    rw [properties, List.mem_append] at ht
    rcases ht with ht | ht
    · split at ht
      · cases ht
      · obtain rfl := List.mem_singleton.1 ht
        exact matched_line (Text.isNameChar_of_forall_isAsciiWord (h f (by simp)).name_word) _ hf
    · exact hfs ht
termination_by structural _ fs => fs

end

end TypeScript

end Scaffold
