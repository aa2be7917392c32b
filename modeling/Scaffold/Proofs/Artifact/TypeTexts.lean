import Mathlib.Data.List.Basic
import Mathlib.Tactic.Common
import Scaffold.Proofs.Field.Tokens
import Scaffold.Proofs.Recovery.Properties
import Scaffold.Types.TypeScript

/-!
# What static types look like

The static type of a field that tokens stand for is one of a few fixed texts, a name, or a name
followed by brackets (`typeShape_of_isRead`).  Inline objects do not occur, so a type has no brace
and is one line.
-/

namespace Scaffold

/-- The names that fields and their declarations may have. -/
def Text.IsName (t : Text) : Prop := t ≠ [] ∧ ∀ c ∈ t, isNameChar c = true

namespace Text

variable {t u : Text}

lemma IsName.append (ht : IsName t) (hu : ∀ c ∈ u, isNameChar c = true) : IsName (t ++ u) := by
  refine ⟨List.append_ne_nil_of_left_ne_nil ht.1 _, fun c hc => ?_⟩
  rcases List.mem_append.1 hc with hc | hc
  · exact ht.2 c hc
  · exact hu c hc

/-- A first character in upper case is an ASCII letter where it was one, and unchanged elsewhere. -/
lemma upperChar_of_ascii {c : Char} (h : c.toNat < 128) :
    ∃ d, upperChar c = [d] ∧ (d = c ∨ isAsciiUpper d = true) := by
  rw [upperChar, if_pos h]
  by_cases hl : isAsciiLower c = true
  · rw [if_pos hl]
    refine ⟨_, rfl, .inr ?_⟩
    simp only [isAsciiLower, Bool.and_eq_true, decide_eq_true_eq] at hl
    have ha : 'a'.toNat = 97 := rfl
    have hz : 'z'.toNat = 122 := rfl
    have hvalid : (c.toNat - 32).isValidChar := .inl (by omega)
    simp only [isAsciiUpper, toNat_ofNat hvalid, Bool.and_eq_true, decide_eq_true_eq]
    have hA : 'A'.toNat = 65 := rfl
    have hZ : 'Z'.toNat = 90 := rfl
    omega
  · rw [if_neg hl]
    exact ⟨c, rfl, .inl rfl⟩

lemma isIdentifierRest_capitalizeFirst (h : ∀ c ∈ t, isIdentifierRest c = true) :
    ∀ c ∈ capitalizeFirst t, isIdentifierRest c = true := by
  cases t with
  | nil => exact h
  | cons d t =>
    intro c hc
    obtain ⟨e, he, hcases⟩ := upperChar_of_ascii (toNat_lt_of_isIdentifierRest (h d (by simp)))
    rw [capitalizeFirst, he] at hc
    rcases List.mem_cons.1 hc with rfl | hc
    · rcases hcases with rfl | hu
      · exact h _ (by simp)
      · simp [isIdentifierRest, isIdentifierStart, hu]
    · exact h c (by simp at hc; simp [hc])

lemma capitalizeFirst_ne_nil (h : ∀ c ∈ t, isIdentifierRest c = true) (hne : t ≠ []) :
    capitalizeFirst t ≠ [] := by
  obtain ⟨d, u, rfl⟩ := List.exists_cons_of_ne_nil hne
  obtain ⟨e, he, -⟩ := upperChar_of_ascii (toNat_lt_of_isIdentifierRest (h d (by simp)))
  rw [capitalizeFirst, he]
  exact List.cons_ne_nil _ _

lemma isName_capitalizeFirst (h : ∀ c ∈ t, isIdentifierRest c = true) (hne : t ≠ []) :
    IsName (capitalizeFirst t) :=
  ⟨capitalizeFirst_ne_nil h hne, fun c hc =>
    isNameChar_of_isIdentifierRest (isIdentifierRest_capitalizeFirst h c hc)⟩

/-- No dollar sign comes or goes with the upper case. -/
lemma isAsciiWord_capitalizeFirst (h : ∀ c ∈ t, isAsciiWord c = true) :
    ∀ c ∈ capitalizeFirst t, isAsciiWord c = true := by
  cases t with
  | nil => exact h
  | cons d t =>
    intro c hc
    have hd := isIdentifierRest_of_isAsciiWord (h d (by simp))
    obtain ⟨e, he, hcases⟩ := upperChar_of_ascii (toNat_lt_of_isIdentifierRest hd)
    rw [capitalizeFirst, he] at hc
    rcases List.mem_cons.1 hc with rfl | hc
    · rcases hcases with rfl | hu
      · exact h _ (by simp)
      · simp [isAsciiWord, isAsciiAlnum, hu]
    · exact h c (by simp at hc; simp [hc])

end Text

/-! ## Shapes -/

namespace TypeScript

/-- The type texts that are not made from names. -/
def fixedTypes : List Text := ["Types.ObjectId", "Types.ObjectId[]", "any[]", "Record<string, any>"]

/-- The shapes of type texts without inline objects. -/
inductive TypeShape : Text → Prop
  | fixed {t : Text} : t ∈ fixedTypes → TypeShape t
  | name {t : Text} : Text.IsName t → TypeShape t
  | list {t : Text} : Text.IsName t → TypeShape (t ++ "[]")

lemma isName_scalarName (s : Scalar) : Text.IsName (scalarName s) := by
  cases s <;> exact ⟨by decide, Text.forall_mem_of_all (by decide)⟩

lemma isName_string : Text.IsName "string" := isName_scalarName .string

lemma typeShape_itemName_list (tag : Text) : TypeShape (itemName tag ++ "[]") := by
  unfold itemName
  split
  · exact .list (isName_scalarName _)
  · split
    · exact .fixed (by decide)
    · exact .list isName_string

lemma typeShape_listType (item target : Option Text) : TypeShape (listType item target) := by
  unfold listType
  split
  · split
    · exact .fixed (by decide)
    · exact .fixed (by decide)
  · split
    · exact .fixed (by decide)
    · exact .fixed (by decide)
  · exact typeShape_itemName_list _

/-- A name of ASCII letters, digits, underscores and dollar signs. -/
def IsIdentifierText (t : Text) : Prop := t ≠ [] ∧ ∀ c ∈ t, Text.isIdentifierRest c = true

variable {scope name : Text} {f : Field}

lemma isName_enumTypeName (hscope : ∀ c ∈ scope, Text.isNameChar c = true)
    (hname : IsIdentifierText name) : Text.IsName (Field.enumTypeName scope name) := by
  have hcap := Text.isName_capitalizeFirst hname.2 hname.1
  have hend : ∀ c ∈ "Enum".toList, Text.isNameChar c = true := Text.forall_mem_of_all (by decide)
  refine ⟨List.append_ne_nil_of_right_ne_nil _ (by decide), fun c hc => ?_⟩
  simp only [Field.enumTypeName, List.mem_append] at hc
  rcases hc with (hc | hc) | hc
  · exact hscope c hc
  · exact hcap.2 c hc
  · exact hend c hc

lemma isName_itemTypeName (hname : IsIdentifierText name) :
    Text.IsName (Field.itemTypeNameOf name) :=
  (Text.isName_capitalizeFirst hname.2 hname.1).append (Text.forall_mem_of_all (by decide))

lemma typeShape_of_isLeaf {kind : Kind} (hkind : kind.IsLeaf)
    (hscope : ∀ c ∈ scope, Text.isNameChar c = true) (hname : IsIdentifierText name)
    (isRequired isOptional : Bool) : TypeShape (type scope ⟨name, isRequired, isOptional, kind, []⟩) := by
  cases hkind with
  | scalar s =>
    rw [type]
    exact .name (isName_scalarName s)
  | unknown t =>
    rw [type]
    exact .name isName_string
  | enumeration values =>
    rw [type]
    split
    · exact .name isName_string
    · exact .name (isName_enumTypeName hscope hname)
  | reference =>
    rw [type]
    exact .fixed (by decide)
  | list =>
    have hnot : Field.structured (.list none none) [] = false := rfl
    rw [type, hnot]
    exact typeShape_listType none none
  | record =>
    rw [type]
    exact .fixed (t := "Record<string, any>") (by decide)

lemma typeShape_of_isReadNested (h : f.IsReadNested) (hscope : ∀ c ∈ scope, Text.isNameChar c = true)
    (hname : IsIdentifierText f.name) : TypeShape (type scope f) := by
  obtain ⟨name, isRequired, isOptional, kind, children⟩ := f
  obtain rfl : children = [] := h.children
  exact typeShape_of_isLeaf h.kind hscope hname _ _

theorem typeShape_of_isRead (h : f.IsRead) (hscope : ∀ c ∈ scope, Text.isNameChar c = true)
    (hname : IsIdentifierText f.name) : TypeShape (type scope f) := by
  obtain ⟨name, isRequired, isOptional, kind, children⟩ := f
  by_cases hchildren : children = []
  · subst hchildren
    have hkind : kind.IsProper := h.kind
    cases hkind with
    | leaf hkind => exact typeShape_of_isLeaf hkind hscope hname _ _
    | reference t ht =>
      rw [type]
      exact .fixed (by decide)
    | list item target hitem htarget =>
      rw [type, Field.structured_nil]
      exact typeShape_listType item target
  · obtain rfl : kind = .list none (some objectTag) := h.objects hchildren
    have hstructured : Field.structured (.list none (some objectTag)) children = true := by
      have hobject : Field.targetsObject (some objectTag) = true := by decide
      simp [Field.structured, hobject, hchildren]
    rw [type, if_pos hstructured]
    exact .list (isName_itemTypeName hname)

/-! ## Types on one line -/

lemma TypeShape.isType {t : Text} (h : TypeShape t) : Recovery.IsType t := by
  have hname : ∀ {u : Text}, Text.IsName u → Recovery.IsType u := by
    intro u hu
    obtain ⟨c, v, rfl⟩ := List.exists_cons_of_ne_nil hu.1
    exact ⟨Text.not_mem_of_isNameChar hu.2 (by decide), Text.not_mem_of_isNameChar hu.2 (by decide),
      Recovery.net_of_isNameChar hu.2,
      ⟨c, v, rfl, Text.isBlank_eq_false_of_isNameChar (hu.2 c (by simp))⟩,
      fun d hd => Text.isBlank_eq_false_of_isNameChar (hu.2 d (List.mem_of_getLast? hd))⟩
  cases h with
  | fixed h =>
    have hfixed : t ∈ fixedTypes := h
    simp only [fixedTypes, List.mem_cons, List.not_mem_nil, or_false] at hfixed
    rcases hfixed with rfl | rfl | rfl | rfl
    all_goals
      refine ⟨by decide, by decide, by decide, ⟨_, _, rfl, by decide⟩, fun d hd => ?_⟩
      obtain rfl := Option.some.inj hd
      decide
  | name h => exact hname h
  | list h =>
    rename_i u
    obtain ⟨hsemi, hline, hnet, ⟨c, v, rfl, hc⟩, -⟩ := hname h
    refine ⟨?_, ?_, ?_, ⟨c, v ++ "[]", rfl, hc⟩, ?_⟩
    · rw [List.mem_append, not_or]
      exact ⟨hsemi, by decide⟩
    · rw [List.mem_append, not_or]
      exact ⟨hline, by decide⟩
    · rw [Recovery.net_append, hnet]
      rfl
    · intro d hd
      rw [List.getLast?_append_of_ne_nil _ (by decide)] at hd
      have : d = ']' := by
        have hlast : "[]".toList.getLast? = some ']' := rfl
        rw [hlast] at hd
        exact (Option.some.inj hd).symm
      rw [this]
      rfl

/-- The characters of type texts. -/
lemma TypeShape.mem {t : Text} (h : TypeShape t) {c : Char} (hc : c ∈ t) :
    Text.isNameChar c = true ∨ c ∈ "[]<>, .".toList := by
  cases h with
  | fixed h =>
    have hall : ∀ u ∈ fixedTypes, ∀ c ∈ u, Text.isNameChar c = true ∨ c ∈ "[]<>, .".toList := by
      intro u hu
      simp only [fixedTypes, List.mem_cons, List.not_mem_nil, or_false] at hu
      rcases hu with rfl | rfl | rfl | rfl
      all_goals exact Text.forall_mem_of_all (by decide)
    exact hall t h c hc
  | name h => exact .inl (h.2 c hc)
  | list h =>
    rcases List.mem_append.1 hc with hc | hc
    · exact .inl (h.2 c hc)
    · have hall : ∀ c ∈ "[]".toList, c ∈ "[]<>, .".toList := Text.forall_mem_of_all (by decide)
      exact .inr (hall c hc)

end TypeScript

end Scaffold
