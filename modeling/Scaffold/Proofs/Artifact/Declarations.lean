import Mathlib.Data.List.Basic
import Mathlib.Tactic.Common
import Scaffold.Artifact.Interface
import Scaffold.Proofs.Artifact.TypeTexts
import Scaffold.Proofs.Recovery.Enumerations
import Scaffold.Proofs.Table

/-!
# The interface file as a sequence of blocks

The interface file is an import, a sequence of declarations, and the type of the model
(`file_eq`).  No declaration has a brace inside, as long as no value of an enumeration has one
(`isFlat_of_mem_declarations`).
-/

namespace Scaffold

namespace Text

/-- Lines as a text, where the last line is empty. -/
lemma lines_append_nil (ls : List Text) : lines (ls ++ [[]]) = ls.flatMap fun l => l ++ ['\n'] := by
  induction ls with
  | nil => rfl
  | cons l ls ih =>
    obtain ⟨m, ms, hms⟩ := List.exists_cons_of_ne_nil
      (List.append_ne_nil_of_right_ne_nil ls (List.cons_ne_nil ([] : Text) []))
    rw [List.cons_append, hms, lines, join_cons_cons, ← hms, ← lines, ih, List.flatMap_cons]

end Text

namespace Recovery

/-- A block with one line for every member. -/
def Block.ofLines (kind : DeclarationKind) (name : Text) (ls : List Text) : Block :=
  ⟨kind, name, '\n' :: ls.flatMap fun l => l ++ ['\n']⟩

lemma Block.text_ofLines (kind : DeclarationKind) (name : Text) (ls : List Text) :
    (Block.ofLines kind name ls).text =
      (Code.block ("export " ++ kind.keyword ++ ' ' :: name) ls).flatMap fun l => l ++ ['\n'] := by
  unfold Code.block Code.opening Code.rb ofLines text core
  generalize "export ".toList = start
  simp only [List.flatMap_cons, List.flatMap_append, List.flatMap_nil, List.append_assoc,
    List.cons_append, List.nil_append]

end Recovery

namespace Interface

open Recovery

/-! ## Declarations -/

/-- The line of a field in an interface. -/
def propertyLine (scope : Text) (f : Field) : Text :=
  Code.indent 2 (TypeScript.property scope f ++ [';'])

/-- The interface of the items of a list of objects. -/
def itemDeclaration (f : Field) : Block :=
  .ofLines .interface f.itemTypeName (propertyLines f.scope f.children)

/-- The declaration of an enumeration. -/
def enumDeclaration (declared : Text × List Text) : Block :=
  .ofLines .enumeration declared.1 ((Members.ofValues declared.2).map memberLine)

/-- The interface of the filters, if there are any. -/
def filterDeclarations (b : Blueprint) : List Block :=
  match b.filterable with
  | [] => []
  | f :: fs => [.ofLines .interface ('I' :: b.names.className ++ "Filterables")
      (Code.indent 2 "searchTerm?: string;" ::
        (f :: fs).map fun f => propertyLine [] { f with isOptional := true })]

/-- The interface of the document. -/
def documentDeclaration (b : Blueprint) : Block :=
  .ofLines .interface ('I' :: b.names.className)
    (Code.indent 2 "_id: Types.ObjectId;" ::
      match b.fields with
      | [] => [Code.indent 2 "// Define interface properties here"]
      | f :: fs => (f :: fs).map (propertyLine []))

/-- The declarations of an interface file. -/
def declarations (b : Blueprint) : List Block :=
  (Field.nested b.fields).map itemDeclaration ++ (enums b.fields).map enumDeclaration ++
    filterDeclarations b ++ [documentDeclaration b]

/-- What stands before the declarations. -/
def opening : Text := Code.importNames ["Model", "Types"] "mongoose" ++ ['\n', '\n']

/-- The type of the model, which stands behind the declarations. -/
def modelType (n : Names) : Text :=
  "export type " ++ n.className ++ "Model = Model<I" ++ n.className ++ ", " ++ Code.lb ++ Code.rb ++
    ", " ++ Code.lb ++ Code.rb ++ ">;"

lemma lines_itemBlock (f : Field) :
    (itemBlock f).flatMap (fun l => l ++ ['\n']) = (itemDeclaration f).text := by
  rw [itemDeclaration, Block.text_ofLines]
  rfl

lemma lines_enumBlock (declared : Text × List Text) :
    (enumBlock declared).flatMap (fun l => l ++ ['\n']) = (enumDeclaration declared).text := by
  rw [enumDeclaration, Block.text_ofLines]
  rfl

lemma lines_filterBlock (b : Blueprint) :
    (filterBlock b).flatMap (fun l => l ++ ['\n']) = (filterDeclarations b).flatMap Block.text := by
  unfold filterBlock filterDeclarations
  cases b.filterable with
  | nil => rfl
  | cons f fs =>
    simp only [List.flatMap_cons, List.flatMap_nil, List.append_nil]
    rw [Block.text_ofLines]
    rfl

lemma lines_documentBlock (b : Blueprint) :
    (documentBlock b).flatMap (fun l => l ++ ['\n']) = (documentDeclaration b).text := by
  rw [documentDeclaration, Block.text_ofLines]
  rfl

/-- **The interface file** is a sequence of declarations between an import and the type of the
model. -/
theorem file_eq (b : Blueprint) :
    file b = opening ++ ((declarations b).flatMap Block.text ++ (modelType b.names ++ ['\n'])) := by
  have hlines : fileLines b = ([Code.importNames ["Model", "Types"] "mongoose", []] ++
      (Field.nested b.fields).flatMap itemBlock ++ (enums b.fields).flatMap enumBlock ++
      filterBlock b ++ documentBlock b ++ [modelType b.names]) ++ [[]] := by
    unfold fileLines modelType
    simp only [List.append_assoc]
    rfl
  have hitems : ((Field.nested b.fields).flatMap itemBlock).flatMap (fun l => l ++ ['\n']) =
      ((Field.nested b.fields).map itemDeclaration).flatMap Block.text := by
    rw [List.flatMap_assoc, List.flatMap_map]
    simp only [lines_itemBlock]
  have henums : ((enums b.fields).flatMap enumBlock).flatMap (fun l => l ++ ['\n']) =
      ((enums b.fields).map enumDeclaration).flatMap Block.text := by
    rw [List.flatMap_assoc, List.flatMap_map]
    simp only [lines_enumBlock]
  rw [file, hlines, Text.lines_append_nil]
  simp only [List.flatMap_append, hitems, henums, lines_filterBlock, lines_documentBlock, declarations,
    List.flatMap_cons, List.flatMap_nil, List.append_nil, List.append_assoc, opening]
  rfl

/-- The declarations of enumerations. -/
lemma filter_enumeration (b : Blueprint) :
    (declarations b).filter (fun d => d.kind = .enumeration) = (enums b.fields).map enumDeclaration := by
  have hitems : ((Field.nested b.fields).map itemDeclaration).filter (fun d => d.kind = .enumeration) = [] :=
    List.filter_eq_nil_iff.2 fun d hd => by
      obtain ⟨f, -, rfl⟩ := List.mem_map.1 hd
      exact Bool.false_ne_true
  have henums : ((enums b.fields).map enumDeclaration).filter (fun d => d.kind = .enumeration) =
      (enums b.fields).map enumDeclaration :=
    List.filter_eq_self.2 fun d hd => by
      obtain ⟨e, -, rfl⟩ := List.mem_map.1 hd
      rfl
  have hfilters : (filterDeclarations b).filter (fun d => d.kind = .enumeration) = [] := by
    unfold filterDeclarations
    split <;> rfl
  rw [declarations, List.filter_append, List.filter_append, List.filter_append, hitems, henums, hfilters,
    List.nil_append, List.append_nil]
  exact List.append_nil _

/-! ## Enumerations -/

/-- The enumeration that a field declares in a scope. -/
def enumAt (scope : Text) (f : Field) : List (Text × List Text) :=
  if f.hasValues then [(Field.enumTypeName scope f.name, f.values)] else []

/-- The enumerations at a field and directly below it. -/
def enumsAt (f : Field) : List (Text × List Text) :=
  f.children.flatMap (enumAt f.scope) ++ enumAt [] f

lemma enumsIn_eq (scope name : Text) (isRequired isOptional : Bool) (kind : Kind)
    (children : List Field) :
    enumsIn scope ⟨name, isRequired, isOptional, kind, children⟩ =
      enumsAmong (Field.scopeOf name kind children) children ++
        enumAt scope ⟨name, isRequired, isOptional, kind, children⟩ := by
  by_cases h : ∃ v vs, kind = .enumeration (some (v :: vs))
  · obtain ⟨v, vs, rfl⟩ := h
    rw [enumsIn]
    rfl
  · push Not at h
    have hvalues : (⟨name, isRequired, isOptional, kind, children⟩ : Field).values = [] := by
      unfold Field.values
      split
      · rename_i vs hkind
        cases vs with
        | nil => rfl
        | cons v vs => exact absurd hkind (h v vs)
      · rfl
    have hnone : enumAt scope ⟨name, isRequired, isOptional, kind, children⟩ = [] := by
      rw [enumAt, Field.hasValues, hvalues]
      rfl
    rw [enumsIn, hnone]
    exact h

lemma enumsAmong_of_leaves (scope : Text) {fs : List Field} (h : ∀ f ∈ fs, f.children = []) :
    enumsAmong scope fs = fs.flatMap (enumAt scope) := by
  induction fs with
  | nil => rfl
  | cons f fs ih =>
    obtain ⟨name, isRequired, isOptional, kind, children⟩ := f
    obtain rfl : children = [] := h _ (List.mem_cons_self ..)
    rw [enumsAmong, enumsIn_eq, enumsAmong, ih fun f hf => h f (by simp [hf]), List.flatMap_cons,
      List.nil_append]

lemma enumsAmong_of_isRead {fs : List Field} (h : ∀ f ∈ fs, f.IsRead) :
    enumsAmong [] fs = fs.flatMap enumsAt := by
  induction fs with
  | nil => rfl
  | cons f fs ih =>
    have hleaves : ∀ c ∈ f.children, c.children = [] := fun c hc =>
      ((h f (by simp)).children c hc).children
    obtain ⟨name, isRequired, isOptional, kind, children⟩ := f
    rw [enumsAmong, enumsIn_eq, enumsAmong_of_leaves _ hleaves, ih fun f hf => h f (by simp [hf]),
      List.flatMap_cons]
    rfl

lemma mem_putNew {α β : Type} [DecidableEq α] {key : α} {value : β} {t : List (α × β)} {e : α × β}
    (h : e ∈ Table.putNew key value t) : e ∈ t ∨ e = (key, value) := by
  unfold Table.putNew at h
  split at h
  · exact .inl h
  · rcases List.mem_append.1 h with h | h
    · exact .inl h
    · exact .inr (List.mem_singleton.1 h)

lemma mem_foldl_putNew {es t : List (Text × List Text)} {e : Text × List Text}
    (h : e ∈ es.foldl (fun t e => Table.putNew e.1 e.2 t) t) : e ∈ t ∨ e ∈ es := by
  induction es generalizing t with
  | nil => exact .inl h
  | cons d es ih =>
    rcases ih h with h | h
    · rcases mem_putNew h with h | rfl
      · exact .inl h
      · exact .inr (List.mem_cons_self ..)
    · exact .inr (List.mem_cons_of_mem _ h)

/-- What is declared is declared for a field. -/
lemma mem_enums {fs : List Field} {e : Text × List Text} (h : e ∈ enums fs) :
    e ∈ enumsAmong [] fs :=
  (mem_foldl_putNew h).resolve_left (List.not_mem_nil)

/-- Enumerations with distinct names are all declared. -/
lemma foldl_putNew_of_nodup {es t : List (Text × List Text)}
    (h : (Table.keys (t ++ es)).Nodup) : es.foldl (fun t e => Table.putNew e.1 e.2 t) t = t ++ es := by
  induction es generalizing t with
  | nil => simp
  | cons e es ih =>
    have hnew : Table.find? e.1 t = none := by
      apply Table.find?_eq_none_of_not_mem
      intro hmem
      rw [Table.keys, List.map_append, List.map_cons, List.nodup_append] at h
      exact h.2.2 e.1 hmem e.1 (by simp) rfl
    rw [List.foldl_cons, Table.putNew, hnew]
    rw [List.append_cons] at h
    simp only
    rw [ih h, List.append_assoc, List.singleton_append]

lemma enums_of_nodup {fs : List Field} (h : (Table.keys (enumsAmong [] fs)).Nodup) :
    enums fs = enumsAmong [] fs :=
  foldl_putNew_of_nodup (by rwa [List.nil_append])

end Interface

end Scaffold
