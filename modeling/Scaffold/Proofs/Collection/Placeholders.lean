import Scaffold.Collection.Build
import Scaffold.Proofs.Field.Nesting
import Scaffold.Proofs.Table
import Scaffold.Proofs.Text.Occurrences

/-!
# Placeholders and the script that sets them

The body of a sample request and the script that runs before it are two recursions over the same
fields.  Both end at the same leaves (`leaves`): the texts in the body are the placeholders of their
variables (`holdsText_entries_iff`), and the script is a row of blocks, one for each leaf
(`script_eq_flatMap_leaves`).

The two do not agree on the kinds.  Every leaf has a placeholder, but a reference and a field with a
tag outside of the vocabulary have an empty block, so their placeholders are sent as they stand, unless
another leaf sets the same variable (`isFilled_iff_isCovered`).
-/

namespace Scaffold

namespace Json

variable {v : Json} {members : Members} {items : List Json} {t : Text}

/-- A value holds a text somewhere, not counting the names of members. -/
inductive HoldsText : Json → Text → Prop where
  | here (t : Text) : HoldsText (.str t) t
  | member {members : Members} {key t : Text} {v : Json} :
    (key, v) ∈ members → HoldsText v t → HoldsText (.obj members) t
  | item {items : List Json} {t : Text} {v : Json} :
    v ∈ items → HoldsText v t → HoldsText (.arr items) t

@[simp] lemma holdsText_str {u : Text} : HoldsText (.str u) t ↔ t = u := by
  constructor
  · intro h
    cases h
    rfl
  · rintro rfl
    exact .here t

lemma holdsText_obj : HoldsText (.obj members) t ↔ ∃ m ∈ members, HoldsText m.2 t := by
  constructor
  · intro h
    cases h with
    | member hmem h => exact ⟨_, hmem, h⟩
  · rintro ⟨m, hmem, h⟩
    exact .member hmem h

lemma holdsText_arr : HoldsText (.arr items) t ↔ ∃ v ∈ items, HoldsText v t := by
  constructor
  · intro h
    cases h with
    | item hmem h => exact ⟨_, hmem, h⟩
  · rintro ⟨v, hmem, h⟩
    exact .item hmem h

end Json

namespace Sample

variable {owner v : Text} {fields : List Field} {l : Leaf} {t : Text}

/-! ## Leaves -/

/-- A value that is neither an object nor a list: its variable, the name and the kind of its field. -/
structure Leaf where
  variableName : Text
  name : Text
  kind : Kind
  deriving DecidableEq

/-- Whether the script knows how to set a value of a kind. -/
def isSet : Kind → Bool
  | .scalar _ | .enumeration _ => true
  | _ => false

/-- The lines that set the variable of a leaf. -/
def Leaf.lines (l : Leaf) : List Text :=
  match l.kind with
  | .scalar s => [assignment l.variableName (scalarExpression l.name s)]
  | .enumeration values => choiceLines l.variableName (values.getD [])
  | _ => []

mutual

/-- The leaves of a field. -/
def leavesIn (owner : Text) : Field → List Leaf
  | ⟨name, _, _, kind, children⟩ =>
    match kind with
    | .record => leaves (variableName owner name) children
    | .list _ _ =>
      if Field.structured kind children then leaves (variableName owner name) children else []
    | kind => [⟨variableName owner name, name, kind⟩]
termination_by structural f => f

/-- The leaves of the visible fields. -/
def leaves (owner : Text) : List Field → List Leaf
  | [] => []
  | f :: fs => (if Field.isIdentity f.name then [] else leavesIn owner f) ++ leaves owner fs
termination_by structural fs => fs

end

/-! ## Placeholders -/

lemma placeholder_injective {a b : Text} (h : placeholder a = placeholder b) : a = b :=
  List.append_cancel_right (List.cons.inj (List.cons.inj h).2).2

lemma entries_eq_map (owner : Text) (fields : List Field) :
    entries owner fields = (Field.visible fields).map fun f => (f.name, value owner f) := by
  induction fields with
  | nil => rfl
  | cons f fields ih => rw [entries, ih, Field.map_visible_cons]

/-- With distinct names, the members of an object hold the texts of all entries. -/
lemma holdsText_ofEntries (h : Field.AreDistinct fields) :
    Json.HoldsText (.obj (Table.ofEntries (entries owner fields))) t ↔
      ∃ e ∈ entries owner fields, Json.HoldsText e.2 t := by
  have hkeys : (Table.keys (entries owner fields)).Nodup := by
    rw [entries_eq_map]
    exact h.nodup_keys_visible (value owner)
  rw [Table.ofEntries_of_nodup hkeys, Json.holdsText_obj]

mutual

/-- **The texts in a sample value** are the placeholders of its leaves. -/
lemma holdsText_value_iff (owner : Text) : ∀ f : Field, Field.AreDistinct f.children →
    (Json.HoldsText (value owner f) t ↔ ∃ l ∈ leavesIn owner f, t = placeholder l.variableName)
  | ⟨name, isRequired, isOptional, kind, children⟩, hdistinct => by
    have hchildren := (holdsText_ofEntries hdistinct).trans
      (holdsText_entries_iff (variableName owner name) children hdistinct)
    rw [value.eq_def, leavesIn.eq_def]
    cases kind with
    | record => exact hchildren
    | list item target =>
      simp only
      split
      · simpa only [Json.holdsText_arr, List.mem_singleton, exists_eq_left] using hchildren
      · simp [Json.holdsText_arr]
    | _ => simp
termination_by structural f => f

/-- The texts in sample values are the placeholders of the leaves of their fields. -/
lemma holdsText_entries_iff (owner : Text) : ∀ fields : List Field, Field.AreDistinct fields →
    ((∃ e ∈ entries owner fields, Json.HoldsText e.2 t) ↔
      ∃ l ∈ leaves owner fields, t = placeholder l.variableName)
  | [], _ => by simp [entries, leaves]
  | f :: fs, hdistinct => by
    have hf := holdsText_value_iff owner f (hdistinct.children f List.mem_cons_self)
    have hfs := holdsText_entries_iff owner fs hdistinct.tail
    rw [entries, leaves]
    split
    · exact hfs
    · simp only [List.singleton_append, List.exists_mem_cons_iff, List.mem_append, or_and_right, exists_or,
        hf, hfs]
termination_by structural fs => fs

end

/-- **The placeholders of a body** are those of the leaves of its fields. -/
lemma holdsText_body_iff (hdistinct : Field.AreDistinct fields) :
    Json.HoldsText (.obj (body owner fields)) (placeholder v) ↔
      ∃ l ∈ leaves owner fields, l.variableName = v := by
  rw [body, holdsText_ofEntries hdistinct, holdsText_entries_iff owner fields hdistinct]
  refine exists_congr fun l => and_congr_right fun _ => ⟨fun h => (placeholder_injective h).symm, ?_⟩
  rintro rfl
  rfl

/-- A sample update shows part of the sample of a new document. -/
lemma holdsText_body_of_updateBody (h : Json.HoldsText (.obj (updateBody fields)) t) :
    Json.HoldsText (.obj (body [] fields)) t := by
  obtain ⟨m, hmem, h⟩ := Json.holdsText_obj.1 h
  exact .member (List.mem_of_mem_take hmem) h

/-! ## Assignments -/

mutual

/-- The script of a field sets its leaves, one after the other. -/
lemma fieldScript_eq_flatMap_leavesIn (owner : Text) :
    ∀ f : Field, fieldScript owner f = (leavesIn owner f).flatMap Leaf.lines
  | ⟨name, isRequired, isOptional, kind, children⟩ => by
    have hchildren := script_eq_flatMap_leaves (variableName owner name) children
    rw [fieldScript.eq_def, leavesIn.eq_def]
    cases kind with
    | record => exact hchildren
    | list item target =>
      simp only
      split
      · exact hchildren
      · rfl
    | _ => simp [Leaf.lines]
termination_by structural f => f

/-- **The script sets the leaves** of the fields, one after the other. -/
lemma script_eq_flatMap_leaves (owner : Text) :
    ∀ fields : List Field, script owner fields = (leaves owner fields).flatMap Leaf.lines
  | [] => rfl
  | f :: fs => by
    have hf := fieldScript_eq_flatMap_leavesIn owner f
    have hfs := script_eq_flatMap_leaves owner fs
    rw [script, leaves, List.flatMap_append, ← hfs]
    split
    · rfl
    · rw [hf]
termination_by structural fs => fs

end

/-- A script has a line that sets a variable. -/
def Assigns (lines : List Text) (v : Text) : Prop := ∃ e, assignment v e ∈ lines

/-- How a line that sets a variable begins. -/
lemma assignment_eq (v e : Text) :
    assignment v e = "pm.variables.set(\"".toList ++ (v ++ '"' :: (", ".toList ++ e ++ ");".toList)) := by
  have hquote : "\", ".toList = '"' :: ", ".toList := rfl
  unfold assignment
  rw [hquote]
  simp only [List.append_assoc, List.cons_append]

lemma eq_of_append_cons_eq {c : Char} {a b x y : Text} (ha : c ∉ a) (hb : c ∉ b)
    (h : a ++ c :: x = b ++ c :: y) : a = b := by
  have hfirst : ∀ {u : Text} (w : Text), c ∉ u → (u ++ c :: w).takeWhile (fun d => d != c) = u := fun w hu =>
    (Text.takeWhile_append_cons (Text.forall_bne_of_not_mem hu) (by simp) w).1
  rw [← hfirst x ha, h, hfirst y hb]

/-- The first quotation mark after the opening one ends the name of the variable. -/
lemma eq_of_assignment_eq {a b e e' : Text} (ha : '"' ∉ a) (hb : '"' ∉ b)
    (h : assignment a e = assignment b e') : a = b := by
  rw [assignment_eq, assignment_eq] at h
  exact eq_of_append_cons_eq ha hb (List.append_cancel_left h)

/-- A line that declares the values of an enumeration sets no variable. -/
lemma assignment_ne_declaration (v e rest : Text) : assignment v e ≠ "const ".toList ++ rest := by
  rw [assignment_eq]
  intro h
  have hhead := congrArg List.head? h
  rw [List.head?_append_of_ne_nil _ (by decide), List.head?_append_of_ne_nil _ (by decide)] at hhead
  exact absurd hhead (by decide)

lemma assigns_choiceLines (name : Text) : ∀ values, Assigns (choiceLines name values) name
  | [] => ⟨_, List.mem_singleton_self _⟩
  | _ :: _ => ⟨_, List.mem_cons_of_mem _ (List.mem_singleton_self _)⟩

lemma eq_of_assigns_choiceLines {name : Text} (hv : '"' ∉ v) (hname : '"' ∉ name) :
    ∀ values, Assigns (choiceLines name values) v → name = v
  | [], ⟨_, h⟩ => (eq_of_assignment_eq hv hname (List.mem_singleton.1 h)).symm
  | u :: us, ⟨e, h⟩ => by
    rcases List.mem_cons.1 h with h | h
    · simp only [List.append_assoc] at h
      exact absurd h (assignment_ne_declaration v e _)
    · exact (eq_of_assignment_eq hv hname (List.mem_singleton.1 h)).symm

/-- A leaf of a kind that the script knows is set. -/
lemma Leaf.assigns_lines (h : isSet l.kind = true) : Assigns l.lines l.variableName := by
  obtain ⟨key, name, kind⟩ := l
  cases kind with
  | scalar s => exact ⟨_, List.mem_singleton_self _⟩
  | enumeration values => exact assigns_choiceLines key _
  | _ => cases h

/-- Without quotation marks in the names, the lines of a leaf set no other variable. -/
lemma Leaf.of_assigns_lines (hv : '"' ∉ v) (hl : '"' ∉ l.variableName) (h : Assigns l.lines v) :
    isSet l.kind = true ∧ l.variableName = v := by
  obtain ⟨key, name, kind⟩ := l
  cases kind with
  | scalar s =>
    obtain ⟨e, h⟩ := h
    exact ⟨rfl, (eq_of_assignment_eq hv hl (List.mem_singleton.1 h)).symm⟩
  | enumeration values => exact ⟨rfl, eq_of_assigns_choiceLines hv hl _ h⟩
  | _ =>
    obtain ⟨e, h⟩ := h
    cases h

/-! ## Filled requests -/

/-- Every placeholder in the bodies of the requests of a module is set by the script before them. -/
def IsFilled (fields : List Field) : Prop :=
  ∀ members ∈ [body [] fields, updateBody fields], ∀ v,
    Json.HoldsText (.obj members) (placeholder v) → Assigns (script [] fields) v

/-- Every leaf has the variable of a leaf that the script knows how to set. -/
def IsCovered (fields : List Field) : Prop :=
  ∀ l ∈ leaves [] fields, ∃ other ∈ leaves [] fields,
    isSet other.kind = true ∧ other.variableName = l.variableName

lemma assigns_script_of_mem (hl : l ∈ leaves owner fields) (hset : isSet l.kind = true) :
    Assigns (script owner fields) l.variableName := by
  obtain ⟨e, he⟩ := Leaf.assigns_lines hset
  exact ⟨e, by rw [script_eq_flatMap_leaves]; exact List.mem_flatMap.2 ⟨l, hl, he⟩⟩

lemma exists_of_assigns_script (hquote : ∀ l ∈ leaves owner fields, '"' ∉ l.variableName) (hv : '"' ∉ v)
    (h : Assigns (script owner fields) v) :
    ∃ l ∈ leaves owner fields, isSet l.kind = true ∧ l.variableName = v := by
  obtain ⟨e, he⟩ := h
  rw [script_eq_flatMap_leaves] at he
  obtain ⟨l, hl, he⟩ := List.mem_flatMap.1 he
  exact ⟨l, hl, Leaf.of_assigns_lines hv (hquote l hl) ⟨e, he⟩⟩

/-- **Which requests are filled**: with distinct names at every depth, those whose references and fields
of unknown tags share their variables with fields that the script sets.  Names with quotation marks are
left out of the converse, because a line for one of them can read like a line for another. -/
theorem isFilled_iff_isCovered (hdistinct : Field.AreDistinct fields) :
    (IsCovered fields → IsFilled fields) ∧
      ((∀ l ∈ leaves [] fields, '"' ∉ l.variableName) → IsFilled fields → IsCovered fields) := by
  constructor
  · intro hcovered members hmembers v hholds
    have hbody : Json.HoldsText (.obj (body [] fields)) (placeholder v) := by
      simp only [List.mem_cons, List.not_mem_nil, or_false] at hmembers
      rcases hmembers with rfl | rfl
      · exact hholds
      · exact holdsText_body_of_updateBody hholds
    obtain ⟨l, hl, rfl⟩ := (holdsText_body_iff hdistinct).1 hbody
    obtain ⟨other, hother, hset, hname⟩ := hcovered l hl
    exact hname ▸ assigns_script_of_mem hother hset
  · intro hquote hfilled l hl
    have hholds := (holdsText_body_iff hdistinct).2 ⟨l, hl, rfl⟩
    exact exists_of_assigns_script hquote (hquote l hl)
      (hfilled _ List.mem_cons_self l.variableName hholds)

/-- Objects in a list refer to users through a property whose variable is that of a text as well. -/
def customerFields : List Field :=
  [⟨"items", false, false, .list none (some "object"),
      [⟨"customer", false, false, .record, [.leaf "id" true false (.reference (some "user"))]⟩]⟩,
    .leaf "items_customer_id" false true (.scalar .string)]

theorem isFilled_customerFields : Field.AreDistinct customerFields ∧
    (∀ l ∈ leaves [] customerFields, '"' ∉ l.variableName) ∧ IsFilled customerFields := by
  have hcustomer : Field.AreDistinct [.leaf "id" true false (.reference (some "user"))] :=
    .intro (List.nodup_singleton _) (by simpa [Field.leaf] using Field.AreDistinct.nil)
  have hitems : Field.AreDistinct
      [⟨"customer", false, false, .record, [.leaf "id" true false (.reference (some "user"))]⟩] :=
    .intro (List.nodup_singleton _) (by simpa using hcustomer)
  have hdistinct : Field.AreDistinct customerFields :=
    .intro (by decide) (by simpa [customerFields, Field.leaf] using ⟨hitems, Field.AreDistinct.nil⟩)
  have hcovered : IsCovered customerFields := by
    unfold IsCovered
    decide
  exact ⟨hdistinct, by decide, (isFilled_iff_isCovered hdistinct).1 hcovered⟩

/-- The placeholder of a reference is not set. -/
theorem not_isFilled_reference : ∃ fields : List Field, Field.AreDistinct fields ∧
    Json.HoldsText (.obj (body [] fields)) (placeholder "author") ∧
    Json.HoldsText (.obj (updateBody fields)) (placeholder "author") ∧
    ¬ Assigns (script [] fields) "author" := by
  have hdistinct : Field.AreDistinct [.leaf "author" false false (.reference (some "User"))] :=
    .intro (List.nodup_singleton _) (by simpa [Field.leaf] using Field.AreDistinct.nil)
  have hholds := Json.HoldsText.here (placeholder "author")
  have hscript : script [] [.leaf "author" false false (.reference (some "User"))] = [] := rfl
  refine ⟨_, hdistinct, .member List.mem_cons_self hholds, .member List.mem_cons_self hholds, ?_⟩
  rw [hscript]
  rintro ⟨e, he⟩
  cases he

end Sample

end Scaffold
