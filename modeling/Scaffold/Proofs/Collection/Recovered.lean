import Scaffold.Collection.Build
import Scaffold.Proofs.Recovery.Normal

/-!
# Sample requests of fields that were read back

The values of a sample request are placeholders, which depend on nothing that is lost when fields are
read back from the files of a module.  The script that sets the variables behind them does: it treats
an enumeration without values as an enumeration, and it leaves out a field with a tag outside of the
vocabulary, though both have the type of a string (`requests_normal_iff`).
-/

namespace Scaffold

namespace Sample

variable {fields : List Field} {f : Field} {kind : Kind} {owner : Text}

/-! ## Values -/

lemma value_normal_leaf (owner name : Text) (r o r' o' : Bool) (hkind : kind.IsProper) :
    value owner ⟨name, r', o', kind.normal, []⟩ = value owner ⟨name, r, o, kind, []⟩ := by
  have hlist : ∀ (r o : Bool) (item target : Option Text),
      value owner ⟨name, r, o, .list item target, []⟩ = .arr [] := by
    intro r o item target
    rw [value.eq_def]
    simp only [Field.structured_nil, Bool.false_eq_true, if_false]
  cases hkind with
  | leaf hleaf =>
    cases hleaf with
    | scalar s => rfl
    | unknown t => rfl
    | enumeration values =>
      rcases values with _ | _ | ⟨v, vs⟩
      · rfl
      · rfl
      · rfl
    | reference => rfl
    | list => rfl
    | record => rfl
  | reference t ht => rfl
  | list item target =>
    obtain ⟨item', target', hnormal⟩ := Kind.exists_normal_list item target
    rw [hnormal, hlist, hlist]

lemma value_normalNested (hf : f.IsReadNested) : value owner f.normalNested = value owner f := by
  obtain ⟨name, r, o, kind, children⟩ := f
  obtain rfl : children = [] := hf.children
  exact value_normal_leaf owner name r o _ o (.leaf hf.kind)

lemma entries_map {g : Field → Field} (hname : ∀ f, (g f).name = f.name)
    (h : ∀ f ∈ fields, value owner (g f) = value owner f) :
    entries owner (fields.map g) = entries owner fields := by
  induction fields with
  | nil => rfl
  | cons f fields ih =>
    obtain ⟨hf, hrest⟩ := List.forall_mem_cons.1 h
    rw [List.map_cons, entries, hname, hf, ih hrest, entries]

lemma value_normal (hf : f.IsRead) : value owner f.normal = value owner f := by
  obtain ⟨name, r, o, kind, children⟩ := f
  cases hs : Field.structured kind children with
  | true =>
    obtain rfl : kind = .list none (some objectTag) := hf.objects (hf.isStructuredList_iff.1 hs)
    have hs' : Field.isStructuredList ⟨name, r, o, .list none (some objectTag), children⟩ = true := hs
    have hnormal := (Field.isStructuredList_normal _).trans hs'
    rw [Field.normal_of_structured hs'] at hnormal ⊢
    have hlist : ∀ children : List Field, Field.structured (.list none (some objectTag)) children = true →
        value owner ⟨name, r, o, .list none (some objectTag), children⟩ =
          .arr [.obj (Table.ofEntries (entries (variableName owner name) children))] := by
      intro children h
      rw [value.eq_def]
      simp only [h, if_true]
    refine (hlist _ hnormal).trans (.trans ?_ (hlist _ hs).symm)
    rw [entries_map Field.name_normalNested fun c hc => value_normalNested (hf.children c hc)]
  | false =>
    obtain ⟨hchildren, hnormal⟩ := hf.normal_of_not_structured hs
    obtain rfl : children = [] := hchildren
    rw [hnormal]
    exact value_normal_leaf owner name r o r o hf.kind

/-- **The sample bodies of what is left of fields** are those of the fields. -/
lemma body_normal (hread : ∀ f ∈ fields, f.IsRead) : body owner (fields.map Field.normal) = body owner fields := by
  rw [body, body, entries_map Field.name_normal fun f hf => value_normal (hread f hf)]

/-! ## Scripts -/

/-- Whether the type of a kind says all that a script needs. -/
def isScripted (kind : Kind) : Bool := !kind.isHollow && !kind.isUnknown

lemma assignment_injective {key a b : Text} (h : assignment key a = assignment key b) : a = b := by
  have hcancel : ∀ p s : Text, p ++ a ++ s = p ++ b ++ s → a = b :=
    fun p s h => List.append_cancel_left (List.append_cancel_right h)
  exact hcancel ("pm.variables.set(\"" ++ key ++ "\", ") ");" h

/-- The line for an enumeration without values is not the line for a string: the one ends with a quote
and the other with a parenthesis. -/
lemma assignment_ne (key name : Text) :
    assignment key (scalarExpression name .string) ≠ assignment key "\"ENUM_VALUE\"" := by
  intro h
  have hlast := congrArg List.getLast? (assignment_injective h)
  have hsuffix : ∀ t : Text, t ≠ [] → (['"'] ++ name ++ t).getLast? = t.getLast? := fun t ht =>
    List.getLast?_append_of_ne_nil _ ht
  have hstring : (scalarExpression name .string).getLast? = some ')' :=
    hsuffix "_\" + Date.now()" (List.cons_ne_nil _ _)
  rw [hstring] at hlast
  exact absurd hlast (by decide)

/-- What is left of a field sets no fewer variables, and it sets them in the same way unless its type
says less than its kind. -/
lemma fieldScript_leaf (owner name : Text) (r o r' o' : Bool) (hkind : kind.IsProper) :
    let before := fieldScript owner ⟨name, r, o, kind, []⟩
    let after := fieldScript owner ⟨name, r', o', kind.normal, []⟩
    before.length ≤ after.length ∧ (after = before ↔ isScripted kind = true) := by
  intro before after
  have hsame : after = before → isScripted kind = true →
      before.length ≤ after.length ∧ (after = before ↔ isScripted kind = true) :=
    fun h hkind => ⟨(congrArg List.length h).ge, iff_of_true h hkind⟩
  -- an enumeration without values has a placeholder of its own, and what is left of it is a text
  have hhollow : ∀ values : Option (List Text), values.getD [] = [] →
      fieldScript owner ⟨name, r', o', .scalar .string, []⟩ ≠
        fieldScript owner ⟨name, r, o, .enumeration values, []⟩ := by
    intro values hvalues h
    have hlines : fieldScript owner ⟨name, r, o, .enumeration values, []⟩ =
        [assignment (variableName owner name) "\"ENUM_VALUE\""] := by
      rw [fieldScript.eq_def]
      simp only [hvalues, choiceLines]
    rw [hlines] at h
    exact assignment_ne _ name (List.head_eq_of_cons_eq h)
  have hlist : ∀ (r o : Bool) (item target : Option Text),
      fieldScript owner ⟨name, r, o, .list item target, []⟩ = [] := by
    intro r o item target
    rw [fieldScript.eq_def]
    simp only [Field.structured_nil, Bool.false_eq_true, if_false]
  cases hkind with
  | leaf hleaf =>
    cases hleaf with
    | scalar s => exact hsame rfl rfl
    | unknown t => exact ⟨Nat.zero_le _, iff_of_false (List.cons_ne_nil _ _) Bool.false_ne_true⟩
    | enumeration values =>
      cases values with
      | none => exact ⟨Nat.le_refl 1, iff_of_false (hhollow none rfl) Bool.false_ne_true⟩
      | some values =>
        cases values with
        | nil => exact ⟨Nat.le_refl 1, iff_of_false (hhollow (some []) rfl) Bool.false_ne_true⟩
        | cons v vs => exact hsame rfl rfl
    | reference => exact hsame rfl rfl
    | list => exact hsame rfl rfl
    | record => exact hsame rfl rfl
  | reference t ht => exact hsame rfl rfl
  | list item target hitem htarget =>
    obtain ⟨item', target', hnormal⟩ := Kind.exists_normal_list item target
    refine hsame ?_ rfl
    simp only [after, before, hnormal, hlist]

lemma script_eq_flatMap (h : ∀ f ∈ fields, Field.isIdentity f.name = false) :
    script owner fields = fields.flatMap (fieldScript owner) := by
  induction fields with
  | nil => rfl
  | cons f fields ih =>
    obtain ⟨hf, hrest⟩ := List.forall_mem_cons.1 h
    rw [script, hf, ih hrest]
    rfl

/-- Rows of blocks of lines are the same exactly if all blocks are, where no block of one row is longer
than the one of the other. -/
lemma flatMap_eq_iff {α β : Type} {l : List α} {s t : α → List β}
    (h : ∀ x ∈ l, (s x).length ≤ (t x).length) :
    (l.flatMap s).length ≤ (l.flatMap t).length ∧ (l.flatMap t = l.flatMap s ↔ ∀ x ∈ l, t x = s x) := by
  induction l with
  | nil => simp
  | cons x l ih =>
    obtain ⟨hx, hl⟩ := List.forall_mem_cons.1 h
    obtain ⟨hrest, hiff⟩ := ih hl
    rw [List.flatMap_cons, List.flatMap_cons, List.forall_mem_cons, ← hiff]
    refine ⟨by simpa only [List.length_append] using Nat.add_le_add hx hrest, fun heq => ?_, ?_⟩
    · have hlength := congrArg List.length heq
      rw [List.length_append, List.length_append] at hlength
      exact List.append_inj heq (by omega)
    · rintro ⟨hhead, htail⟩
      rw [hhead, htail]

/-- What the script of a module sets for a field can be read back. -/
def IsScriptedInFiles (f : Field) : Prop := ∀ g ∈ f :: f.children, isScripted g.kind = true

/-- What is left of a list of objects, or of another field, sets no fewer variables, and it sets them in
the same way if all its kinds are said by their types. -/
lemma fieldScript_normal (owner : Text) (hf : f.IsRead) :
    (fieldScript owner f).length ≤ (fieldScript owner f.normal).length ∧
      (fieldScript owner f.normal = fieldScript owner f ↔ IsScriptedInFiles f) := by
  obtain ⟨name, r, o, kind, children⟩ := f
  cases hs : Field.structured kind children with
  | true =>
    obtain rfl : kind = .list none (some objectTag) := hf.objects (hf.isStructuredList_iff.1 hs)
    have hs' : Field.isStructuredList ⟨name, r, o, .list none (some objectTag), children⟩ = true := hs
    have hnormal := (Field.isStructuredList_normal _).trans hs'
    rw [Field.normal_of_structured hs'] at hnormal ⊢
    have hlist : ∀ children : List Field, Field.structured (.list none (some objectTag)) children = true →
        (∀ c ∈ children, Field.isIdentity c.name = false) →
        fieldScript owner ⟨name, r, o, .list none (some objectTag), children⟩ =
          children.flatMap (fieldScript (variableName owner name)) := by
      intro children h hvisible
      rw [fieldScript.eq_def]
      simp only [h, if_true]
      exact script_eq_flatMap hvisible
    have hvisible : ∀ c ∈ children, Field.isIdentity c.name = false := fun c hc => (hf.children c hc).visible
    have hvisible' : ∀ c ∈ children.map Field.normalNested, Field.isIdentity c.name = false := by
      intro c hc
      obtain ⟨g, hg, rfl⟩ := List.mem_map.1 hc
      exact hvisible g hg
    have hblock : ∀ c ∈ children,
        (fieldScript (variableName owner name) c).length ≤
            (fieldScript (variableName owner name) c.normalNested).length ∧
          (fieldScript (variableName owner name) c.normalNested = fieldScript (variableName owner name) c ↔
            isScripted c.kind = true) := by
      intro c hc
      have hc' := hf.children c hc
      obtain ⟨childName, r', o', childKind, none'⟩ := c
      obtain rfl : none' = [] := hc'.children
      exact fieldScript_leaf _ childName r' o' _ o' (.leaf hc'.kind)
    obtain ⟨hlength, hiff⟩ := flatMap_eq_iff fun c hc => (hblock c hc).1
    rw [hlist _ hs hvisible, hlist _ hnormal hvisible', List.flatMap_map]
    refine ⟨hlength, hiff.trans ?_⟩
    rw [IsScriptedInFiles, List.forall_mem_cons, and_iff_right (by rfl)]
    exact forall₂_congr fun c hc => (hblock c hc).2
  | false =>
    obtain ⟨hchildren, hnormal⟩ := hf.normal_of_not_structured hs
    obtain rfl : children = [] := hchildren
    rw [hnormal]
    obtain ⟨hlength, hiff⟩ := fieldScript_leaf owner name r o r o hf.kind
    refine ⟨hlength, hiff.trans ?_⟩
    simp [IsScriptedInFiles]

lemma script_normal_iff (hread : ∀ f ∈ fields, f.IsRead) :
    script owner (fields.map Field.normal) = script owner fields ↔ ∀ f ∈ fields, IsScriptedInFiles f := by
  have hvisible : ∀ f ∈ fields, Field.isIdentity f.name = false := fun f hf => (hread f hf).visible
  have hvisible' : ∀ f ∈ fields.map Field.normal, Field.isIdentity f.name = false := by
    intro f hf
    obtain ⟨g, hg, rfl⟩ := List.mem_map.1 hf
    rw [Field.name_normal]
    exact hvisible g hg
  rw [script_eq_flatMap hvisible, script_eq_flatMap hvisible', List.flatMap_map,
    (flatMap_eq_iff fun f hf => (fieldScript_normal owner (hread f hf)).1).2]
  exact forall₂_congr fun f hf => (fieldScript_normal owner (hread f hf)).2

end Sample

namespace Collection

variable {fields : List Field}

/-- **The requests of what is left of fields** are those of the fields exactly if their scripts set the
same variables in the same way. -/
theorem requests_normal_iff (n : Names) (apiPrefix : Text) (hread : ∀ f ∈ fields, f.IsRead) :
    requests n (fields.map Field.normal) apiPrefix = requests n fields apiPrefix ↔
      ∀ f ∈ fields, Sample.IsScriptedInFiles f := by
  rw [← Sample.script_normal_iff hread]
  constructor
  · intro h
    have hfirst := congrArg List.head? h
    simp only [requests, List.head?_cons, Option.some.injEq, bodyRequest, beforeRequest, Json.object,
      Json.strings, List.map_cons, List.map_nil, Json.obj.injEq, Json.arr.injEq, List.cons.injEq,
      Prod.mk.injEq, true_and, and_true] at hfirst
    exact List.map_injective_iff.2 (fun _ _ h => Json.str.inj h) hfirst.2
  · intro h
    simp only [requests, h, Sample.updateBody, Sample.body_normal hread]

end Collection

end Scaffold
