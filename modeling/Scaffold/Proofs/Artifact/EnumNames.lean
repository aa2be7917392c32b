import Mathlib.Data.List.Nodup
import Mathlib.Data.List.Pairwise
import Scaffold.Proofs.Artifact.Declarations
import Scaffold.Types.Mongoose
import Scaffold.Types.Zod

/-!
# When two enumerations get one name

The type of an enumeration is called after its field, and below a list of objects after the list as well, with
`Item` in between.  The parts of a name cannot be told apart in it, so a field may be called what the type of another
one is made of: `itemsItemStatus` at the top and `status` below `items` are both typed by `ItemsItemStatusEnum`.

This is all that can happen where siblings have distinct names (`Field.Clash`): one of two top-level fields has to be
called after the items of the other.  Without such fields every enumeration has a name of its own, and what it is
typed by has its own values; and only then (`Interface.hasOwnEnums_iff`).
-/

namespace Scaffold

namespace Text

variable {a b w x y : Text}

/-- What the name of an item type ends with does not overlap itself. -/
lemma cut_item (h : "Item".toList ++ x = w ++ ("Item".toList ++ y)) :
    w = [] ∨ ∃ z, w = "Item".toList ++ z ∧ x = z ++ ("Item".toList ++ y) := by
  have hchars : ∀ t : Text, "Item".toList ++ t = 'I' :: 't' :: 'e' :: 'm' :: t := fun _ => rfl
  match w, h with
  | [], _ => exact .inl rfl
  | [p], h => simp at h
  | [p, q], h => simp at h
  | [p, q, r], h => simp at h
  | p :: q :: r :: s :: z, h =>
    simp only [hchars, List.cons_append, List.cons.injEq] at h
    obtain ⟨rfl, rfl, rfl, rfl, hx⟩ := h
    exact .inr ⟨z, rfl, hx⟩

/-- A text that is cut at `Item` in two ways has a part between the two cuts. -/
lemma item_overlap (h : a ++ ("Item".toList ++ x) = b ++ ("Item".toList ++ y)) :
    a = b ∨ (∃ z, b = a ++ ("Item".toList ++ z) ∧ x = z ++ ("Item".toList ++ y)) ∨
      ∃ z, a = b ++ ("Item".toList ++ z) ∧ y = z ++ ("Item".toList ++ x) := by
  rcases List.append_eq_append_iff.1 h with ⟨w, rfl, hw⟩ | ⟨w, rfl, hw⟩
  · rcases cut_item hw with rfl | ⟨z, rfl, hx⟩
    · exact .inl (List.append_nil a).symm
    · exact .inr (.inl ⟨z, rfl, hx⟩)
  · rcases cut_item hw with rfl | ⟨z, rfl, hy⟩
    · exact .inl (List.append_nil b)
    · exact .inr (.inr ⟨z, rfl, hy⟩)

end Text

namespace Field

/-- What types are called after a field. -/
def stem (f : Field) : Text := Text.capitalizeFirst f.name

/-- Siblings are told apart by what types are called after them. -/
structure HaveDistinctStems (fs : List Field) : Prop where
  top : (fs.map stem).Nodup
  nested : ∀ f ∈ fs, (f.children.map stem).Nodup

/-- Two enumerations have one name: one at the top that is called after the items of a list and an enumeration of
its items, or one each in two lists, of which the second is called after the items of the first. -/
inductive Clash (fs : List Field) : Prop
  | outer {f t c : Field} : f ∈ fs → t ∈ fs → c ∈ f.children → c.hasValues = true → t.hasValues = true →
      t.stem = f.stem ++ ("Item".toList ++ c.stem) → Clash fs
  | inner {f g c d : Field} {between : Text} : f ∈ fs → g ∈ fs → c ∈ f.children → d ∈ g.children →
      c.hasValues = true → d.hasValues = true → g.stem = f.stem ++ ("Item".toList ++ between) →
      c.stem = between ++ ("Item".toList ++ d.stem) → Clash fs

/-- A field and those directly below it, each with the scope that it is declared in. -/
def placedAt (f : Field) : List (Text × Field) := (f.children.map fun c => (f.scope, c)) ++ [([], f)]

/-- The fields and those directly below them, each with the scope that it is declared in. -/
def placed (fs : List Field) : List (Text × Field) := fs.flatMap placedAt

/-- The names of the enumerations with values, one for every place. -/
def enumNames (ps : List (Text × Field)) : List Text :=
  (ps.filter fun p => p.2.hasValues).map fun p => enumTypeName p.1 p.2.name

variable {f g c : Field} {fs : List Field} {n : Text}

lemma enumNames_placed (fs : List Field) : enumNames (placed fs) = fs.flatMap fun f => enumNames (placedAt f) := by
  unfold enumNames placed
  rw [List.filter_flatMap, List.map_flatMap]

lemma mem_enumNames_placedAt : n ∈ enumNames (placedAt f) ↔
    (∃ c ∈ f.children, c.hasValues = true ∧ enumTypeName f.scope c.name = n) ∨
      f.hasValues = true ∧ enumTypeName [] f.name = n := by
  simp only [enumNames, placedAt, List.mem_map, List.mem_filter, List.mem_append, List.mem_singleton]
  constructor
  · rintro ⟨p, ⟨⟨c, hc, rfl⟩ | rfl, hvalues⟩, rfl⟩
    · exact .inl ⟨c, hc, hvalues, rfl⟩
    · exact .inr ⟨hvalues, rfl⟩
  · rintro (⟨c, hc, hvalues, rfl⟩ | ⟨hvalues, rfl⟩)
    · exact ⟨(f.scope, c), ⟨.inl ⟨c, hc, rfl⟩, hvalues⟩, rfl⟩
    · exact ⟨([], f), ⟨.inr rfl, hvalues⟩, rfl⟩

/-- Below a field that a token stands for, an enumeration is called after the items. -/
lemma IsRead.enumTypeName_child (h : f.IsRead) (hc : c ∈ f.children) :
    enumTypeName f.scope c.name = f.stem ++ ("Item".toList ++ c.stem) ++ "Enum".toList := by
  have hstructured : structured f.kind f.children = true :=
    h.isStructuredList_iff.2 (List.ne_nil_of_mem hc)
  rw [scope, scopeOf, if_pos hstructured, enumTypeName, itemTypeNameOf, stem, stem]
  simp only [List.append_assoc]

lemma enumTypeName_top (f : Field) : enumTypeName [] f.name = f.stem ++ "Enum".toList := rfl

/-- Two fields with one name between them clash. -/
lemma clash_of_mem (h : ∀ f ∈ fs, f.IsRead) (hf : f ∈ fs) (hg : g ∈ fs) (hne : f.stem ≠ g.stem)
    (hnf : n ∈ enumNames (placedAt f)) (hng : n ∈ enumNames (placedAt g)) : Clash fs := by
  rcases mem_enumNames_placedAt.1 hnf with ⟨c, hc, hvc, rfl⟩ | ⟨hvf, rfl⟩
  · rcases mem_enumNames_placedAt.1 hng with ⟨d, hd, hvd, heq⟩ | ⟨hvg, heq⟩
    · rw [(h f hf).enumTypeName_child hc, (h g hg).enumTypeName_child hd, List.append_cancel_right_eq] at heq
      rcases Text.item_overlap heq.symm with heq | ⟨z, hz, hy⟩ | ⟨z, hz, hy⟩
      · exact absurd heq hne
      · exact .inner hf hg hc hd hvc hvd hz hy
      · exact .inner hg hf hd hc hvd hvc hz hy
    · rw [(h f hf).enumTypeName_child hc, enumTypeName_top, List.append_cancel_right_eq] at heq
      exact .outer hf hg hc hvc hvg heq
  · rcases mem_enumNames_placedAt.1 hng with ⟨d, hd, hvd, heq⟩ | ⟨-, heq⟩
    · rw [(h g hg).enumTypeName_child hd, enumTypeName_top, List.append_cancel_right_eq] at heq
      exact .outer hg hf hd hvd hvf heq.symm
    · rw [enumTypeName_top, enumTypeName_top, List.append_cancel_right_eq] at heq
      exact absurd heq.symm hne

/-- The names at one field differ: what has fields below it is no enumeration. -/
lemma nodup_enumNames_placedAt (h : f.IsRead) (hchildren : (f.children.map stem).Nodup) :
    (enumNames (placedAt f)).Nodup := by
  have hnested : (enumNames (f.children.map fun c => (f.scope, c))).Nodup := by
    have hinjective : Function.Injective fun s : Text => f.scope ++ s ++ "Enum".toList :=
      fun s t hst => List.append_cancel_left (List.append_cancel_right hst)
    have hall := hchildren.map hinjective
    rw [List.map_map] at hall
    refine hall.sublist ?_
    rw [enumNames, List.filter_map, List.map_map]
    exact List.filter_sublist.map _
  rcases eq_or_ne f.children [] with hempty | hne
  · rw [placedAt, hempty]
    unfold enumNames
    refine List.Nodup.map_on (fun p hp q hq _ => ?_) ((List.nodup_singleton _).filter _)
    obtain rfl := List.mem_singleton.1 (List.mem_filter.1 hp).1
    exact (List.mem_singleton.1 (List.mem_filter.1 hq).1).symm
  · have hnot : f.hasValues = false := by
      rw [hasValues, values, h.objects hne]
      rfl
    have hown : enumNames [([], f)] = [] := by
      rw [enumNames, List.filter_singleton, hnot]
      rfl
    rw [placedAt, enumNames, List.filter_append, List.map_append]
    show (enumNames _ ++ enumNames _).Nodup
    rwa [hown, List.append_nil]

/-- **Names of enumerations differ** exactly if no two fields clash. -/
theorem nodup_enumNames_iff (h : ∀ f ∈ fs, f.IsRead) (hstems : HaveDistinctStems fs) :
    (enumNames (placed fs)).Nodup ↔ ¬ Clash fs := by
  rw [enumNames_placed, List.nodup_flatMap]
  constructor
  · rintro ⟨-, hpair⟩ hclash
    have hsymm : Std.Symm (Function.onFun List.Disjoint fun f => enumNames (placedAt f)) :=
      ⟨fun _ _ hdisjoint _ hb ha => hdisjoint ha hb⟩
    have hdisjoint : ∀ {f g n}, f ∈ fs → g ∈ fs → f.stem ≠ g.stem → n ∈ enumNames (placedAt f) →
        n ∉ enumNames (placedAt g) := fun hf hg hne hnf hng =>
      hpair.forall hf hg (fun heq => hne (congrArg stem heq)) hnf hng
    cases hclash with
    | outer hf ht hc hvc hvt hstem =>
      refine hdisjoint hf ht (by rw [hstem]; simp) (mem_enumNames_placedAt.2 (.inl ⟨_, hc, hvc, rfl⟩))
        (mem_enumNames_placedAt.2 (.inr ⟨hvt, ?_⟩))
      rw [enumTypeName_top, hstem, (h _ hf).enumTypeName_child hc]
    | inner hf hg hc hd hvc hvd hg' hc' =>
      refine hdisjoint hf hg (by rw [hg']; simp) (mem_enumNames_placedAt.2 (.inl ⟨_, hc, hvc, rfl⟩))
        (mem_enumNames_placedAt.2 (.inl ⟨_, hd, hvd, ?_⟩))
      rw [(h _ hf).enumTypeName_child hc, (h _ hg).enumTypeName_child hd, hg', hc']
      simp only [List.append_assoc]
  · intro hclash
    refine ⟨fun f hf => nodup_enumNames_placedAt (h f hf) (hstems.nested f hf), ?_⟩
    exact (List.pairwise_map.1 hstems.top).imp_of_mem fun hf hg hne n hnf hng =>
      hclash (clash_of_mem h hf hg hne hnf hng)

end Field

namespace Interface

open Recovery Scaffold.Field

variable {b : Blueprint} {f : Field} {fs : List Field} {scope : Text} {tokens : List Text}

/-! ## What enumerations show -/

/-- The enumerations of fields that tokens stand for, one for every place. -/
lemma enumsAmong_eq_map_placed (h : ∀ f ∈ fs, f.IsRead) : enumsAmong [] fs =
    ((placed fs).filter fun p => p.2.hasValues).map fun p => (enumTypeName p.1 p.2.name, p.2.values) := by
  have hplaces : ∀ ps : List (Text × Field), (ps.filter fun p => p.2.hasValues).map
      (fun p => (enumTypeName p.1 p.2.name, p.2.values)) = ps.flatMap fun p => enumAt p.1 p.2 := by
    intro ps
    induction ps with
    | nil => rfl
    | cons p ps ih =>
      rw [List.flatMap_cons, List.filter_cons, ← ih, enumAt]
      split <;> rfl
  rw [enumsAmong_of_isRead h, hplaces, placed, List.flatMap_assoc]
  refine List.flatMap_congr fun f _ => ?_
  rw [placedAt, List.flatMap_append, List.flatMap_map, List.flatMap_singleton]
  rfl

lemma keys_enumsAmong (h : ∀ f ∈ fs, f.IsRead) : Table.keys (enumsAmong [] fs) = enumNames (placed fs) := by
  rw [enumsAmong_eq_map_placed h, Table.keys, List.map_map]
  rfl

/-- What an enumeration shows of its values: its static type is declared once, with a member for each of them in
order, and the validator and the schema list the same ones. -/
structure ShowsOwnValues (b : Blueprint) (scope : Text) (f : Field) : Prop where
  declared : (declarations b).filter (fun d => d.name = TypeScript.type scope f && d.kind = .enumeration) =
    [enumDeclaration (TypeScript.type scope f, f.values)]
  members : (Members.ofValues f.values).map Prod.snd = f.values
  zod : Zod.type f = "z.enum(" ++ Literal.list f.values ++ ")"
  mongoose : Mongoose.type f = Mongoose.typeLiteral "String" (", enum: " ++ Literal.list f.values)

/-- Every enumeration with values has a name of its own, and shows its own values. -/
structure HasOwnEnums (b : Blueprint) : Prop where
  names : (enumNames (placed b.fields)).Nodup
  shown : ∀ p ∈ placed b.fields, p.2.hasValues = true → ShowsOwnValues b p.1 p.2

lemma exists_of_hasValues (h : f.hasValues = true) : ∃ v vs, f.kind = .enumeration (some (v :: vs)) := by
  unfold hasValues values at h
  split at h
  · rename_i vs hkind
    cases vs with
    | nil => cases h
    | cons v vs => exact ⟨v, vs, hkind⟩
  · cases h

/-- An enumeration whose name is its own shows its own values. -/
lemma showsOwnValues (h : ∀ f ∈ b.fields, f.IsRead) (hnames : (enumNames (placed b.fields)).Nodup)
    (hf : (scope, f) ∈ placed b.fields) (hvalues : f.hasValues = true) : ShowsOwnValues b scope f := by
  obtain ⟨v, vs, hkind⟩ := exists_of_hasValues hvalues
  have hnodup : (Table.keys (enumsAmong [] b.fields)).Nodup := by rwa [keys_enumsAmong h]
  have hmem : (enumTypeName scope f.name, f.values) ∈ enums b.fields := by
    rw [enums_of_nodup hnodup, enumsAmong_eq_map_placed h]
    exact List.mem_map.2 ⟨(scope, f), List.mem_filter.2 ⟨hf, hvalues⟩, rfl⟩
  have hfind : Table.find? (enumTypeName scope f.name) (enums b.fields) = some f.values :=
    Table.find?_of_mem (by rwa [enums_of_nodup hnodup]) hmem
  have hfilter := Table.filter_of_find? (by rwa [enums_of_nodup hnodup]) hfind
  obtain ⟨name, isRequired, isOptional, kind, children⟩ := f
  obtain rfl : kind = _ := hkind
  refine ⟨?_, Members.map_snd_assign _ [], rfl, rfl⟩
  rw [show TypeScript.type scope ⟨name, isRequired, isOptional, .enumeration (some (v :: vs)), children⟩ =
    enumTypeName scope name from rfl, ← List.filter_filter, filter_enumeration, List.filter_map]
  exact congrArg (List.map enumDeclaration) hfilter

/-- **Enumerations have names of their own**, for all tokens whose fields have distinct names, exactly if no two of
the fields clash; and then all that is printed for an enumeration shows its own values. -/
theorem hasOwnEnums_iff (n : Names) (upload : Bool) (h : HaveDistinctStems (Parsed.ofTokens tokens).fields) :
    HasOwnEnums (.ofFields n (Parsed.ofTokens tokens).fields upload) ↔ ¬ Clash (Parsed.ofTokens tokens).fields := by
  have hread : ∀ f ∈ (Parsed.ofTokens tokens).fields, f.IsRead := fun f hf => Parsed.isRead_of_mem hf
  have hfields : (Blueprint.ofFields n (Parsed.ofTokens tokens).fields upload).fields =
      (Parsed.ofTokens tokens).fields := visible_eq_self fun f hf => (hread f hf).visible
  have hiff := nodup_enumNames_iff hread h
  rw [← hfields] at hiff hread
  constructor
  · intro hown
    have := hiff.1 hown.names
    rwa [hfields] at this
  · intro hclash
    have hnames := hiff.2 (by rwa [hfields])
    exact ⟨hnames, fun p hp hvalues => showsOwnValues hread hnames hp hvalues⟩

theorem hasOwnEnums_status :
    let tokens : List Text := ["status[open,closed]".toList, "items:array:object:status:enum[a,b]".toList]
    HaveDistinctStems (Parsed.ofTokens tokens).fields ∧
      HasOwnEnums (.ofFields ⟨"Order", "Order", "order"⟩ (Parsed.ofTokens tokens).fields false) := by
  intro tokens
  have hstems : HaveDistinctStems (Parsed.ofTokens tokens).fields := ⟨by decide, by decide⟩
  have hclash : ¬ Clash (Parsed.ofTokens tokens).fields :=
    (nodup_enumNames_iff (fun f hf => Parsed.isRead_of_mem hf) hstems).1 (by decide)
  exact ⟨hstems, (hasOwnEnums_iff _ _ hstems).2 hclash⟩

/-- A field at the top that is called after the items of a list takes the name of one below the list, and its values
are not declared. -/
theorem enums_collide_itemsItemStatus :
    let tokens : List Text := ["items:array:object:status:enum[a,b]".toList, "itemsItemStatus:enum[x,y]".toList]
    HaveDistinctStems (Parsed.ofTokens tokens).fields ∧
      enumNames (placed (Parsed.ofTokens tokens).fields) = ["ItemsItemStatusEnum", "ItemsItemStatusEnum"] ∧
      enums (Parsed.ofTokens tokens).fields = [("ItemsItemStatusEnum".toList, ["a".toList, "b".toList])] := by
  intro tokens
  have hstems : HaveDistinctStems (Parsed.ofTokens tokens).fields := ⟨by decide, by decide⟩
  have henums : enums (Parsed.ofTokens tokens).fields = [("ItemsItemStatusEnum".toList, ["a".toList, "b".toList])] := by
    rw [enums, enumsAmong_eq_map_placed fun f hf => Parsed.isRead_of_mem hf]
    decide
  exact ⟨hstems, by decide, henums⟩

end Interface

end Scaffold
