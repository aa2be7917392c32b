import Scaffold.Field.Token
import Scaffold.Proofs.Artifact.Pieces
import Scaffold.Proofs.Field.Nesting

/-!
# Every type in the interface file is declared

The properties of the interface file refer to enumerations and to the interfaces of items by name.
Two traversals have to agree on these names: the printer of types passes the scope of a field down
while it prints, and the declarations are collected beforehand, with a scope of their own and over
the hidden fields as well.  `mentions` is what the printer refers to; it is below what is collected
(`exists_mem_enumsIn`, `exists_mem_nestedIn`), and what is collected from a list of objects on its
own is among what is collected from the whole module (`enumsAmong_subset`).

Of several enumerations with one name only the first is declared (`filter_enums`).  But the interface of the
document may be called like an enumeration as well: both are `IEnum` in a module called `enum` with an
enumeration `i`.  This is all that can happen (`types_are_declared_iff`).
-/

namespace Scaffold

open Recovery (DeclarationKind Block)
open Code (Piece pieceText uses joinPieces plainLines)

/-! ## Types that a field refers to -/

namespace Field

mutual

/-- The declared types that the type of a field in a scope refers to: its own enumeration, the
interface of its items, or those of the visible properties of an inline object. -/
def mentionsAt (scope : Text) : Field → List (DeclarationKind × Text)
  | ⟨name, _, _, kind, children⟩ =>
    match kind with
    | .enumeration values =>
      if (values.getD []).isEmpty then [] else [(.enumeration, enumTypeName scope name)]
    | .list item target =>
      if structured (.list item target) children then [(.interface, itemTypeNameOf name)] else []
    | .record => mentions (scopeOf name .record children) children
    | _ => []
termination_by structural f => f

/-- The declared types that the visible properties in a scope refer to. -/
def mentions (scope : Text) : List Field → List (DeclarationKind × Text)
  | [] => []
  | f :: fs => (if isIdentity f.name then [] else mentionsAt scope f) ++ mentions scope fs
termination_by structural fs => fs

end

lemma mentionsAt_optional (scope : Text) (f : Field) (isOptional : Bool) :
    mentionsAt scope { f with isOptional } = mentionsAt scope f := by
  obtain ⟨name, isRequired, isOptional, kind, children⟩ := f
  rfl

variable {scope n : Text} {f g : Field} {fs : List Field}

mutual

/-- An enumeration that is referred to is collected, with at least one value. -/
lemma exists_mem_enumsIn : ∀ (scope : Text) (f : Field), (.enumeration, n) ∈ mentionsAt scope f →
    ∃ values, (n, values) ∈ Interface.enumsIn scope f
  | scope, ⟨name, isRequired, isOptional, kind, children⟩, h => by
    have hchildren := exists_mem_enumsAmong (scopeOf name kind children) children
    unfold mentionsAt at h
    split at h
    · rename_i values
      split at h
      · cases h
      · rename_i hvalues
        obtain ⟨-, rfl⟩ := Prod.mk.inj (List.mem_singleton.1 h)
        match values, hvalues with
        | some (v :: vs), _ =>
          rw [Interface.enumsIn_eq]
          exact ⟨v :: vs, List.mem_append_right _ (List.mem_singleton_self _)⟩
        | some [], hvalues => exact absurd rfl hvalues
        | none, hvalues => exact absurd rfl hvalues
    · split at h
      · cases List.mem_singleton.1 h
      · cases h
    · obtain ⟨values, hmem⟩ := hchildren h
      rw [Interface.enumsIn_eq]
      exact ⟨values, List.mem_append_left _ hmem⟩
    · cases h
termination_by structural _ f => f

lemma exists_mem_enumsAmong : ∀ (scope : Text) (fs : List Field),
    (.enumeration, n) ∈ mentions scope fs → ∃ values, (n, values) ∈ Interface.enumsAmong scope fs
  | _, [], h => absurd h List.not_mem_nil
  | scope, f :: fs, h => by
    have hf := exists_mem_enumsIn scope f
    have hfs := exists_mem_enumsAmong scope fs
    rw [mentions, List.mem_append] at h
    rw [Interface.enumsAmong]
    rcases h with h | h
    · split at h
      · cases h
      · exact (hf h).imp fun _ => List.mem_append_left _
    · exact (hfs h).imp fun _ => List.mem_append_right _
termination_by structural _ fs => fs

end

mutual

/-- A list of objects that is referred to is collected. -/
lemma exists_mem_nestedIn : ∀ (scope : Text) (f : Field), (.interface, n) ∈ mentionsAt scope f →
    ∃ g ∈ nestedIn f, g.itemTypeName = n
  | _, ⟨name, isRequired, isOptional, kind, children⟩, h => by
    have hchildren := exists_mem_nested (scopeOf name kind children) children
    unfold mentionsAt at h
    rw [nestedIn]
    split at h
    · split at h
      · cases h
      · cases List.mem_singleton.1 h
    · split at h
      · rename_i hstructured
        obtain ⟨-, rfl⟩ := Prod.mk.inj (List.mem_singleton.1 h)
        rw [if_pos hstructured]
        exact ⟨_, List.mem_append_right _ (List.mem_singleton_self _), rfl⟩
      · cases h
    · obtain ⟨g, hg, hname⟩ := hchildren h
      exact ⟨g, List.mem_append_left _ hg, hname⟩
    · cases h
termination_by structural _ f => f

lemma exists_mem_nested : ∀ (scope : Text) (fs : List Field), (.interface, n) ∈ mentions scope fs →
    ∃ g ∈ nested fs, g.itemTypeName = n
  | _, [], h => absurd h List.not_mem_nil
  | scope, f :: fs, h => by
    have hf := exists_mem_nestedIn scope f
    have hfs := exists_mem_nested scope fs
    rw [mentions, List.mem_append] at h
    rw [nested]
    rcases h with h | h
    · split at h
      · cases h
      · obtain ⟨g, hg, hname⟩ := hf h
        exact ⟨g, List.mem_append_left _ hg, hname⟩
    · obtain ⟨g, hg, hname⟩ := hfs h
      exact ⟨g, List.mem_append_right _ hg, hname⟩
termination_by structural _ fs => fs

end

lemma enumsIn_subset (scope : Text) (hf : f ∈ fs) :
    Interface.enumsIn scope f ⊆ Interface.enumsAmong scope fs := by
  induction fs with
  | nil => cases hf
  | cons g fs ih =>
    rw [Interface.enumsAmong]
    rcases List.mem_cons.1 hf with rfl | hf
    · exact List.subset_append_left _ _
    · exact List.subset_append_of_subset_right _ (ih hf)

mutual

/-- What is collected from the items of a list is collected from where the list stands: the scope of
the items depends on the list alone. -/
lemma enumsAmong_subset_enumsIn : ∀ (scope : Text) (f : Field), g ∈ nestedIn f →
    Interface.enumsAmong g.scope g.children ⊆ Interface.enumsIn scope f
  | scope, ⟨name, isRequired, isOptional, kind, children⟩, hg => by
    have hchildren := enumsAmong_subset (scopeOf name kind children) children
    rw [nestedIn, List.mem_append] at hg
    rw [Interface.enumsIn_eq]
    refine List.subset_append_of_subset_left _ ?_
    rcases hg with hg | hg
    · exact hchildren hg
    · split at hg
      · obtain rfl := List.mem_singleton.1 hg
        exact List.Subset.refl _
      · cases hg
termination_by structural _ f => f

lemma enumsAmong_subset : ∀ (scope : Text) (fs : List Field), g ∈ nested fs →
    Interface.enumsAmong g.scope g.children ⊆ Interface.enumsAmong scope fs
  | _, [], hg => absurd hg List.not_mem_nil
  | scope, f :: fs, hg => by
    have hf := enumsAmong_subset_enumsIn scope f
    have hfs := enumsAmong_subset scope fs
    rw [nested, List.mem_append] at hg
    rw [Interface.enumsAmong]
    rcases hg with hg | hg
    · exact List.subset_append_of_subset_left _ (hf hg)
    · exact List.subset_append_of_subset_right _ (hfs hg)
termination_by structural _ fs => fs

end

end Field

/-! ## Types in pieces -/

namespace TypeScript

mutual

/-- The pieces of the type of a field in a scope. -/
def typePieces (scope : Text) : Field → List Piece
  | ⟨name, isRequired, isOptional, kind, children⟩ =>
    match kind with
    | .enumeration values =>
      if (values.getD []).isEmpty then [.other "string"] else [.used (Field.enumTypeName scope name)]
    | .list item target =>
      if Field.structured (.list item target) children then
        [.used (Field.itemTypeNameOf name), .other "[]"]
      else [.other (listType item target)]
    | .record =>
      if children.isEmpty then [.other "Record<string, any>"]
      else
        .other ['{', ' '] ::
          joinPieces "; " (propertyPieces (Field.scopeOf name .record children) children) ++
          [.other [' ', '}']]
    | kind => [.other (type scope ⟨name, isRequired, isOptional, kind, children⟩)]
termination_by structural f => f

/-- The pieces of the visible properties of an inline object with the given scope. -/
def propertyPieces (scope : Text) : List Field → List (List Piece)
  | [] => []
  | f :: fs =>
    (if Field.isIdentity f.name then []
      else [.other (propertyName f.isOptional f.name ++ ": ") :: typePieces scope f]) ++
      propertyPieces scope fs
termination_by structural fs => fs

end

mutual

/-- The pieces of a type are the type. -/
lemma pieceText_typePieces : ∀ (scope : Text) (f : Field),
    pieceText (typePieces scope f) = type scope f
  | scope, ⟨name, isRequired, isOptional, kind, children⟩ => by
    have hchildren := map_pieceText_propertyPieces (Field.scopeOf name kind children) children
    have hplain : ∀ t : Text, pieceText [.other t] = t := fun t => List.append_nil t
    cases kind with
    | enumeration values =>
      rw [typePieces, type]
      split
      · exact hplain _
      · exact List.append_nil _
    | list item target =>
      rw [typePieces, type]
      split
      · simp
      · exact hplain _
    | record =>
      rw [typePieces, type]
      split
      · exact hplain _
      · rw [← hchildren, Text.braced]
        simp [Code.pieceText_joinPieces]
    | scalar s => exact hplain _
    | unknown tag => exact hplain _
    | reference target => exact hplain _
termination_by structural _ f => f

lemma map_pieceText_propertyPieces : ∀ (scope : Text) (fs : List Field),
    (propertyPieces scope fs).map pieceText = properties scope fs
  | _, [] => rfl
  | scope, f :: fs => by
    have hf := pieceText_typePieces scope f
    have hfs := map_pieceText_propertyPieces scope fs
    rw [propertyPieces, List.map_append, hfs, properties]
    cases Field.isIdentity f.name with
    | true => rfl
    | false => simp [hf]
termination_by structural _ fs => fs

end

mutual

/-- The references in a type are those of its field. -/
lemma uses_typePieces : ∀ (scope : Text) (f : Field),
    uses (typePieces scope f) = (Field.mentionsAt scope f).map Prod.snd
  | scope, ⟨name, isRequired, isOptional, kind, children⟩ => by
    have hchildren := flatMap_uses_propertyPieces (Field.scopeOf name kind children) children
    cases kind with
    | enumeration values =>
      rw [typePieces, Field.mentionsAt]
      split <;> rfl
    | list item target =>
      rw [typePieces, Field.mentionsAt]
      split <;> rfl
    | record =>
      rw [typePieces, Field.mentionsAt]
      split
      · rename_i hempty
        obtain rfl := List.isEmpty_iff.1 hempty
        rfl
      · rw [← hchildren, Code.uses_append, Code.uses_other, Code.uses_joinPieces, Code.uses_other,
          Code.uses_nil, List.append_nil]
    | scalar s => rfl
    | unknown tag => rfl
    | reference target => rfl
termination_by structural _ f => f

lemma flatMap_uses_propertyPieces : ∀ (scope : Text) (fs : List Field),
    (propertyPieces scope fs).flatMap uses = (Field.mentions scope fs).map Prod.snd
  | _, [] => rfl
  | scope, f :: fs => by
    have hf := uses_typePieces scope f
    have hfs := flatMap_uses_propertyPieces scope fs
    rw [propertyPieces, List.flatMap_append, hfs, Field.mentions, List.map_append]
    cases Field.isIdentity f.name with
    | true => rfl
    | false => simp [hf]
termination_by structural _ fs => fs

end

end TypeScript

/-! ## The interface file in pieces -/

namespace Interface

/-- A declaration with the pieces of its lines. -/
structure Marked where
  kind : DeclarationKind
  name : Text
  lines : List (List Piece)

/-- The declaration as it is written. -/
def Marked.block (m : Marked) : Block := .ofLines m.kind m.name (m.lines.map pieceText)

/-- The types that the lines of a declaration refer to. -/
def Marked.references (m : Marked) : List Text := m.lines.flatMap uses

/-- The pieces of the line of a field in an interface. -/
def linePieces (scope : Text) (f : Field) : List Piece :=
  .other (Code.indent 2 (TypeScript.propertyName f.isOptional f.name ++ ": ")) ::
    TypeScript.typePieces scope f ++ [.other [';']]

/-- The interface of the items of a list of objects. -/
def markedItems (f : Field) : Marked :=
  ⟨.interface, f.itemTypeName, (Field.visible f.children).map (linePieces f.scope)⟩

/-- The declaration of an enumeration. -/
def markedEnum (declared : Text × List Text) : Marked :=
  ⟨.enumeration, declared.1, plainLines ((Members.ofValues declared.2).map memberLine)⟩

/-- The interface of the filters, if there are any. -/
def markedFilters (b : Blueprint) : List Marked :=
  if b.filterable.isEmpty then []
  else [⟨.interface, 'I' :: b.names.className ++ "Filterables",
    plainLines [Code.indent 2 "searchTerm?: string;"] ++
      b.filterable.map fun f => linePieces [] { f with isOptional := true }⟩]

/-- The interface of the document. -/
def markedDocument (b : Blueprint) : Marked :=
  ⟨.interface, 'I' :: b.names.className, plainLines [Code.indent 2 "_id: Types.ObjectId;"] ++
    if b.fields.isEmpty then plainLines [Code.indent 2 "// Define interface properties here"]
    else b.fields.map (linePieces [])⟩

/-- The declarations of an interface file, in pieces. -/
def marked (b : Blueprint) : List Marked :=
  (Field.nested b.fields).map markedItems ++ (enums b.fields).map markedEnum ++ markedFilters b ++
    [markedDocument b]

/-- The declared types that an interface file refers to: in the interfaces of items, in the filters
and in the document. -/
def mentioned (b : Blueprint) : List (DeclarationKind × Text) :=
  (Field.nested b.fields).flatMap (fun f =>
      (Field.visible f.children).flatMap (Field.mentionsAt f.scope)) ++
    b.filterable.flatMap (Field.mentionsAt []) ++ b.fields.flatMap (Field.mentionsAt [])

variable {b : Blueprint} {scope n : Text} {values : List Text} {fs : List Field}

lemma pieceText_linePieces (scope : Text) (f : Field) :
    pieceText (linePieces scope f) = propertyLine scope f := by
  unfold linePieces propertyLine TypeScript.property Code.indent
  simp [TypeScript.pieceText_typePieces]

lemma uses_linePieces (scope : Text) (f : Field) :
    uses (linePieces scope f) = (Field.mentionsAt scope f).map Prod.snd := by
  rw [linePieces, Code.uses_append, Code.uses_other, TypeScript.uses_typePieces, Code.uses_other,
    Code.uses_nil, List.append_nil]

lemma map_pieceText_linePieces (scope : Text) (fs : List Field) :
    (fs.map (linePieces scope)).map pieceText = fs.map (propertyLine scope) := by
  rw [List.map_map]
  exact List.map_congr_left fun f _ => pieceText_linePieces scope f

/-- The declarations in pieces are the declarations. -/
lemma map_block_marked (b : Blueprint) : (marked b).map Marked.block = declarations b := by
  have hitems : ∀ f, (markedItems f).block = itemDeclaration f := fun f => by
    rw [markedItems, Marked.block, map_pieceText_linePieces]
    rfl
  have henum : ∀ d, (markedEnum d).block = enumDeclaration d := fun d => by
    rw [markedEnum, Marked.block, Code.map_pieceText_plainLines]
    rfl
  have hfilters : (markedFilters b).map Marked.block = filterDeclarations b := by
    unfold markedFilters filterDeclarations
    cases b.filterable with
    | nil => rfl
    | cons f fs =>
      simp only [List.isEmpty_cons, Bool.false_eq_true, if_false, List.map_cons, List.map_nil,
        Marked.block, List.map_append, Code.map_pieceText_plainLines, List.map_map,
        Function.comp_def, pieceText_linePieces]
      rfl
  have hdocument : (markedDocument b).block = documentDeclaration b := by
    unfold markedDocument documentDeclaration
    cases b.fields with
    | nil => rfl
    | cons f fs =>
      simp only [List.isEmpty_cons, Bool.false_eq_true, if_false, Marked.block, List.map_append,
        Code.map_pieceText_plainLines, map_pieceText_linePieces]
      rfl
  simp only [marked, declarations, List.map_append, List.map_map, Function.comp_def, hitems, henum,
    hfilters, List.map_cons, List.map_nil, hdocument]

/-- The references among the pieces are those of the fields. -/
lemma flatMap_references_marked (b : Blueprint) :
    (marked b).flatMap Marked.references = (mentioned b).map Prod.snd := by
  have hitems : ((Field.nested b.fields).map markedItems).flatMap Marked.references =
      ((Field.nested b.fields).flatMap fun f =>
        (Field.visible f.children).flatMap (Field.mentionsAt f.scope)).map Prod.snd := by
    simp only [List.flatMap_map, List.map_flatMap, markedItems, Marked.references, uses_linePieces]
  have henums : ((enums b.fields).map markedEnum).flatMap Marked.references = [] := by
    simp only [List.flatMap_map, markedEnum, Marked.references, Code.flatMap_uses_plainLines]
    exact List.flatMap_eq_nil_iff.2 fun _ _ => rfl
  have hfilters : (markedFilters b).flatMap Marked.references =
      (b.filterable.flatMap (Field.mentionsAt [])).map Prod.snd := by
    unfold markedFilters
    cases b.filterable with
    | nil => rfl
    | cons f fs =>
      simp [Marked.references, uses_linePieces, Field.mentionsAt_optional, List.flatMap_map,
        List.map_flatMap]
  have hdocument : (markedDocument b).references =
      (b.fields.flatMap (Field.mentionsAt [])).map Prod.snd := by
    unfold markedDocument
    cases b.fields with
    | nil => rfl
    | cons f fs =>
      simp [Marked.references, uses_linePieces, List.flatMap_map, List.map_flatMap]
  rw [marked, List.flatMap_append, List.flatMap_append, List.flatMap_append, hitems, henums, hfilters,
    List.flatMap_singleton, hdocument, mentioned, List.map_append, List.map_append, List.append_nil]

/-! ## Enumerations that are declared -/

mutual

lemma isProper_of_mem_enumsIn : ∀ (scope : Text) (f : Field), (n, values) ∈ enumsIn scope f →
    values ≠ [] ∧ ∃ start, n = start ++ "Enum".toList
  | scope, ⟨name, isRequired, isOptional, kind, children⟩, h => by
    have hchildren := isProper_of_mem_enumsAmong (Field.scopeOf name kind children) children
    rw [enumsIn_eq, List.mem_append] at h
    rcases h with h | h
    · exact hchildren h
    · unfold enumAt at h
      split at h
      · rename_i hvalues
        obtain ⟨rfl, rfl⟩ := Prod.mk.inj (List.mem_singleton.1 h)
        exact ⟨by simpa [Field.hasValues] using hvalues, _, rfl⟩
      · cases h
termination_by structural _ f => f

/-- An enumeration that is collected has values, and a name that tells that it is one. -/
lemma isProper_of_mem_enumsAmong : ∀ (scope : Text) (fs : List Field),
    (n, values) ∈ enumsAmong scope fs → values ≠ [] ∧ ∃ start, n = start ++ "Enum".toList
  | _, [], h => absurd h List.not_mem_nil
  | scope, f :: fs, h => by
    have hf := isProper_of_mem_enumsIn scope f
    have hfs := isProper_of_mem_enumsAmong scope fs
    rw [enumsAmong, List.mem_append] at h
    exact h.elim hf hfs
termination_by structural _ fs => fs

end

/-- Of the enumerations with one name one is declared. -/
lemma filter_enums (h : (n, values) ∈ enumsAmong [] fs) :
    ∃ declared, (enums fs).filter (fun e => e.1 = n) = [(n, declared)] ∧ declared ≠ [] := by
  obtain ⟨hnodup, -, hkeys⟩ := Table.foldl_putNew (t := []) (enumsAmong [] fs) List.nodup_nil
  have hkey : n ∈ Table.keys (enums fs) := hkeys (List.mem_map_of_mem h)
  obtain ⟨declared, hfind⟩ := Table.exists_find?_of_mem_keys hkey
  exact ⟨declared, Table.filter_of_find? hnodup hfind,
    (isProper_of_mem_enumsAmong _ _ (mem_enums (Table.mem_of_find? hfind))).1⟩

/-- What the items of a list refer to is collected at the top, like what the document refers to. -/
lemma exists_of_mem_mentioned {kind : DeclarationKind} (h : (kind, n) ∈ mentioned b) :
    ∃ scope fs, ∃ f ∈ fs, (kind, n) ∈ Field.mentionsAt scope f ∧
      enumsAmong scope fs ⊆ enumsAmong [] b.fields ∧ Field.nested fs ⊆ Field.nested b.fields := by
  rcases List.mem_append.1 h with h | h
  · rcases List.mem_append.1 h with h | h
    · obtain ⟨g, hg, h⟩ := List.mem_flatMap.1 h
      obtain ⟨f, hf, h⟩ := List.mem_flatMap.1 h
      exact ⟨g.scope, g.children, f, List.mem_of_mem_filter hf, h, Field.enumsAmong_subset _ _ hg,
        fun _ hmem => Field.mem_nested_trans hmem _ hg⟩
    · obtain ⟨f, hf, h⟩ := List.mem_flatMap.1 h
      exact ⟨[], b.fields, f, List.mem_of_mem_filter hf, h, List.Subset.refl _, List.Subset.refl _⟩
  · obtain ⟨f, hf, h⟩ := List.mem_flatMap.1 h
    exact ⟨[], b.fields, f, hf, h, List.Subset.refl _, List.Subset.refl _⟩

lemma exists_mem_enumsAmong_of_mentioned (h : (.enumeration, n) ∈ mentioned b) :
    ∃ values, (n, values) ∈ enumsAmong [] b.fields := by
  obtain ⟨scope, fs, f, hf, hmention, henums, -⟩ := exists_of_mem_mentioned h
  obtain ⟨values, hvalues⟩ := Field.exists_mem_enumsIn scope f hmention
  exact ⟨values, henums (Field.enumsIn_subset scope hf hvalues)⟩

/-! ## Names that are declared -/

/-- The name of the interface of the document. -/
def documentName (n : Names) : Text := 'I' :: n.className

/-- The name of the type of the model. -/
def modelName (n : Names) : Text := n.className ++ "Model"

/-- The names that an interface file declares, in order. -/
def declaredNames (b : Blueprint) : List Text := (marked b).map Marked.name ++ [modelName b.names]

/-- Texts that end with different characters are different, whatever they start with. -/
lemma append_ne_append_of_getLast? {start rest t u : Text} (ht : t ≠ []) (hu : u ≠ [])
    (h : t.getLast? ≠ u.getLast?) : start ++ t ≠ rest ++ u := by
  intro heq
  have hlast := congrArg List.getLast? heq
  rw [List.getLast?_append_of_ne_nil _ ht, List.getLast?_append_of_ne_nil _ hu] at hlast
  exact h hlast

/-- All that is declared under the name of an enumeration is its own declaration, and the document if it is
called the same. -/
lemma filter_marked (h : (n, values) ∈ enumsAmong [] b.fields) : ∃ declared ≠ [],
    (marked b).filter (fun m => m.name = n) =
      markedEnum (n, declared) :: if documentName b.names = n then [markedDocument b] else [] := by
  obtain ⟨declared, hfilter, hne⟩ := filter_enums h
  obtain ⟨-, start, hname⟩ := isProper_of_mem_enumsAmong _ _ h
  have hitems : ((Field.nested b.fields).map markedItems).filter (fun m => m.name = n) = [] :=
    List.filter_eq_nil_iff.2 fun m hm heq => by
      obtain ⟨f, -, rfl⟩ := List.mem_map.1 hm
      have hends : Text.capitalizeFirst f.name ++ "Item".toList = start ++ "Enum".toList :=
        (of_decide_eq_true heq).trans hname
      exact absurd (List.append_inj_right' hends rfl) (by decide)
  have henums : ((enums b.fields).map markedEnum).filter (fun m => m.name = n) = [markedEnum (n, declared)] := by
    rw [List.filter_map]
    exact congrArg (List.map markedEnum) hfilter
  have hfilters : (markedFilters b).filter (fun m => m.name = n) = [] := by
    unfold markedFilters
    split
    · rfl
    · refine List.filter_eq_nil_iff.2 fun m hm heq => ?_
      obtain rfl := List.mem_singleton.1 hm
      have hends : 'I' :: b.names.className ++ "Filterables".toList = start ++ "Enum".toList :=
        (of_decide_eq_true heq).trans hname
      exact append_ne_append_of_getLast? (by decide) (by decide) (by decide) hends
  have hdocument : [markedDocument b].filter (fun m => m.name = n) =
      if documentName b.names = n then [markedDocument b] else [] := by
    have hname : (markedDocument b).name = documentName b.names := rfl
    simp only [List.filter_cons, hname, decide_eq_true_eq, List.filter_nil]
  refine ⟨declared, hne, ?_⟩
  rw [marked, List.filter_append, List.filter_append, List.filter_append, hitems, henums, hfilters, hdocument]
  rfl

/-- The name of an enumeration is declared once, and once more if it is the name of the document. -/
lemma count_declaredNames (h : (n, values) ∈ enumsAmong [] b.fields) :
    (declaredNames b).count n = if documentName b.names = n then 2 else 1 := by
  obtain ⟨declared, -, hfilter⟩ := filter_marked h
  obtain ⟨-, start, hname⟩ := isProper_of_mem_enumsAmong _ _ h
  have hmodel : modelName b.names ≠ n := fun heq =>
    append_ne_append_of_getLast? (by decide) (by decide) (by decide) (heq.trans hname)
  have hmarked : ((marked b).map Marked.name).count n = ((marked b).filter fun m => m.name = n).length := by
    simp only [List.count, List.countP_eq_length_filter, beq_eq_decide, List.filter_map, List.length_map]
    rfl
  rw [declaredNames, List.count_append, hmarked, hfilter, List.count_eq_zero.2 (by simpa using hmodel.symm)]
  split <;> rfl

/-- The last line of an interface file declares the type of the model, for the documents of the file. -/
lemma modelType_eq (n : Names) : modelType n ++ ['\n'] =
    "export type " ++ (modelName n ++ (" = Model<" ++ (documentName n ++ ", \x7b\x7d, \x7b\x7d>;\n"))) := by
  delta modelType modelName documentName
  simp only [List.append_assoc]
  -- the texts around the class name are split in other places on the two sides
  refine congrArg (fun t => "export type ".toList ++ (n.className ++ t)) ?_
  exact congrArg (fun t => "Model = Model<I".toList ++ (n.className ++ t)) rfl

/-- **Every type in the interface file is declared**, and an enumeration exactly once unless the document is
called the same.  The file is an import, a sequence of declarations and the type of the model; the declarations
refer to the types that their fields refer to; the interface of every list of objects that is referred to is
declared; so is every enumeration, with a member for each of at least one value.  And the names of enumerations
are declared once, counting declarations of every kind, if and only if none that is referred to is the name of
the document. -/
theorem types_are_declared_iff (b : Blueprint) :
    file b = opening ++ ((marked b).flatMap (fun m => m.block.text) ++
        ("export type " ++ (modelName b.names ++ (" = Model<" ++ (documentName b.names ++
          ", \x7b\x7d, \x7b\x7d>;\n"))))) ∧
      (marked b).flatMap Marked.references = (mentioned b).map Prod.snd ∧
      (∀ n, (.interface, n) ∈ mentioned b →
        ∃ f ∈ Field.nested b.fields, f.itemTypeName = n ∧ markedItems f ∈ marked b) ∧
      (∀ n, (.enumeration, n) ∈ mentioned b → ∃ values ≠ [],
        markedEnum (n, values) ∈ marked b ∧ (Members.ofValues values).map Prod.snd = values) ∧
      ((∀ n, (.enumeration, n) ∈ mentioned b → (declaredNames b).count n = 1) ↔
        (.enumeration, documentName b.names) ∉ mentioned b) := by
  refine ⟨?_, flatMap_references_marked b, fun n hn => ?_, fun n hn => ?_, fun honce hdocument => ?_,
    fun hnot n hn => ?_⟩
  · rw [file_eq, ← map_block_marked, List.flatMap_map, modelType_eq]
  · obtain ⟨scope, fs, f, hf, hmention, -, hnested⟩ := exists_of_mem_mentioned hn
    obtain ⟨g, hg, hname⟩ := Field.exists_mem_nestedIn scope f hmention
    have hmem : g ∈ Field.nested b.fields := by
      refine hnested ?_
      rw [Field.nested_eq_flatMap]
      exact List.mem_flatMap_of_mem hf hg
    exact ⟨g, hmem, hname, by simp [marked, List.mem_map_of_mem hmem]⟩
  · obtain ⟨values, hvalues⟩ := exists_mem_enumsAmong_of_mentioned hn
    obtain ⟨declared, hne, hfilter⟩ := filter_marked hvalues
    have hmem : markedEnum (n, declared) ∈ (marked b).filter fun m => m.name = n := by
      rw [hfilter]
      exact List.mem_cons_self
    exact ⟨declared, hne, List.mem_of_mem_filter hmem, Members.map_snd_assign declared []⟩
  · obtain ⟨values, hvalues⟩ := exists_mem_enumsAmong_of_mentioned hdocument
    have htwice := count_declaredNames hvalues
    rw [honce _ hdocument, if_pos rfl] at htwice
    cases htwice
  · obtain ⟨values, hvalues⟩ := exists_mem_enumsAmong_of_mentioned hn
    rw [count_declaredNames hvalues, if_neg]
    intro hname
    exact hnot (hname ▸ hn)

/-- In the module called `enum`, the type of an enumeration `i` and the interface of the document have one
name. -/
theorem enum_is_declared_twice :
    Names.ofRaw? "enum" = some ⟨"enum", "Enum", "enum"⟩ ∧
      let b := Blueprint.ofFields ⟨"enum", "Enum", "enum"⟩ (Parsed.ofTokens ["i:enum[a,b]".toList]).fields false
      (.enumeration, "IEnum".toList) ∈ mentioned b ∧
        declaredNames b = ["IEnum", "IEnumFilterables", "IEnum", "EnumModel"] :=
  ⟨by decide +kernel, by decide +kernel, by decide +kernel⟩

end Interface

end Scaffold
