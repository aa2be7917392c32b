import Scaffold.Proofs.Artifact.MatchedTypes
import Scaffold.Proofs.Recovery.Scope
import Scaffold.Proofs.Router.Phrases

/-!
# Interface files are read back at every depth

The brackets of every type match, so a block ends where it was closed and a line is cut where it ended, however deep
the tree of fields is.  What is read from the interface file of a module is then what was printed: the blocks, the
properties of every interface, and the values of every enumeration (`readsBack_iff`).

The one condition is on the name of the module.  It may have a dollar sign, and then the header of the document is
not recognised: a name is read as a word.
-/

namespace Scaffold

/-! ## Lines of an interface -/

namespace Recovery

/-- The text of a property, as it stands in a line of an interface. -/
structure IsPropertyLine (l : Text) : Prop where
  matched : Matched false l
  trim_eq : Text.trim l = l
  isSome : (property? l).isSome = true

lemma isPropertyLine {w t : Text} (hne : w ≠ []) (hname : ∀ c ∈ w, Text.isWord c = true)
    (isOptional : Bool) (ht : TypeScript.IsMatchedType t) :
    IsPropertyLine (TypeScript.propertyName isOptional w ++ ": " ++ t) := by
  have hchars : ∀ c ∈ w, Text.isNameChar c = true := fun c hc => Text.isNameChar_of_isWord (hname c hc)
  obtain ⟨d, u, rfl, -⟩ := ht.head
  refine ⟨TypeScript.matched_line hchars isOptional ht, Text.trim_eq_self (fun c hc => ?_) fun c hc => ?_,
    by rw [property?_append hname hne isOptional ht.isTypeLine]; rfl⟩
  · obtain ⟨e, v, rfl⟩ := List.exists_cons_of_ne_nil hne
    have hhead : c = e := by cases isOptional <;> exact (Option.some.inj hc).symm
    rw [hhead]
    exact Text.isBlank_eq_false_of_isNameChar (hchars e (by simp))
  · rw [List.getLast?_append_of_ne_nil _ (List.cons_ne_nil d u)] at hc
    exact (ht.last c hc).1

/-- The body of an interface with the given properties. -/
def interfaceBody (ls : List Text) : Text := '\n' :: ls.flatMap fun l => Code.indent 2 (l ++ [';']) ++ ['\n']

variable {l : Text} {ls : List Text}

lemma matched_indent (h : Matched false l) : Matched false (Code.indent 2 l) :=
  Matched.append (t := [' ', ' ']) (matched_of_all (by decide)) h

lemma IsPropertyLine.isLine (h : IsPropertyLine l) : IsLine l where
  closed := h.matched.isClosed
  trim_eq := h.trim_eq
  kept := by
    obtain ⟨p, hp⟩ := Option.isSome_iff_exists.1 h.isSome
    cases l with
    | nil => cases hp
    | cons c t =>
      have hc : ¬ ('/' = c) := by
        rintro rfl
        rw [property?, word?_cons_of_not_word (by decide)] at hp
        cases hp
      have hstart : Text.startsWith "//".toList (c :: t) = false := by
        show ('/' == c && _) = false
        simp [hc]
      rw [hstart]
      rfl

/-- **The lines of an interface** are read one by one. -/
lemma properties_interfaceBody (h : ∀ l ∈ ls, IsPropertyLine l) :
    properties (interfaceBody ls) = ls.filterMap property? := by
  rw [properties, interfaceBody, members_flatMap_lines fun l hl => (h l hl).isLine]

lemma isBraced_interfaceBody (h : ∀ l ∈ ls, IsPropertyLine l) : IsBraced (interfaceBody ls) := by
  refine .plain (by decide) (by decide) ?_
  induction ls with
  | nil => exact .nil
  | cons l ls ih =>
    have hend : IsBraced [';', '\n'] := isBraced_of_not_mem (by decide) (by decide)
    have hline : Code.indent 2 (l ++ [';']) ++ ['\n'] = Code.indent 2 l ++ [';', '\n'] := by simp [Code.indent]
    rw [List.flatMap_cons, hline]
    exact ((matched_indent (h l (by simp)).matched).isBraced.append hend).append (ih fun m hm => h m (by simp [hm]))

end Recovery

/-! ## Declared enumerations -/

namespace Interface

open Recovery

variable {b : Blueprint} {n : Names} {scope : Text} {f : Field} {fs fields : List Field} {upload : Bool}

/-- An enumeration whose declaration is read back: its name is a word, and it has values, none of them empty. -/
structure IsLegibleEnum (e : Text × List Text) : Prop where
  name_ne_nil : e.1 ≠ []
  name_word : ∀ c ∈ e.1, Text.isAsciiWord c = true
  values_ne_nil : e.2 ≠ []
  values : ∀ v ∈ e.2, v ≠ [] ∧ '{' ∉ v ∧ '}' ∉ v

lemma isLegibleEnum_of_mem_enumAt (hscope : ∀ c ∈ scope, Text.isAsciiWord c = true) (h : f.IsLegible)
    {e : Text × List Text} (he : e ∈ enumAt scope f) : IsLegibleEnum e := by
  unfold enumAt at he
  split at he
  · rename_i hvalues
    obtain rfl := List.mem_singleton.1 he
    exact ⟨List.append_ne_nil_of_right_ne_nil _ (by decide), Field.isAsciiWord_enumTypeName hscope h.name_word,
      by simpa [Field.hasValues] using hvalues, h.values⟩
  · cases he

mutual

lemma isLegibleEnum_of_mem_enumsIn : ∀ (scope : Text) (f : Field), (∀ c ∈ scope, Text.isAsciiWord c = true) →
    f.IsLegible → ∀ e ∈ enumsIn scope f, IsLegibleEnum e
  | scope, ⟨name, isRequired, isOptional, kind, children⟩, hscope, h, e, he => by
    have hchildren := isLegibleEnum_of_mem_enumsAmong (Field.scopeOf name kind children) children
      (Field.isAsciiWord_scopeOf h.name_word kind children) h.children e
    rw [enumsIn_eq, List.mem_append] at he
    exact he.elim hchildren (isLegibleEnum_of_mem_enumAt hscope h)
termination_by structural _ f => f

lemma isLegibleEnum_of_mem_enumsAmong : ∀ (scope : Text) (fs : List Field),
    (∀ c ∈ scope, Text.isAsciiWord c = true) → (∀ f ∈ fs, f.IsLegible) →
      ∀ e ∈ enumsAmong scope fs, IsLegibleEnum e
  | _, [], _, _, e, he => absurd he List.not_mem_nil
  | scope, f :: fs, hscope, h, e, he => by
    have hf := isLegibleEnum_of_mem_enumsIn scope f hscope (h f (by simp)) e
    have hfs := isLegibleEnum_of_mem_enumsAmong scope fs hscope (fun g hg => h g (by simp [hg])) e
    rw [enumsAmong, List.mem_append] at he
    exact he.elim hf hfs
termination_by structural _ fs => fs

end

lemma isLegibleEnum_of_mem_enums (h : ∀ f ∈ fs, f.IsLegible) {e : Text × List Text} (he : e ∈ enums fs) :
    IsLegibleEnum e :=
  isLegibleEnum_of_mem_enumsAmong [] fs (by simp) h e (mem_enums he)

lemma memberValues_enumDeclaration {e : Text × List Text} (h : IsLegibleEnum e) :
    memberValues (enumDeclaration e).body = e.2 := by
  have hbody : (enumDeclaration e).body =
      '\n' :: (Members.ofValues e.2).flatMap fun m => memberLine m ++ ['\n'] := by
    rw [enumDeclaration, Block.ofLines, List.flatMap_map]
  rw [hbody, Members.ofValues, memberValues_lines (Members.isWord_assign e.2 []), Members.map_snd_assign,
    List.filter_eq_self]
  intro v hv
  simpa using (h.values v hv).1

lemma isReadable_enumDeclaration {e : Text × List Text} (h : IsLegibleEnum e) : (enumDeclaration e).IsReadable := by
  have hbrace : ∀ c, c = '{' ∨ c = '}' → c ∉ (enumDeclaration e).body := by
    intro c hc
    refine List.not_mem_cons_of_ne_of_not_mem (by rcases hc with rfl | rfl <;> decide) fun hmem => ?_
    rcases mem_memberLines hmem with hmem | hmem | ⟨v, hv, hmem⟩
    · rcases hc with rfl | rfl <;> exact absurd hmem (by decide)
    · rcases hc with rfl | rfl <;> exact absurd hmem (by decide)
    · rcases hc with rfl | rfl
      · exact (h.values v hv).2.1 hmem
      · exact (h.values v hv).2.2 hmem
  exact ⟨h.name_ne_nil, fun c hc => Text.isWord_of_isAsciiWord (h.name_word c hc),
    isBraced_of_not_mem (hbrace '{' (.inl rfl)) (hbrace '}' (.inr rfl))⟩

/-- **The enumerations** of the declarations are those that are declared. -/
lemma enumerations_declarations (h : ∀ f ∈ b.fields, f.IsLegible) :
    enumerations (declarations b) = enums b.fields := by
  set read? : Block → Option (Text × List Text) := fun d =>
    if (memberValues d.body).isEmpty then none else some (d.name, memberValues d.body) with hread
  have hkind : (fun d : Block => if d.kind = .enumeration && !(memberValues d.body).isEmpty then
      some (d.name, memberValues d.body) else none) =
      fun d => if decide (d.kind = .enumeration) then read? d else none := by
    funext d
    simp only [hread]
    cases decide (d.kind = .enumeration) <;> cases (memberValues d.body).isEmpty <;> rfl
  have henums : ∀ e ∈ enums b.fields, (read? ∘ enumDeclaration) e = some e := by
    intro e he
    have hlegible := isLegibleEnum_of_mem_enums h he
    have hvalues : e.2.isEmpty = false := List.isEmpty_eq_false_iff.2 hlegible.values_ne_nil
    simp only [hread, Function.comp, memberValues_enumDeclaration hlegible, hvalues]
    rfl
  have hnodup : (Table.keys (enums b.fields)).Nodup :=
    (Table.foldl_putNew (t := []) (enumsAmong [] b.fields) List.nodup_nil).1
  rw [enumerations, hkind, ← List.filterMap_filter, filter_enumeration, List.filterMap_map,
    List.filterMap_congr henums, List.filterMap_some, Table.ofEntries_of_nodup hnodup]

/-! ## Declared interfaces -/

/-- The interfaces that are printed, with their properties. -/
def printed (b : Blueprint) : List (Text × List Property) :=
  (Field.nested b.fields).map (fun f => (f.itemTypeName, (Field.visible f.children).map (propertyOf f.scope))) ++
    (if b.filterable.isEmpty then []
      else [('I' :: b.names.className ++ "Filterables",
        ⟨"searchTerm", true, "string"⟩ :: b.filterable.map fun f => propertyOf [] { f with isOptional := true })]) ++
    [('I' :: b.names.className, identity :: b.fields.map (propertyOf []))]

lemma isPropertyLine_property (hscope : ∀ c ∈ scope, Text.isAsciiWord c = true) (h : f.IsLegible) :
    IsPropertyLine (TypeScript.property scope f) :=
  isPropertyLine h.name_ne_nil (fun c hc => Text.isWord_of_isAsciiWord (h.name_word c hc)) f.isOptional
    (TypeScript.isMatchedType_type scope f hscope h)

lemma filterMap_property_of_isLegible (hscope : ∀ c ∈ scope, Text.isAsciiWord c = true)
    (h : ∀ f ∈ fs, f.IsLegible) :
    (fs.map (TypeScript.property scope)).filterMap property? = fs.map (propertyOf scope) := by
  rw [List.filterMap_map, ← List.filterMap_eq_map']
  exact List.filterMap_congr fun f hf => property?_append
    (fun c hc => Text.isWord_of_isAsciiWord ((h f hf).name_word c hc)) (h f hf).name_ne_nil f.isOptional
    (TypeScript.isMatchedType_type scope f hscope (h f hf)).isTypeLine

lemma flatMap_propertyLine (scope : Text) (fs : List Field) :
    ((fs.map (propertyLine scope)).flatMap fun l => l ++ ['\n']) =
      (fs.map (TypeScript.property scope)).flatMap fun l => Code.indent 2 (l ++ [';']) ++ ['\n'] := by
  rw [List.flatMap_map, List.flatMap_map]
  rfl

lemma body_itemDeclaration (f : Field) : (itemDeclaration f).body =
    interfaceBody ((Field.visible f.children).map (TypeScript.property f.scope)) := by
  rw [interfaceBody, ← flatMap_propertyLine]
  rfl

/-- The properties of the filters. -/
def filterLines (b : Blueprint) : List Text :=
  "searchTerm?: string".toList :: (b.filterable.map fun f => { f with isOptional := true }).map (TypeScript.property [])

lemma filterDeclarations_eq (b : Blueprint) : filterDeclarations b =
    if b.filterable.isEmpty then []
    else [⟨.interface, 'I' :: b.names.className ++ "Filterables", interfaceBody (filterLines b)⟩] := by
  unfold filterDeclarations
  split
  · rename_i hfilter
    rw [hfilter]
    rfl
  · rename_i f fs hfilter
    rw [hfilter, interfaceBody, filterLines, hfilter, List.flatMap_cons, ← flatMap_propertyLine, List.map_map]
    rfl

/-- The properties of the document. -/
def documentLines (b : Blueprint) : List Text :=
  "_id: Types.ObjectId".toList :: b.fields.map (TypeScript.property [])

lemma body_documentDeclaration_of_ne_nil (h : b.fields ≠ []) :
    (documentDeclaration b).body = interfaceBody (documentLines b) := by
  have hnot : b.fields.isEmpty = false := List.isEmpty_eq_false_iff.2 h
  rw [body_documentDeclaration, documentHead, hnot, interfaceBody, documentLines, List.flatMap_cons,
    ← flatMap_propertyLine]
  rfl

lemma isPropertyLine_of_mem_map (hscope : ∀ c ∈ scope, Text.isAsciiWord c = true) (h : ∀ f ∈ fs, f.IsLegible) :
    ∀ l ∈ fs.map (TypeScript.property scope), IsPropertyLine l := by
  intro l hl
  obtain ⟨f, hf, rfl⟩ := List.mem_map.1 hl
  exact isPropertyLine_property hscope (h f hf)

lemma isLegible_of_mem_filters (h : ∀ f ∈ b.fields, f.IsLegible) :
    ∀ f ∈ b.filterable.map fun f => { f with isOptional := true }, f.IsLegible := by
  intro f hf
  obtain ⟨g, hg, rfl⟩ := List.mem_map.1 hf
  exact (h g (List.mem_of_mem_filter hg)).optional

lemma isPropertyLine_of_mem_filterLines (h : ∀ f ∈ b.fields, f.IsLegible) :
    ∀ l ∈ filterLines b, IsPropertyLine l := by
  refine List.forall_mem_cons.2 ⟨?_, isPropertyLine_of_mem_map (by simp) (isLegible_of_mem_filters h)⟩
  exact isPropertyLine (w := "searchTerm") (by decide) (Text.forall_mem_of_all (by decide)) true
    (TypeScript.TypeShape.name TypeScript.isName_string).isMatchedType

lemma isPropertyLine_of_mem_documentLines (h : ∀ f ∈ b.fields, f.IsLegible) :
    ∀ l ∈ documentLines b, IsPropertyLine l := by
  refine List.forall_mem_cons.2 ⟨?_, isPropertyLine_of_mem_map (by simp) h⟩
  exact isPropertyLine (w := "_id") (by decide) (Text.forall_mem_of_all (by decide)) false
    (TypeScript.TypeShape.fixed (t := TypeScript.referenceName) (by decide)).isMatchedType

lemma isLegible_children (h : f.IsLegible) : ∀ g ∈ Field.visible f.children, g.IsLegible :=
  fun g hg => h.children g (List.mem_of_mem_filter hg)

lemma isAsciiWord_scope (h : f.IsLegible) : ∀ c ∈ f.scope, Text.isAsciiWord c = true :=
  Field.isAsciiWord_scopeOf h.name_word f.kind f.children

lemma properties_itemDeclaration (h : f.IsLegible) :
    properties (itemDeclaration f).body = (Field.visible f.children).map (propertyOf f.scope) := by
  rw [body_itemDeclaration,
    properties_interfaceBody (isPropertyLine_of_mem_map (isAsciiWord_scope h) (isLegible_children h)),
    filterMap_property_of_isLegible (isAsciiWord_scope h) (isLegible_children h)]

lemma properties_filterLines (h : ∀ f ∈ b.fields, f.IsLegible) : properties (interfaceBody (filterLines b)) =
    ⟨"searchTerm", true, "string"⟩ :: b.filterable.map fun f => propertyOf [] { f with isOptional := true } := by
  have hterm : property? "searchTerm?: string" = some ⟨"searchTerm", true, "string"⟩ := by decide
  rw [properties_interfaceBody (isPropertyLine_of_mem_filterLines h), filterLines, List.filterMap_cons, hterm,
    filterMap_property_of_isLegible (by simp) (isLegible_of_mem_filters h), List.map_map]
  rfl

lemma properties_documentDeclaration (h : ∀ f ∈ b.fields, f.IsLegible) :
    properties (documentDeclaration b).body = identity :: b.fields.map (propertyOf []) := by
  rcases eq_or_ne b.fields [] with hempty | hne
  · have hclosed : properties ('\n' :: (Code.indent 2 "_id: Types.ObjectId;" ++ ['\n'] ++
        (Code.indent 2 "// Define interface properties here" ++ ['\n']))) = [identity] := by
      decide
    rw [body_documentDeclaration, documentHead, hempty]
    exact hclosed
  · have hid : property? "_id: Types.ObjectId" = some identity := by decide
    rw [body_documentDeclaration_of_ne_nil hne, properties_interfaceBody (isPropertyLine_of_mem_documentLines h),
      documentLines, List.filterMap_cons, hid, filterMap_property_of_isLegible (by simp) h]

/-- **The interfaces** of the declarations have the properties that were printed. -/
lemma interfaces_declarations (h : ∀ f ∈ b.fields, f.IsLegible) :
    (interfaces (declarations b)).map (fun i => (i.1, properties i.2)) = printed b := by
  have hitems : ((Field.nested b.fields).map itemDeclaration).map (fun d => (d.name, properties d.body)) =
      (Field.nested b.fields).map fun f => (f.itemTypeName, (Field.visible f.children).map (propertyOf f.scope)) := by
    rw [List.map_map]
    refine List.map_congr_left fun f hf => ?_
    exact congrArg (f.itemTypeName, ·) (properties_itemDeclaration (Field.isLegible_of_mem_nested _ h f hf))
  have hfilters : (filterDeclarations b).map (fun d => (d.name, properties d.body)) =
      if b.filterable.isEmpty then []
      else [('I' :: b.names.className ++ "Filterables",
        ⟨"searchTerm", true, "string"⟩ :: b.filterable.map fun f => propertyOf [] { f with isOptional := true })] := by
    rw [filterDeclarations_eq]
    split
    · rfl
    · rw [List.map_singleton, properties_filterLines h]
  have hdocument : [documentDeclaration b].map (fun d => (d.name, properties d.body)) =
      [('I' :: b.names.className, identity :: b.fields.map (propertyOf []))] := by
    rw [List.map_singleton, properties_documentDeclaration h]
    rfl
  rw [interfaces, filter_declarations, List.map_map, printed, ← hitems, ← hfilters, ← hdocument, ← List.map_append,
    ← List.map_append]
  rfl

/-! ## The whole file -/

lemma isReadable_of_mem_declarations (h : ∀ f ∈ b.fields, f.IsLegible)
    (hclass : ∀ c ∈ b.names.className, Text.isWord c = true) : ∀ d ∈ declarations b, d.IsReadable := by
  have hI : ∀ c ∈ 'I' :: b.names.className, Text.isWord c = true := List.forall_mem_cons.2 ⟨by decide, hclass⟩
  intro d hd
  simp only [declarations, List.mem_append, List.mem_map, List.mem_singleton] at hd
  rcases hd with ((⟨f, hf, rfl⟩ | ⟨e, he, rfl⟩) | hd) | rfl
  · have hlegible := Field.isLegible_of_mem_nested _ h f hf
    refine ⟨List.append_ne_nil_of_right_ne_nil _ (by decide), fun c hc => ?_, ?_⟩
    · exact Text.isWord_of_isAsciiWord (Field.isAsciiWord_itemTypeNameOf hlegible.name_word c hc)
    · rw [body_itemDeclaration]
      exact isBraced_interfaceBody (isPropertyLine_of_mem_map (isAsciiWord_scope hlegible)
        (isLegible_children hlegible))
  · exact isReadable_enumDeclaration (isLegibleEnum_of_mem_enums h he)
  · rw [filterDeclarations_eq] at hd
    split at hd
    · cases hd
    · obtain rfl := List.mem_singleton.1 hd
      have hend : ∀ c ∈ "Filterables".toList, Text.isWord c = true := Text.forall_mem_of_all (by decide)
      exact ⟨List.cons_ne_nil _ _, fun c hc => (List.mem_append.1 hc).elim (hI c) (hend c),
        isBraced_interfaceBody (isPropertyLine_of_mem_filterLines h)⟩
  · refine ⟨List.cons_ne_nil _ _, hI, ?_⟩
    rcases eq_or_ne b.fields [] with hempty | hne
    · rw [body_documentDeclaration, documentHead, hempty]
      exact isBraced_of_not_mem (by decide) (by decide)
    · rw [body_documentDeclaration_of_ne_nil hne]
      exact isBraced_interfaceBody (isPropertyLine_of_mem_documentLines h)

/-- **The blocks of a file** are its declarations. -/
lemma blocks_file_of_isLegible (h : ∀ f ∈ b.fields, f.IsLegible) (hname : Text.IsName b.names.className)
    (hclass : ∀ c ∈ b.names.className, Text.isWord c = true) : blocks (file b) = declarations b := by
  rw [file_eq, blocks, all_append_of_inert (inert_block inert_opening), ← blocks,
    blocks_flatMap_of_isReadable (isReadable_of_mem_declarations h hclass), blocks,
    all_of_inert (inert_block (inert_modelType hname)), List.append_nil]

/-- What is read from an interface file is what was printed: the declarations in order, the properties of every
interface in order, and the values of every enumeration. -/
structure ReadsBack (b : Blueprint) : Prop where
  blocks_eq : blocks (file b) = declarations b
  interfaces_eq : (interfaces (blocks (file b))).map (fun i => (i.1, properties i.2)) = printed b
  enumerations_eq : enumerations (blocks (file b)) = enums b.fields

/-- **The interface file of a module is read back**, for legible fields of any depth, exactly if the name of the
module has no dollar sign. -/
theorem readsBack_iff (hn : n.IsModule) (h : ∀ f ∈ fields, f.IsLegible) :
    ReadsBack (.ofFields n fields upload) ↔ '$' ∉ n.className := by
  set b : Blueprint := .ofFields n fields upload
  have hname : Text.IsName n.className := by
    obtain ⟨⟨raw, hraw⟩, hfolder⟩ := hn
    exact ⟨Names.className_ne_nil hraw (Text.ne_nil_of_isExactIdentifier hfolder),
      fun c hc => Names.isNameChar_of_mem_className hraw hfolder hc⟩
  constructor
  · intro hread hdollar
    have hmem : documentDeclaration b ∈ blocks (file b) := by
      rw [hread.blocks_eq]
      exact List.mem_append_right _ (List.mem_singleton_self _)
    exact absurd (isWord_of_mem_blocks hmem '$' (List.mem_cons_of_mem _ hdollar)) (by decide)
  · intro hdollar
    have hlegible : ∀ f ∈ b.fields, f.IsLegible := fun f hf => h f (List.mem_of_mem_filter hf)
    have hclass : ∀ c ∈ n.className, Text.isWord c = true := by
      intro c hc
      have := hname.2 c hc
      simp only [Text.isNameChar, Bool.or_eq_true, beq_iff_eq] at this
      exact this.resolve_right fun heq => hdollar (heq ▸ hc)
    have hblocks : blocks (file b) = declarations b := blocks_file_of_isLegible hlegible hname hclass
    exact ⟨hblocks, by rw [hblocks, interfaces_declarations hlegible],
      by rw [hblocks, enumerations_declarations hlegible]⟩

/-- A list of objects with an enumeration whose values have quotes and backslashes, and an object in an object. -/
def parcelField : Field :=
  ⟨"parcels", true, false, .list none (some objectTag),
    [.leaf "state" false true (.enumeration (some ["it's", "a\\b", "it's"])),
      ⟨"place", true, false, .record,
        [.leaf "street" true false (.scalar .string),
          ⟨"point", false, true, .record,
            [.leaf "x" true false (.scalar .number), .leaf "extra" false false .record]⟩]⟩]⟩

theorem readsBack_parcels :
    let user : Names := ⟨"User", "User", "user"⟩
    user.IsModule ∧ (∀ f ∈ [parcelField], f.IsLegible) ∧ '$' ∉ user.className ∧
      ReadsBack (.ofFields user [parcelField] false) := by
  intro user
  have huser : user.IsModule := ⟨⟨"User", by decide⟩, by decide⟩
  have hlegible : ∀ f ∈ [parcelField], f.IsLegible := by
    repeat' first
      | refine .intro (by decide) (Text.forall_mem_of_all (by decide)) (by decide) ?_
      | refine List.forall_mem_cons.2 ⟨?_, ?_⟩
      | exact nofun
  have hdollar : '$' ∉ user.className := by decide
  exact ⟨huser, hlegible, hdollar, (readsBack_iff huser hlegible).2 hdollar⟩

/-- Of a module with a dollar sign in its name, nothing is read. -/
theorem not_readsBack_dollar :
    let n : Names := ⟨"us$er", "Us$er", "us$er"⟩
    n.IsModule ∧ declarations (.ofFields n [] false) ≠ [] ∧ blocks (file (.ofFields n [] false)) = [] ∧
      ¬ ReadsBack (.ofFields n [] false) := by
  intro n
  have hn : n.IsModule := ⟨⟨"us$er", by decide⟩, by decide⟩
  have hprinted : declarations (.ofFields n [] false) ≠ [] := by decide
  have hread : blocks (file (.ofFields n [] false)) = [] := by decide
  exact ⟨hn, hprinted, hread, fun h => hprinted (h.blocks_eq.symm.trans hread)⟩

end Interface

end Scaffold
