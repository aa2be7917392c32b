import Scaffold.OpenApi.Document
import Scaffold.Proofs.OpenApi.References

/-!
# Two modules in one API document

All modules write their schemas into one table, and the schema of the items of a list is named after
the field alone.  So the update of one module can rewrite a schema that another module refers to.
`keeps_iff` says exactly when it does not: the modules have no path in common, and wherever the
second one has a schema of a name that the paths of the first one lead to, it is the same schema.

That an undisturbed module leads to nothing but its own schemas is the closedness of its entries
(`Reaches.exists_schema`); the two tables, before and after, then lead to the same names because
every schema on the way is the same.
-/

namespace Scaffold.OpenApi

/-! ## What a merge does to paths and schemas -/

/-- A document whose paths and component schemas are objects. -/
structure IsDocument (document : Json) : Prop where
  isObject : ∃ members, document = .obj members
  hasPaths : ∃ paths, document.get? "paths" = some (.obj paths)
  hasSchemas : ∃ components schemas, document.get? "components" = some (.obj components) ∧
    Json.Members.find? "schemas" components = some (.obj schemas)

/-- The members of an object that is a member. -/
def membersOf : Option Json → Json.Members
  | some (.obj members) => members
  | _ => []

/-- The paths of a document. -/
def pathsOf (document : Json) : Json.Members := membersOf (document.get? "paths")

/-- The component schemas of a document. -/
def schemasOf (document : Json) : Json.Members :=
  membersOf (Json.Members.find? "schemas" (membersOf (document.get? "components")))

variable {document first second : Json} {a b : Names} {fieldsA fieldsB : List Field} {name path : Text}

lemma find?_put (key other : Text) (value : Json) (members : Json.Members) :
    Table.find? other (Json.Members.put key value members) =
      if key = other then some value else Table.find? other members :=
  Table.find?_put key other value members

/-- A document whose paths and component schemas are objects or absent. -/
structure IsMergeable (document : Json) : Prop where
  isObject : ∃ members, document = .obj members
  paths : document.get? "paths" = none ∨ ∃ paths, document.get? "paths" = some (.obj paths)
  components : document.get? "components" = none ∨ ∃ components,
    document.get? "components" = some (.obj components) ∧
      (Json.Members.find? "schemas" components = none ∨
        ∃ schemas, Json.Members.find? "schemas" components = some (.obj schemas))

lemma IsDocument.isMergeable (h : IsDocument document) : IsMergeable document where
  isObject := h.isObject
  paths := .inr h.hasPaths
  components := by
    obtain ⟨components, schemas, hcomponents, hschemas⟩ := h.hasSchemas
    exact .inr ⟨components, hcomponents, .inr ⟨schemas, hschemas⟩⟩

lemma orEmptyObject_obj (members : Json.Members) :
    Json.orEmptyObject (some (.obj members)) = .obj members := by
  cases members <;> rfl

/-- What is absent counts as an object without members. -/
lemma orEmptyObject_of_absent_or_obj {v : Option Json} (h : v = none ∨ ∃ members, v = some (.obj members)) :
    Json.orEmptyObject v = .obj (membersOf v) := by
  rcases h with rfl | ⟨members, rfl⟩
  · rfl
  · exact orEmptyObject_obj members

lemma overlaid_of_absent_or_obj {v : Option Json} (h : v = none ∨ ∃ members, v = some (.obj members))
    (written : Json.Members) :
    overlaid v (.obj written) = .ok (.obj (Table.overlay (membersOf v) written)) := by
  rw [overlaid, orEmptyObject_of_absent_or_obj h]
  rfl

/-- Paths and schemas are written over those of a document, which then has both. -/
lemma IsMergeable.merge (h : IsMergeable document) (ps ss : Json.Members) :
    ∃ merged, merge document (.obj ps) (.obj ss) = .ok merged ∧ IsDocument merged ∧
      pathsOf merged = Table.overlay (pathsOf document) ps ∧
      schemasOf merged = Table.overlay (schemasOf document) ss := by
  obtain ⟨members, rfl⟩ := h.isObject
  let components := membersOf (Table.find? "components".toList members)
  let mergedPaths := Table.overlay (pathsOf (.obj members)) ps
  let mergedSchemas := Table.overlay (schemasOf (.obj members)) ss
  have hcomponents : Table.find? "components".toList members = none ∨
      ∃ cs, Table.find? "components".toList members = some (.obj cs) :=
    h.components.imp_right fun ⟨cs, hcs, _⟩ => ⟨cs, hcs⟩
  have hschemas : Json.Members.find? "schemas" components = none ∨
      ∃ ss, Json.Members.find? "schemas" components = some (.obj ss) := by
    rcases h.components with hnone | ⟨cs, hcs, hss⟩
    · have hnone : Table.find? "components".toList members = none := hnone
      exact .inl (by simp only [components, hnone]; rfl)
    · have hcs : Table.find? "components".toList members = some (.obj cs) := hcs
      simp only [components, hcs]
      exact hss
  have hpaths' : overlaid (Table.find? "paths".toList members) (.obj ps) = .ok (.obj mergedPaths) :=
    overlaid_of_absent_or_obj h.paths ps
  have hschemas' : overlaid (Json.Members.find? "schemas" components) (.obj ss) = .ok (.obj mergedSchemas) :=
    overlaid_of_absent_or_obj hschemas ss
  refine ⟨.obj (Json.Members.put "components"
    (.obj (Json.Members.put "schemas" (.obj mergedSchemas) components))
    (Json.Members.put "paths" (.obj mergedPaths) members)), ?_, ⟨⟨_, rfl⟩, ⟨mergedPaths, ?_⟩,
      ⟨Json.Members.put "schemas" (.obj mergedSchemas) components, mergedSchemas, ?_, ?_⟩⟩, ?_, ?_⟩
  · simp only [OpenApi.merge, Json.copyMembers, Json.member?, bind, Except.bind, hpaths',
      orEmptyObject_of_absent_or_obj hcomponents]
    rw [hschemas']
    rfl
  · rw [Json.get?, find?_put, if_neg (by decide), find?_put, if_pos rfl]
  · rw [Json.get?, find?_put, if_pos rfl]
  · rw [Json.Members.find?, find?_put, if_pos rfl]
  · rw [pathsOf, Json.get?, find?_put, if_neg (by decide), find?_put, if_pos rfl]
    rfl
  · rw [schemasOf, Json.get?, find?_put, if_pos rfl, membersOf, Json.Members.find?, find?_put,
      if_pos rfl]
    rfl

/-- Paths and schemas are written over those of the document, and it stays a document. -/
lemma merge_ok (h : IsDocument document) (ps ss : Json.Members) :
    ∃ merged, merge document (.obj ps) (.obj ss) = .ok merged ∧ IsDocument merged ∧
      pathsOf merged = Table.overlay (pathsOf document) ps ∧
      schemasOf merged = Table.overlay (schemasOf document) ss :=
  h.isMergeable.merge ps ss

/-! ## One module -/

lemma nodup_keys_paths (n : Names) : (Table.keys (paths n)).Nodup := Table.nodup_keys_ofEntries _

lemma nodup_keys_schemas (n : Names) (fields : List Field) :
    (Table.keys (schemas n fields)).Nodup := Table.nodup_keys_ofEntries _

/-- The paths of a module name its class. -/
lemma tags_of_find?_paths {n : Names} {v : Json} (h : Table.find? path (paths n) = some v) :
    (v.get? "get").bind (·.get? "tags") = some (.strings [n.className]) := by
  have hmem := Table.mem_of_mem_ofEntries (Table.mem_of_find? h)
  simp only [List.mem_cons, List.not_mem_nil, or_false, Prod.mk.injEq] at hmem
  rcases hmem with ⟨-, rfl⟩ | ⟨-, rfl⟩
  · rfl
  · rfl

/-- Paths of different classes are different. -/
lemma className_eq_of_find?_paths {v : Json} (ha : Table.find? path (paths a) = some v)
    (hb : Table.find? path (paths b) = some v) : a.className = b.className := by
  have htags := (tags_of_find?_paths ha).symm.trans (tags_of_find?_paths hb)
  simpa [Json.strings] using htags

/-- Everything that the paths of a module are and lead to is in a document as it was written for the
module. -/
structure Keeps (document : Json) (n : Names) (fields : List Field) : Prop where
  paths : ∀ path ∈ Table.keys (paths n), Table.find? path (pathsOf document) = Table.find? path (paths n)
  schemas : ∀ name, Reaches (schemasOf document) (.obj (OpenApi.paths n)) name →
    ∃ schema, Table.find? name (schemas n fields) = some schema ∧
      Table.find? name (schemasOf document) = some schema

/-- What the paths of a module lead to by its own schemas, they lead to in a document that keeps it. -/
lemma Keeps.reaches (hkeeps : Keeps document a fieldsA)
    (hreach : Reaches (OpenApi.schemas a fieldsA) (.obj (OpenApi.paths a)) name) :
    Reaches (schemasOf document) (.obj (OpenApi.paths a)) name := by
  induction hreach with
  | direct hrefers => exact .direct hrefers
  | through _ hfind hrefers ih =>
    obtain ⟨schema, hown, hfound⟩ := hkeeps.schemas _ ih
    obtain rfl := Option.some.inj (hfind.symm.trans hown)
    exact .through ih hfound hrefers

/-- What is written for a second module leaves the first one alone. -/
structure IsClear (a : Names) (fieldsA : List Field) (b : Names) (fieldsB : List Field) : Prop where
  /-- The modules have no path in common. -/
  paths : ∀ path ∈ Table.keys (paths a), path ∉ Table.keys (paths b)
  /-- Where the second module has a schema that the first one leads to, it is the same. -/
  schemas : ∀ name schema, Reaches (schemas a fieldsA) (.obj (OpenApi.paths a)) name →
    Table.find? name (schemas b fieldsB) = some schema →
    Table.find? name (schemas a fieldsA) = some schema

/-! ## Two modules -/

/-- A document into which two modules were merged one after the other. -/
structure IsMerged (second : Json) (a : Names) (fieldsA : List Field) (b : Names)
    (fieldsB : List Field) (start : Json) : Prop where
  paths : pathsOf second = Table.overlay (Table.overlay (pathsOf start) (paths a)) (paths b)
  schemas : schemasOf second =
    Table.overlay (Table.overlay (schemasOf start) (schemas a fieldsA)) (schemas b fieldsB)

section Merged

variable (h : IsMerged second a fieldsA b fieldsB document)

include h

lemma IsMerged.find?_paths (path : Text) : Table.find? path (pathsOf second) =
    (Table.find? path (OpenApi.paths b)).or
      ((Table.find? path (OpenApi.paths a)).or (Table.find? path (pathsOf document))) := by
  rw [h.paths, Table.find?_overlay_of_nodup (nodup_keys_paths b),
    Table.find?_overlay_of_nodup (nodup_keys_paths a)]

lemma IsMerged.find?_schemas (name : Text) : Table.find? name (schemasOf second) =
    (Table.find? name (OpenApi.schemas b fieldsB)).or
      ((Table.find? name (OpenApi.schemas a fieldsA)).or (Table.find? name (schemasOf document))) := by
  rw [h.schemas, Table.find?_overlay_of_nodup (nodup_keys_schemas b fieldsB),
    Table.find?_overlay_of_nodup (nodup_keys_schemas a fieldsA)]

/-- A schema that a module leads to by its own schemas stands in the document, if the second module
is clear of the first. -/
lemma IsMerged.find?_of_isClear (hclear : IsClear a fieldsA b fieldsB)
    (hreach : Reaches (OpenApi.schemas a fieldsA) (.obj (OpenApi.paths a)) name) :
    ∃ schema, Table.find? name (OpenApi.schemas a fieldsA) = some schema ∧
      Table.find? name (schemasOf second) = some schema := by
  obtain ⟨schema, hschema⟩ := hreach.exists_schema
  have hschema : Table.find? name (OpenApi.schemas a fieldsA) = some schema := hschema
  refine ⟨schema, hschema, ?_⟩
  rw [h.find?_schemas, hschema]
  cases hother : Table.find? name (OpenApi.schemas b fieldsB) with
  | none => rfl
  | some other =>
    rw [← hclear.schemas name other hreach hother, hschema]
    rfl

/-- In the document the paths of the first module lead nowhere else than by its own schemas. -/
lemma IsMerged.reaches_of_isClear (hclear : IsClear a fieldsA b fieldsB)
    (hreach : Reaches (schemasOf second) (.obj (OpenApi.paths a)) name) :
    Reaches (OpenApi.schemas a fieldsA) (.obj (OpenApi.paths a)) name := by
  induction hreach with
  | direct hrefers => exact .direct hrefers
  | through _ hfind hrefers ih =>
    obtain ⟨schema, hown, hfound⟩ := h.find?_of_isClear hclear ih
    obtain rfl := Option.some.inj (hfind.symm.trans hfound)
    exact .through ih hown hrefers

lemma IsMerged.keeps_of_isClear (hclear : IsClear a fieldsA b fieldsB) :
    Keeps second a fieldsA where
  paths path hpath := by
    obtain ⟨v, hv⟩ := Table.exists_find?_of_mem_keys hpath
    rw [h.find?_paths, Table.find?_eq_none_of_not_mem (hclear.paths path hpath), hv]
    rfl
  schemas name hreach := h.find?_of_isClear hclear (h.reaches_of_isClear hclear hreach)

lemma IsMerged.isClear_of_keeps (hclass : a.className ≠ b.className) (hkeeps : Keeps second a fieldsA) :
    IsClear a fieldsA b fieldsB where
  paths path ha hb := by
    obtain ⟨v, hv⟩ := Table.exists_find?_of_mem_keys ha
    obtain ⟨v', hv'⟩ := Table.exists_find?_of_mem_keys hb
    have hkept := hkeeps.paths path ha
    rw [h.find?_paths, hv', hv] at hkept
    obtain rfl : v' = v := Option.some.inj hkept
    exact hclass (className_eq_of_find?_paths hv hv')
  schemas name schema hreach hother := by
    obtain ⟨own, hown, hfound⟩ := hkeeps.schemas name (hkeeps.reaches hreach)
    rw [h.find?_schemas, hother] at hfound
    rw [hown, ← hfound]
    rfl

end Merged

lemma exists_isMerged (h : IsDocument document) (a : Names) (fieldsA : List Field) (b : Names)
    (fieldsB : List Field) :
    ∃ first second, merge document (.obj (paths a)) (.obj (schemas a fieldsA)) = .ok first ∧
      merge first (.obj (paths b)) (.obj (schemas b fieldsB)) = .ok second ∧
      IsMerged second a fieldsA b fieldsB document := by
  obtain ⟨first, hfirst, hdocument, hpaths, hschemas⟩ := merge_ok h (paths a) (schemas a fieldsA)
  obtain ⟨second, hsecond, -, hpaths', hschemas'⟩ := merge_ok hdocument (paths b) (schemas b fieldsB)
  refine ⟨first, second, hfirst, hsecond, ?_, ?_⟩
  · rw [hpaths', hpaths]
  · rw [hschemas', hschemas]

/-- **A second module leaves the first one alone** if it is clear of it, and only then. -/
theorem keeps_iff (fieldsA fieldsB : List Field) (hclass : a.className ≠ b.className)
    (h : IsDocument document) :
    ∃ first second, merge document (.obj (paths a)) (.obj (schemas a fieldsA)) = .ok first ∧
      merge first (.obj (paths b)) (.obj (schemas b fieldsB)) = .ok second ∧
      (Keeps second a fieldsA ↔ IsClear a fieldsA b fieldsB) := by
  obtain ⟨first, second, hfirst, hsecond, hmerged⟩ := exists_isMerged h a fieldsA b fieldsB
  exact ⟨first, second, hfirst, hsecond, hmerged.isClear_of_keeps hclass, hmerged.keeps_of_isClear⟩

/-! ### A list of items in two modules -/

lemma isDocument_defaultDocument : IsDocument defaultDocument :=
  ⟨⟨_, rfl⟩, ⟨_, rfl⟩, ⟨_, _, rfl, rfl⟩⟩

/-- Fields of which one is a list `items` of objects with one text in each. -/
def itemsWith (child : Text) : List Field :=
  [⟨"items", false, false, .list none (some objectTag), [⟨child, true, false, .scalar .string, []⟩]⟩]

/-- The names of the orders. -/
def orderNames : Names := ⟨"order", "Order", "order"⟩

/-- The names of the invoices. -/
def invoiceNames : Names := ⟨"invoice", "Invoice", "invoice"⟩

/-- Orders and invoices with the same items. -/
theorem keeps_order_iff :
    orderNames.className ≠ invoiceNames.className ∧ IsDocument defaultDocument ∧
    ∃ first second, merge defaultDocument (.obj (paths orderNames))
        (.obj (schemas orderNames (itemsWith "sku"))) = .ok first ∧
      merge first (.obj (paths invoiceNames)) (.obj (schemas invoiceNames (itemsWith "sku"))) = .ok second ∧
      (Keeps second orderNames (itemsWith "sku") ↔
        IsClear orderNames (itemsWith "sku") invoiceNames (itemsWith "sku")) :=
  ⟨by decide, isDocument_defaultDocument, keeps_iff _ _ (by decide) isDocument_defaultDocument⟩

lemma reaches_items : Reaches (schemas orderNames (itemsWith "sku")) (.obj (paths orderNames)) "ItemsItem" := by
  have hcreate : Reaches (schemas orderNames (itemsWith "sku")) (.obj (paths orderNames)) "OrderCreate" :=
    .direct (.member (List.mem_cons_self ..) (refers_iff.2 (cites_collectionPath.2 (.inl rfl))))
  have hschema : Json.Members.find? "OrderCreate" (schemas orderNames (itemsWith "sku")) =
    some (strictSchema (itemsWith "sku")) := rfl
  have hproperty : Table.find? "items".toList (propertyTable (itemsWith "sku")) =
    some (listOf (reference "ItemsItem") "Array of items objects") := rfl
  have hrefers : Refers (.obj (propertyTable (itemsWith "sku"))) "ItemsItem" :=
    .member (Table.mem_of_find? hproperty) (refers_iff.2 (cites_listOf.2 (cites_reference.2 rfl)))
  exact hcreate.through hschema
    (.member (List.mem_cons_of_mem _ (List.mem_cons_self ..)) hrefers)

/-- Orders lose the schema of their items to invoices with other items. -/
theorem not_keeps_order_items :
    ∃ first second, merge defaultDocument (.obj (paths orderNames))
        (.obj (schemas orderNames (itemsWith "sku"))) = .ok first ∧
      merge first (.obj (paths invoiceNames)) (.obj (schemas invoiceNames (itemsWith "code"))) = .ok second ∧
      ¬ Keeps second orderNames (itemsWith "sku") := by
  obtain ⟨first, second, hfirst, hsecond, hmerged⟩ := exists_isMerged isDocument_defaultDocument
    orderNames (itemsWith "sku") invoiceNames (itemsWith "code")
  refine ⟨first, second, hfirst, hsecond, fun hkeeps => ?_⟩
  have hclear := hmerged.isClear_of_keeps (by decide) hkeeps
  have hsame : some (strictSchema [⟨"sku", true, false, .scalar .string, []⟩]) =
      some (strictSchema [⟨"code", true, false, .scalar .string, []⟩]) :=
    hclear.schemas "ItemsItem" _ reaches_items rfl
  have hrequired : some (Json.strings ["sku".toList]) = some (Json.strings ["code".toList]) :=
    congrArg (·.bind (·.get? "required")) hsame
  simp [Json.strings] at hrequired

end Scaffold.OpenApi
