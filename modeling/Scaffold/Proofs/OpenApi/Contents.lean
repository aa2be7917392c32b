import Scaffold.Proofs.Collection.Folders
import Scaffold.Proofs.Disk.Upkeep
import Scaffold.Proofs.OpenApi.Modules
import Scaffold.Proofs.OpenApi.Sound
import Scaffold.Proofs.World.Documents

/-!
# The API document that all modules write to

Two merges into a document are one merge of both (`Parts.overlaid_again`).  So a run over any number
of modules is one merge, and a second run merges the same entries a second time, which changes
nothing when no key is twice in the document (`contentAfter_contentAfter`).

That no key is there twice does not hold of every document that a merge makes: components that are
a list of pairs become an object whose keys are the *texts* of the keys in the list, and different
keys can have the same text.  What is read back from such a document is a different one.  So the
contents are restricted to those whose merges are proper (`IsMergeable`), which all merges into them
preserve.
-/

namespace Scaffold.OpenApi

open Json Files

/-! ## Merging twice -/

/-- The parts of a document that a merge works on. -/
structure Parts where
  members : Members
  components : Members
  paths : Members
  schemas : Members

/-- The parts of a document, where they are of the shape that a merge needs. -/
def partsOf (document : Json) : Except Misfit Parts := do
  let members ← document.copyMembers
  let paths ← (orEmptyObject (← document.member? "paths")).mapping
  let components ← (orEmptyObject (← document.member? "components")).copyMembers
  let schemas ← (orEmptyObject (Members.find? "schemas" components)).mapping
  return ⟨members, components, paths, schemas⟩

namespace Parts

/-- The components with the schemas. -/
def wholeComponents (X : Parts) : Members := Members.put "schemas" (.obj X.schemas) X.components

/-- The members with paths and components. -/
def wholeMembers (X : Parts) : Members :=
  Members.put "components" (.obj X.wholeComponents) (Members.put "paths" (.obj X.paths) X.members)

/-- The document that is made of parts. -/
def document (X : Parts) : Json := .obj X.wholeMembers

/-- The parts with paths and schemas written over them. -/
def overlaid (X : Parts) (ps ss : Members) : Parts :=
  { X with paths := Table.overlay X.paths ps, schemas := Table.overlay X.schemas ss }

/-- The parts of the document that is made of parts. -/
def again (X : Parts) : Parts :=
  { X with members := X.wholeMembers, components := X.wholeComponents }

end Parts

variable {v v' : Json} {ps ps' ss ss' : Members} {X : Parts} {u u' : Collection.Update}
  {us : List Collection.Update} {content : Option Bytes} {p : Path} {strict : Prop}

/-- **A merge** writes over the paths and the schemas of a document. -/
lemma merge_eq (document : Json) (ps ss : Members) :
    merge document (.obj ps) (.obj ss) =
      (partsOf document).map fun X => (X.overlaid ps ss).document := by
  unfold merge partsOf OpenApi.overlaid
  cases document.copyMembers with
  | error e => rfl
  | ok members =>
    cases document.member? "paths" with
    | error e => rfl
    | ok paths =>
      simp only [bind, Except.bind]
      cases (orEmptyObject paths).mapping with
      | error e => rfl
      | ok paths =>
        cases document.member? "components" with
        | error e => rfl
        | ok components =>
          simp only [mapping, pure, Except.pure]
          cases (orEmptyObject components).copyMembers with
          | error e => rfl
          | ok components =>
            simp only
            cases orEmptyObject (Members.find? "schemas" components) <;> rfl

section Whole

variable (X)

lemma find?_paths_wholeMembers : Members.find? "paths" X.wholeMembers = some (.obj X.paths) := by
  rw [Parts.wholeMembers, Members.find?, find?_put, if_neg (by decide), find?_put, if_pos rfl]

lemma find?_components_wholeMembers :
    Members.find? "components" X.wholeMembers = some (.obj X.wholeComponents) := by
  rw [Parts.wholeMembers, Members.find?, find?_put, if_pos rfl]

lemma find?_schemas_wholeComponents :
    Members.find? "schemas" X.wholeComponents = some (.obj X.schemas) := by
  rw [Parts.wholeComponents, Members.find?, find?_put, if_pos rfl]

lemma partsOf_document : partsOf X.document = .ok X.again := by
  have hpaths : X.document.member? "paths" = .ok (some (.obj X.paths)) :=
    congrArg Except.ok (find?_paths_wholeMembers X)
  have hcomponents : X.document.member? "components" = .ok (some (.obj X.wholeComponents)) :=
    congrArg Except.ok (find?_components_wholeMembers X)
  simp only [partsOf, hpaths, hcomponents, bind, Except.bind, orEmptyObject_obj, mapping]
  simp only [Parts.document, copyMembers, find?_schemas_wholeComponents, orEmptyObject_obj]
  rfl

/-- Components are behind the paths or were there before, so that what is written later replaces both
where they are. -/
lemma put_put_components (c c' paths paths' : Json) (members : Members) :
    Members.put "components" c'
        (Members.put "paths" paths' (Members.put "components" c (Members.put "paths" paths members))) =
      Members.put "components" c' (Members.put "paths" paths' members) := by
  have hmem : "paths".toList ∈ Table.keys (Members.put "paths" paths members) :=
    Table.mem_keys_put_self ..
  have hswap : Members.put "paths" paths' (Members.put "components" c (Members.put "paths" paths members)) =
      Members.put "components" c (Members.put "paths" paths' (Members.put "paths" paths members)) :=
    Table.put_comm (by decide) hmem ..
  have hpaths : Members.put "paths" paths' (Members.put "paths" paths members) =
      Members.put "paths" paths' members := Table.put_put ..
  rw [hswap, hpaths]
  exact Table.put_put ..

/-- Two merges are one. -/
lemma document_overlaid_again (ps ss ps' ss' : Members) :
    ((X.overlaid ps ss).again.overlaid ps' ss').document =
      (X.overlaid (ps ++ ps') (ss ++ ss')).document := by
  have hcomponents : ((X.overlaid ps ss).again.overlaid ps' ss').wholeComponents =
      (X.overlaid (ps ++ ps') (ss ++ ss')).wholeComponents := by
    simp only [Parts.wholeComponents, Parts.overlaid, Parts.again, Table.overlay_append]
    exact Table.put_put ..
  have hpaths : ((X.overlaid ps ss).again.overlaid ps' ss').paths =
      (X.overlaid (ps ++ ps') (ss ++ ss')).paths := (Table.overlay_append ..).symm
  rw [Parts.document, Parts.document, Parts.wholeMembers, Parts.wholeMembers, hcomponents, hpaths]
  exact congrArg Json.obj (put_put_components ..)

end Whole

/-- A merge into a document that was merged into before is sound if the document is. -/
lemma isSound_overlaid_again (h : IsSound strict X.document) (hps : ∀ e ∈ ps, IsSound strict e.2)
    (hss : ∀ e ∈ ss, IsSound strict e.2) : IsSound strict (X.again.overlaid ps ss).document := by
  have hpaths := isSound_overlay (h.find? (find?_paths_wholeMembers X)) hps
  have hcomponents := h.find? (find?_components_wholeMembers X)
  have hschemas := isSound_overlay (hcomponents.find? (find?_schemas_wholeComponents X)) hss
  exact (h.put hpaths _).put (hcomponents.put hschemas _) _

/-! ## Contents -/

/-- The document in a file, or a new one where there is none. -/
def documentIn (content : Option Bytes) : Json :=
  match content.bind documentIn? with
  | some (.obj members) => .obj members
  | _ => defaultDocument

/-- The document with the entries of a module. -/
def updated (u : Collection.Update) (content : Option Bytes) : Except Misfit Json :=
  merge (documentIn content) (.obj (paths u.names)) (.obj (schemas u.names u.fields))

/-- Keeps the API document up to date for a module. -/
def upkeep (p : Path) (u : Collection.Update) : Upkeep where
  path := p
  next content := (updated u content).toOption.map fun v => Utf8.encode v.fileText

/-- A content into which all modules are merged properly. -/
def MergesProperly (content : Option Bytes) : Prop := ∀ u v, updated u content = .ok v → v.IsProper

/-- The paths of several modules, one after the other. -/
def allPaths (us : List Collection.Update) : Members := us.flatMap fun u => paths u.names

/-- The schemas of several modules, one after the other. -/
def allSchemas (us : List Collection.Update) : Members := us.flatMap fun u => schemas u.names u.fields

lemma updated_eq (u : Collection.Update) (h : partsOf (documentIn content) = .ok X) :
    updated u content = .ok (X.overlaid (paths u.names) (schemas u.names u.fields)).document := by
  rw [updated, merge_eq, h]
  rfl

/-- Where a document has not the shape to be merged into, the file is left as it is. -/
lemma after_of_error (p : Path) (u : Collection.Update) {e : Misfit}
    (h : partsOf (documentIn content) = .error e) : (upkeep p u).after content = content := by
  have hnext : (upkeep p u).next content = none := by
    simp only [upkeep, updated, merge_eq, h]
    rfl
  rw [Upkeep.after, hnext, Option.none_or]

lemma after_of_ok (p : Path) (u : Collection.Update) (h : partsOf (documentIn content) = .ok X) :
    (upkeep p u).after content =
      some (Utf8.encode (X.overlaid (paths u.names) (schemas u.names u.fields)).document.fileText) := by
  have hnext : (upkeep p u).next content = some (Utf8.encode
      (X.overlaid (paths u.names) (schemas u.names u.fields)).document.fileText) := by
    simp only [upkeep, updated_eq u h]
    rfl
  rw [Upkeep.after, hnext, Option.some_or]

lemma documentIn_encode (h : X.document.IsProper) :
    documentIn (some (Utf8.encode X.document.fileText)) = X.document := by
  rw [documentIn, Option.bind_some, documentIn?_encode h]
  rfl

lemma mergesProperly_encode (h : X.document.IsProper) :
    MergesProperly (some (Utf8.encode X.document.fileText)) := by
  intro u v hv
  rw [updated_eq u (by rw [documentIn_encode h, partsOf_document])] at hv
  rw [← Except.ok.inj hv]
  exact (isSound_overlaid_again ⟨h, False.elim⟩ (isSound_paths _) (isSound_schemas _ _)).1

/-- The parts of the document that is started with. -/
def defaultParts : Parts where
  members := [member "openapi" (.lit "3.0.0"),
    member "info" (.object [("title", .lit "API Documentation"), ("version", .lit "1.0.0"),
      ("description", .lit "Generated API documentation")])]
  components := []
  paths := []
  schemas := []

lemma isSound_defaultDocument : IsSound strict defaultDocument := by
  have hempty : IsSound strict (.obj []) := isSound_obj.2 ⟨List.nodup_nil, nofun⟩
  simp [defaultDocument, isSound_object, hempty]

lemma partsOf_documentIn_none : partsOf (documentIn none) = .ok defaultParts.again :=
  partsOf_document defaultParts

lemma mergesProperly_none : MergesProperly none := by
  intro u v hv
  rw [updated_eq u partsOf_documentIn_none] at hv
  rw [← Except.ok.inj hv]
  have hsound : IsSound False defaultParts.document := isSound_defaultDocument
  exact (isSound_overlaid_again hsound (isSound_paths _) (isSound_schemas _ _)).1

lemma isSome_next_none (p : Path) (u : Collection.Update) :
    ((upkeep p u).next none).isSome = true := by
  simp only [upkeep, updated_eq u partsOf_documentIn_none]
  rfl

lemma mergesProperly_after (p : Path) (u : Collection.Update) (h : MergesProperly content) :
    MergesProperly ((upkeep p u).after content) := by
  cases hparts : partsOf (documentIn content) with
  | error e => rwa [after_of_error p u hparts]
  | ok X =>
    rw [after_of_ok p u hparts]
    exact mergesProperly_encode (h u _ (updated_eq u hparts))

/-- Whether a document can be merged into does not depend on what was merged into it before. -/
lemma isSome_next_after (p : Path) (u w : Collection.Update) (h : MergesProperly content) :
    ((upkeep p w).next ((upkeep p u).after content)).isSome = ((upkeep p w).next content).isSome := by
  cases hparts : partsOf (documentIn content) with
  | error e => rw [after_of_error p u hparts]
  | ok X =>
    have hproper := h u _ (updated_eq u hparts)
    have hagain := (congrArg partsOf (documentIn_encode hproper)).trans (partsOf_document _)
    rw [after_of_ok p u hparts]
    simp only [upkeep, updated_eq w hparts, updated_eq w hagain]
    rfl

/-- The content of the document after several modules. -/
def contentAfter (p : Path) (us : List Collection.Update) (content : Option Bytes) : Option Bytes :=
  us.foldl (fun c u => (upkeep p u).after c) content

lemma contentAfter_of_error (p : Path) (us : List Collection.Update) {e : Misfit}
    (h : partsOf (documentIn content) = .error e) : contentAfter p us content = content := by
  induction us with
  | nil => rfl
  | cons u us ih =>
    rw [contentAfter, List.foldl_cons, after_of_error p u h]
    exact ih

/-- **A run over several modules is one merge.** -/
lemma contentAfter_of_ok (p : Path) (u : Collection.Update) (us : List Collection.Update)
    (h : partsOf (documentIn content) = .ok X) (hproper : MergesProperly content) :
    (X.overlaid (allPaths (u :: us)) (allSchemas (u :: us))).document.IsProper ∧
      contentAfter p (u :: us) content = some (Utf8.encode
        (X.overlaid (allPaths (u :: us)) (allSchemas (u :: us))).document.fileText) := by
  induction us generalizing u content X with
  | nil =>
    have hall : X.overlaid (allPaths [u]) (allSchemas [u]) =
        X.overlaid (paths u.names) (schemas u.names u.fields) := by
      rw [allPaths, allSchemas, List.flatMap_singleton, List.flatMap_singleton]
    rw [hall]
    exact ⟨hproper u _ (updated_eq u h), after_of_ok p u h⟩
  | cons w us ih =>
    have hfirst := hproper u _ (updated_eq u h)
    have hagain := (congrArg partsOf (documentIn_encode hfirst)).trans (partsOf_document _)
    have hrest := ih w hagain (mergesProperly_encode hfirst)
    rw [document_overlaid_again] at hrest
    rw [contentAfter, List.foldl_cons, after_of_ok p u h]
    exact hrest

/-- **A second run writes the same document.** -/
theorem contentAfter_contentAfter (p : Path) (us : List Collection.Update)
    (hproper : MergesProperly content) :
    contentAfter p us (contentAfter p us content) = contentAfter p us content := by
  cases us with
  | nil => rfl
  | cons u us =>
    cases h : partsOf (documentIn content) with
    | error e => rw [contentAfter_of_error p _ h, contentAfter_of_error p _ h]
    | ok X =>
      obtain ⟨hfirst, hcontent⟩ := contentAfter_of_ok p u us h hproper
      have hagain := (congrArg partsOf (documentIn_encode hfirst)).trans (partsOf_document _)
      obtain ⟨-, hsecond⟩ := contentAfter_of_ok p u us hagain (mergesProperly_encode hfirst)
      have hsound : IsSound False _ := ⟨hfirst, False.elim⟩
      have hpaths := (isSound_obj.1 (hsound.find? (find?_paths_wholeMembers _))).1
      have hcomponents := hsound.find? (find?_components_wholeMembers _)
      have hschemas := (isSound_obj.1 (hcomponents.find? (find?_schemas_wholeComponents _))).1
      -- no key is there twice, so the entries replace themselves
      have hsame : (X.overlaid (allPaths (u :: us) ++ allPaths (u :: us))
          (allSchemas (u :: us) ++ allSchemas (u :: us))) =
          X.overlaid (allPaths (u :: us)) (allSchemas (u :: us)) := by
        rw [Parts.overlaid, Table.overlay_append, Table.overlay_append, Table.overlay_overlay hpaths,
          Table.overlay_overlay hschemas, Parts.overlaid]
      rw [hcontent, hsecond, document_overlaid_again, hsame]

/-! ## The same module again -/

lemma schemas_of_document_eq {Y : Parts} (h : X.document = Y.document) : X.schemas = Y.schemas := by
  have hmembers : X.wholeMembers = Y.wholeMembers := Json.obj.inj h
  have hfound := find?_components_wholeMembers X
  rw [hmembers, find?_components_wholeMembers Y] at hfound
  have hcomponents : Y.wholeComponents = X.wholeComponents := Json.obj.inj (Option.some.inj hfound)
  have hschemas := find?_schemas_wholeComponents X
  rw [← hcomponents, find?_schemas_wholeComponents Y] at hschemas
  exact (Json.obj.inj (Option.some.inj hschemas)).symm

/-- **Writing a module again** whose paths are the same and whose schemas have the same names leaves the
document as it is exactly if the schemas are the same. -/
theorem after_after_iff (p : Path) (hpaths : paths u'.names = paths u.names)
    (hkeys : Table.keys (schemas u'.names u'.fields) = Table.keys (schemas u.names u.fields))
    (hparts : partsOf (documentIn content) = .ok X) (hproper : MergesProperly content) :
    (upkeep p u').after ((upkeep p u).after content) = (upkeep p u).after content ↔
      schemas u'.names u'.fields = schemas u.names u.fields := by
  have hfirst := hproper u _ (updated_eq u hparts)
  have hagain := (congrArg partsOf (documentIn_encode hfirst)).trans (partsOf_document _)
  have hsecond := mergesProperly_encode hfirst u' _ (updated_eq u' hagain)
  have hsound : IsSound False _ := ⟨hfirst, False.elim⟩
  have hpathKeys := (isSound_obj.1 (hsound.find? (find?_paths_wholeMembers _))).1
  have hcomponents := hsound.find? (find?_components_wholeMembers _)
  have hschemaKeys := (isSound_obj.1 (hcomponents.find? (find?_schemas_wholeComponents _))).1
  have hnodup : (Table.keys (schemas u.names u.fields)).Nodup := Table.nodup_keys_ofEntries _
  have hschemas := Table.overlay_append_iff hnodup hkeys hschemaKeys
  have hsame : Table.overlay X.paths (paths u.names ++ paths u.names) = Table.overlay X.paths (paths u.names) := by
    rw [Table.overlay_append, Table.overlay_overlay hpathKeys]
  rw [after_of_ok p u hparts, after_of_ok p u' hagain]
  rw [document_overlaid_again, hpaths] at hsecond ⊢
  rw [← hschemas]
  constructor
  · intro h
    have hread := congrArg documentIn h
    rw [documentIn_encode hfirst, documentIn_encode hsecond] at hread
    exact schemas_of_document_eq hread
  · intro h
    rw [Parts.overlaid, Parts.overlaid, hsame, h]

end Scaffold.OpenApi
