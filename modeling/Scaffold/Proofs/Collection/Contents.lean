import Scaffold.Generation.Documentation
import Scaffold.Proofs.Collection.Sharing
import Scaffold.Proofs.Disk.Upkeep
import Scaffold.Proofs.World.Documents

/-!
# Collection files that several modules write to

Modules whose folders differ only in case share one collection file.  What a run over such modules
makes of the items in it is the items that the run makes of none, with what people added behind them
(`itemsAfter_eq`).  From this it follows that a second run over the same modules changes nothing
(`itemsAfter_itemsAfter`), although it merges with what other modules wrote in the meantime.

An item whose name is a list or an object cannot be merged with; then no module touches the file.
-/

namespace Scaffold.Collection

open Json Files

variable {u v : Update} {us : List Update} {E : List Json} {item : Json} {content : Option Bytes} {p : Path}

/-! ## Items -/

/-- The items of a file after a merge. -/
def mergedItems (u : Update) (E : List Json) : List Json :=
  u.requests ++ kept (requestNames u.names) E

/-- The items of a file after the merges of several modules. -/
def itemsAfter (us : List Update) (E : List Json) : List Json :=
  us.foldl (fun E u => mergedItems u E) E

/-- The items that bear the names of no module. -/
def keptByAll (us : List Update) (E : List Json) : List Json :=
  E.filter fun i => us.all fun u => !isNamed (requestNames u.names) i

lemma keptByAll_cons (u : Update) (us : List Update) (E : List Json) :
    keptByAll (u :: us) E = keptByAll us (kept (requestNames u.names) E) := by
  rw [keptByAll, keptByAll, kept, List.filter_filter]
  refine List.filter_congr fun i _ => ?_
  rw [List.all_cons, Bool.and_comm]

lemma keptByAll_append (us : List Update) (E E' : List Json) :
    keptByAll us (E ++ E') = keptByAll us E ++ keptByAll us E' := List.filter_append ..

lemma keptByAll_keptByAll (us : List Update) (E : List Json) :
    keptByAll us (keptByAll us E) = keptByAll us E := by
  rw [keptByAll, keptByAll, List.filter_filter]
  simp only [Bool.and_self]

/-- **What a run makes of the items**: the same as of none, and behind it what people added. -/
theorem itemsAfter_eq (us : List Update) (E : List Json) :
    itemsAfter us E = itemsAfter us [] ++ keptByAll us E := by
  induction us generalizing E with
  | nil => simp [itemsAfter, keptByAll]
  | cons u us ih =>
    have hstep : ∀ E, itemsAfter (u :: us) E = itemsAfter us (mergedItems u E) := fun _ => rfl
    have hnone : kept (requestNames u.names) [] = [] := rfl
    rw [hstep, hstep, ih (mergedItems u E), ih (mergedItems u []), mergedItems, mergedItems, hnone,
      List.append_nil, keptByAll_append, keptByAll_cons, List.append_assoc]

/-- An item after a run was there or bears the name of a module. -/
lemma exists_of_mem_itemsAfter (h : item ∈ itemsAfter us E) :
    item ∈ E ∨ ∃ u ∈ us, item ∈ u.requests := by
  induction us generalizing E with
  | nil => exact .inl h
  | cons u us ih =>
    rcases ih (E := mergedItems u E) h with h | ⟨v, hv, h⟩
    · rcases List.mem_append.1 h with h | h
      · exact .inr ⟨u, List.mem_cons_self .., h⟩
      · exact .inl (List.mem_of_mem_filter h)
    · exact .inr ⟨v, List.mem_cons_of_mem _ hv, h⟩

lemma keptByAll_itemsAfter_nil (us : List Update) : keptByAll us (itemsAfter us []) = [] := by
  rw [keptByAll, List.filter_eq_nil_iff]
  intro item hitem hall
  rcases exists_of_mem_itemsAfter hitem with h | ⟨u, hu, h⟩
  · cases h
  · have hnot := List.all_eq_true.1 hall u hu
    rw [isNamed_of_mem_requests h] at hnot
    cases hnot

/-- **A second run changes no items.** -/
theorem itemsAfter_itemsAfter (us : List Update) (E : List Json) :
    itemsAfter us (itemsAfter us E) = itemsAfter us E := by
  rw [itemsAfter_eq us (itemsAfter us E), itemsAfter_eq us E, keptByAll_append,
    keptByAll_itemsAfter_nil, List.nil_append, keptByAll_keptByAll]

/-! ## Contents -/

/-- The items in a collection file; without a list of items there are none. -/
def itemsIn (content : Option Bytes) : List Json :=
  ((content.bind documentIn?).bind Documentation.existingItems?).getD []

/-- The document of a module with items. -/
def fileOf (u : Update) (items : List Json) : Json :=
  .object [("info", .object [("name", .str u.names.collectionFolder), ("schema", .str schemaUrl)]),
    ("item", .arr items)]

/-- Whether items can be merged with. -/
def canMerge (E : List Json) : Bool := E.all hasPlainName

/-- The document that is written for a module, unless what is there cannot be merged with. -/
def updated? (u : Update) (content : Option Bytes) : Option Json :=
  if canMerge (itemsIn content) then some (fileOf u (mergedItems u (itemsIn content))) else none

/-- Keeps the collection file of a module up to date. -/
def upkeep (p : Path) (u : Update) : Upkeep where
  path := p
  next content := (updated? u content).map fun v => Utf8.encode v.fileText

lemma isSound_fileOf (hE : ∀ e ∈ E, IsSound False e) : IsSound False (fileOf u E) := by
  simp [fileOf, isSound_object, isSound_arr.2 hE]

lemma isSound_of_mem_mergedItems (hE : ∀ e ∈ E, IsSound False e) :
    ∀ e ∈ mergedItems u E, IsSound False e := by
  intro e he
  rcases List.mem_append.1 he with he | he
  · exact isSound_of_mem_requests he
  · exact hE e (List.mem_of_mem_filter he)

lemma isSound_of_mem_itemsIn : ∀ e ∈ itemsIn content, IsSound False e := by
  intro e he
  unfold itemsIn at he
  cases hdocument : content.bind documentIn? with
  | none =>
    rw [hdocument] at he
    cases he
  | some v =>
    obtain ⟨c, -, hc⟩ := Option.bind_eq_some_iff.1 hdocument
    have hproper := isProper_of_documentIn? hc
    rw [hdocument, Option.bind_some, Documentation.existingItems?] at he
    split at he
    · rename_i items hitems
      cases v with
      | obj members => exact isSound_arr.1 (IsSound.find? ⟨hproper, False.elim⟩ hitems) e he
      | _ => cases hitems
    · cases he

lemma itemsIn_fileOf (hE : ∀ e ∈ E, IsSound False e) :
    itemsIn (some (Utf8.encode (fileOf u E).fileText)) = E := by
  rw [itemsIn, Option.bind_some, documentIn?_encode (isSound_fileOf hE).1]
  rfl

lemma canMerge_mergedItems (u : Update) (E : List Json) (h : canMerge E = true) :
    canMerge (mergedItems u E) = true := by
  rw [canMerge, List.all_eq_true] at h ⊢
  intro item hitem
  rcases List.mem_append.1 hitem with hitem | hitem
  · exact hasPlainName_of_mem_requests hitem
  · exact h item (List.mem_of_mem_filter hitem)

/-- Where items cannot be merged with, the file is left as it is. -/
lemma after_of_not_canMerge (p : Path) (u : Update) (h : canMerge (itemsIn content) = false) :
    (upkeep p u).after content = content := by
  have hnext : (upkeep p u).next content = none := by
    simp only [upkeep, updated?, h]
    rfl
  rw [Upkeep.after, hnext, Option.none_or]

lemma after_of_canMerge (p : Path) (u : Update) (h : canMerge (itemsIn content) = true) :
    (upkeep p u).after content =
      some (Utf8.encode (fileOf u (mergedItems u (itemsIn content))).fileText) := by
  have hnext : (upkeep p u).next content =
      some (Utf8.encode (fileOf u (mergedItems u (itemsIn content))).fileText) := by
    simp only [upkeep, updated?, h]
    rfl
  rw [Upkeep.after, hnext, Option.some_or]

lemma isSome_next (p : Path) (u : Update) (content : Option Bytes) :
    ((upkeep p u).next content).isSome = canMerge (itemsIn content) := by
  simp only [upkeep, updated?, Option.isSome_map]
  cases canMerge (itemsIn content) <;> rfl

lemma canMerge_after (p : Path) (u : Update) (content : Option Bytes) :
    canMerge (itemsIn ((upkeep p u).after content)) = canMerge (itemsIn content) := by
  cases h : canMerge (itemsIn content) with
  | false => rw [after_of_not_canMerge p u h, h]
  | true =>
    rw [after_of_canMerge p u h, itemsIn_fileOf (isSound_of_mem_mergedItems isSound_of_mem_itemsIn),
      canMerge_mergedItems u _ h]

lemma itemsIn_after (p : Path) (u : Update) (h : canMerge (itemsIn content) = true) :
    itemsIn ((upkeep p u).after content) = mergedItems u (itemsIn content) := by
  rw [after_of_canMerge p u h, itemsIn_fileOf (isSound_of_mem_mergedItems isSound_of_mem_itemsIn)]

/-- The content of a collection file after several modules. -/
def contentAfter (p : Path) (us : List Update) (content : Option Bytes) : Option Bytes :=
  us.foldl (fun c u => (upkeep p u).after c) content

lemma contentAfter_of_not_canMerge (p : Path) (us : List Update)
    (h : canMerge (itemsIn content) = false) : contentAfter p us content = content := by
  induction us with
  | nil => rfl
  | cons u us ih =>
    rw [contentAfter, List.foldl_cons, after_of_not_canMerge p u h]
    exact ih

lemma itemsIn_contentAfter (p : Path) (us : List Update) (h : canMerge (itemsIn content) = true) :
    itemsIn (contentAfter p us content) = itemsAfter us (itemsIn content) ∧
      canMerge (itemsIn (contentAfter p us content)) = true := by
  induction us generalizing content with
  | nil => exact ⟨rfl, h⟩
  | cons u us ih =>
    have hafter : canMerge (itemsIn ((upkeep p u).after content)) = true := by rw [canMerge_after, h]
    have hnext := ih hafter
    rw [itemsIn_after p u h] at hnext
    exact hnext

/-- **A second run writes the same content.** -/
theorem contentAfter_contentAfter (p : Path) (us : List Update) (content : Option Bytes) :
    contentAfter p us (contentAfter p us content) = contentAfter p us content := by
  cases h : canMerge (itemsIn content) with
  | false => rw [contentAfter_of_not_canMerge p us h, contentAfter_of_not_canMerge p us h]
  | true =>
    rcases List.eq_nil_or_concat us with rfl | ⟨before, u, rfl⟩
    · rfl
    · -- what the last module writes depends on the items alone
      have hlast : ∀ c, canMerge (itemsIn c) = true → contentAfter p (before.concat u) c =
          some (Utf8.encode (fileOf u (itemsAfter (before.concat u) (itemsIn c))).fileText) := by
        intro c hc
        obtain ⟨hitems, hmerge⟩ := itemsIn_contentAfter p before hc
        rw [List.concat_eq_append, contentAfter, List.foldl_concat, ← contentAfter,
          after_of_canMerge p u hmerge, hitems, itemsAfter, itemsAfter, List.foldl_concat]
      obtain ⟨hitems, hmerge⟩ := itemsIn_contentAfter p (before.concat u) h
      rw [hlast _ hmerge, hitems, itemsAfter_itemsAfter, ← hlast content h]

/-! ## The same module again -/

/-- **Writing a module again** that has the same names leaves the file as it is exactly if the requests
are the same. -/
theorem after_after_iff (p : Path) (hnames : v.names.className = u.names.className)
    (h : canMerge (itemsIn content) = true) :
    (upkeep p v).after ((upkeep p u).after content) = (upkeep p u).after content ↔
      v.requests = u.requests := by
  have hrequestNames : requestNames v.names = requestNames u.names := by rw [requestNames, hnames, requestNames]
  have hfileOf : ∀ items, fileOf v items = fileOf u items := fun items => by
    rw [fileOf, fileOf, Names.collectionFolder, hnames, Names.collectionFolder]
  have hitems : mergedItems v (mergedItems u (itemsIn content)) =
      v.requests ++ kept (requestNames u.names) (itemsIn content) := by
    rw [mergedItems, hrequestNames, mergedItems, Update.requests, Update.requests, kept_append_kept]
  have hsound : ∀ e ∈ mergedItems u (itemsIn content), IsSound False e :=
    isSound_of_mem_mergedItems isSound_of_mem_itemsIn
  have hagain := canMerge_mergedItems u _ h
  rw [← itemsIn_after p u h] at hagain
  rw [after_of_canMerge p v hagain, itemsIn_after p u h, hfileOf, hitems, after_of_canMerge p u h]
  constructor
  · intro heq
    have hread := congrArg itemsIn heq
    rw [itemsIn_fileOf hsound, itemsIn_fileOf (hitems ▸ isSound_of_mem_mergedItems hsound)] at hread
    exact List.append_cancel_right hread
  · intro heq
    rw [heq]
    rfl

end Scaffold.Collection
