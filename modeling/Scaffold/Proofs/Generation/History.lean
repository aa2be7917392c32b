import Scaffold.Proofs.Disk.Writable
import Scaffold.Proofs.Generation.Sources

/-!
# Saving a request collection again and again

Each save of a collection merges with what the save before it wrote.  What a save keeps is what people
put into the file, and that does not change from one save to the next: the names of generated requests
depend on the class only, so none of them is ever kept, whatever the fields and the prefix of the save
were that made it.  The kept items are the invariant of a run (`runOn_saveAll`), and the rest of the
file is written by the last save alone (`saves_are_history_independent`).

That the file can be written is assumed (`Disk.AcceptsSaves`); that a document is read back as it was
written is not (`Files.documentIn?_encode`).
-/

namespace Scaffold.Documentation

open Collection

variable {s : Settings} {n : Names} {w : World}

/-- What the collection of a module is generated from, besides the names of the module. -/
structure Edition where
  fields : List Field
  apiPrefix : Text

/-- The collection of an edition. -/
def Edition.collection (n : Names) (e : Edition) : Json := ofModule n e.fields e.apiPrefix

/-- An edition as an update of the module. -/
def Edition.update (n : Names) (e : Edition) : Collection.Update := ⟨n, e.fields, e.apiPrefix⟩

/-- Saves the request collection of a module once for every edition. -/
def saveAll (s : Settings) (n : Names) : List Edition → Act Unit
  | [] => pure ()
  | e :: es => do
    let _ ← saveCollection s n (e.collection n)
    saveAll s n es

/-- The items in a collection file, if there is a file that holds a document with a list of them. -/
def itemsAt? (d : Disk) (p : Path) : Option (List Json) :=
  ((d.content? p).bind Files.documentIn?).bind existingItems?

/-- What an edition makes of the items in a file: its requests, and behind them the items that are not
objects with the name of one of the requests.  Without a list of items it is the collection of the
edition. -/
def Edition.over (n : Names) (e : Edition) : Option (List Json) → Json
  | none => e.collection n
  | some items => .object
      [("info", .object [("name", .str n.collectionFolder), ("schema", .str schemaUrl)]),
        ("item", .arr (requests n e.fields e.apiPrefix ++
          items.filter fun i => !isNamed (requestNames n) i))]

lemma Edition.over_eq (n : Names) (e : Edition) (items : Option (List Json)) :
    e.over n items = fileOf (e.update n) (mergedItems (e.update n) (items.getD [])) := by
  cases items with
  | none => exact collection_eq (e.update n)
  | some items => rfl

lemma itemsIn_content? (d : Disk) (p : Path) : itemsIn (d.content? p) = (itemsAt? d p).getD [] := rfl

lemma saveAll_append (es later : List Edition) (w : World) :
    (saveAll s n (es ++ later)).runOn w = (saveAll s n es >>= fun _ => saveAll s n later).runOn w := by
  induction es generalizing w with
  | nil => rfl
  | cons e es ih =>
    simp only [List.cons_append, saveAll, Act.runOn_bind] at ih ⊢
    split
    · exact ih _
    · rfl

/-! ## One save -/

section Saves

variable (hnames : Disk.HasNames (collectionFile s n))

include hnames

/-- **A save writes the requests of its edition and what people put into the file.** -/
lemma runOn_saveCollection (hsaves : w.disk.AcceptsSaves (· = collectionFile s n))
    (hmerge : canMerge (itemsIn (w.disk.content? (collectionFile s n))) = true) (e : Edition) :
    ∃ p w', (saveCollection s n (e.collection n)).runOn w = (.ok p, w') ∧
      w'.disk.AcceptsSaves (· = collectionFile s n) ∧
      w'.disk.content? (collectionFile s n) = some (Utf8.encode (fileOf (e.update n)
        (mergedItems (e.update n) (itemsIn (w.disk.content? (collectionFile s n))))).fileText) := by
  have hsave := hsaves w.disk (.refl _) _ rfl
  -- the place of the file does not depend on the prefix in the settings
  have hkeeps : KeepsUp (saveCollection s n (e.collection n))
      (upkeep (collectionFile s n) (e.update n)) w :=
    keepsUp_saveCollection { s with apiPrefix := e.apiPrefix } n e.fields hnames hsave
  obtain ⟨r, w', hrun, hdisk, haccepts⟩ := hkeeps
  have hok : r.isOk = true := by
    rw [haccepts, Upkeep.accepts, isSome_next]
    exact hmerge
  cases r with
  | error f => cases hok
  | ok p =>
    set content := Utf8.encode (fileOf (e.update n)
      (mergedItems (e.update n) (itemsIn (w.disk.content? (collectionFile s n))))).fileText with hcontent
    have hnext : (upkeep (collectionFile s n) (e.update n)).next
        (w.disk.content? (collectionFile s n)) = some content := by
      simp only [upkeep, updated?, hmerge, if_true, Option.map_some, hcontent]
    obtain ⟨d, hd⟩ := hsave content
    have hperform : (upkeep (collectionFile s n) (e.update n)).perform w.disk = d := by
      have hpath : (upkeep (collectionFile s n) (e.update n)).path = collectionFile s n := rfl
      rw [Upkeep.perform, hpath, hnext]
      simp only [hd]
    rw [hperform] at hdisk
    refine ⟨p, w', hrun, ?_, ?_⟩
    · rw [hdisk]
      exact hsaves.saved (.step (.refl _) rfl hd)
    · rw [hdisk]
      exact (Disk.save_ok hnames hd).content

/-! ## Many saves -/

/-- **What a run keeps**: the items that people put into the file are the same after it as before. -/
theorem runOn_saveAll (hsaves : w.disk.AcceptsSaves (· = collectionFile s n))
    (hmerge : canMerge (itemsIn (w.disk.content? (collectionFile s n))) = true) (es : List Edition) :
    ∃ w', (saveAll s n es).runOn w = (.ok (), w') ∧
      w'.disk.AcceptsSaves (· = collectionFile s n) ∧
      canMerge (itemsIn (w'.disk.content? (collectionFile s n))) = true ∧
      kept (requestNames n) (itemsIn (w'.disk.content? (collectionFile s n))) =
        kept (requestNames n) (itemsIn (w.disk.content? (collectionFile s n))) := by
  induction es generalizing w with
  | nil => exact ⟨w, rfl, hsaves, hmerge, rfl⟩
  | cons e es ih =>
    obtain ⟨p, w₁, hrun₁, hsaves₁, hcontent₁⟩ := runOn_saveCollection hnames hsaves hmerge e
    have hitems₁ : itemsIn (w₁.disk.content? (collectionFile s n)) =
        mergedItems (e.update n) (itemsIn (w.disk.content? (collectionFile s n))) := by
      rw [hcontent₁, itemsIn_fileOf (isSound_of_mem_mergedItems isSound_of_mem_itemsIn)]
    have hmerge₁ : canMerge (itemsIn (w₁.disk.content? (collectionFile s n))) = true := by
      rw [hitems₁]
      exact canMerge_mergedItems _ _ hmerge
    obtain ⟨w₂, hrun₂, hsaves₂, hmerge₂, hkept₂⟩ := ih hsaves₁ hmerge₁
    refine ⟨w₂, ?_, hsaves₂, hmerge₂, ?_⟩
    · rw [saveAll, Act.runOn_bind, hrun₁]
      exact hrun₂
    · rw [hkept₂, hitems₁]
      exact kept_append_kept n e.fields e.apiPrefix _

/-- A last save depends on the items alone that it keeps. -/
lemma runOn_saveLast {items : Option (List Json)}
    (hsaves : w.disk.AcceptsSaves (· = collectionFile s n))
    (hmerge : canMerge (itemsIn (w.disk.content? (collectionFile s n))) = true)
    (hkept : kept (requestNames n) (itemsIn (w.disk.content? (collectionFile s n))) =
      kept (requestNames n) (items.getD [])) (e : Edition) :
    ∃ w', (saveAll s n [e]).runOn w = (.ok (), w') ∧
      w'.disk.content? (collectionFile s n) = some (Utf8.encode (e.over n items).fileText) := by
  obtain ⟨p, w', hrun, -, hcontent⟩ := runOn_saveCollection hnames hsaves hmerge e
  refine ⟨w', ?_, ?_⟩
  · simp only [saveAll, Act.runOn_bind, hrun, Act.runOn_pure]
  · have hmerged : mergedItems (e.update n) (itemsIn (w.disk.content? (collectionFile s n))) =
        mergedItems (e.update n) (items.getD []) := congrArg ((e.update n).requests ++ ·) hkept
    rw [hcontent, hmerged, ← Edition.over_eq]

end Saves

/-- **Saving a collection is independent of its history**: after any number of saves the file is the
one that the last save alone makes of the first one, namely the requests of the last edition and what
people put into the file. -/
theorem saves_are_history_independent (hbase : Disk.HasNames s.base)
    (hsaves : w.disk.AcceptsSaves (· = collectionFile s n))
    (hplain : ∀ items, itemsAt? w.disk (collectionFile s n) = some items →
      ∀ i ∈ items, hasPlainName i = true)
    (before : List Edition) (last : Edition) :
    ∃ many one, (saveAll s n (before ++ [last])).runOn w = (.ok (), many) ∧
      (saveAll s n [last]).runOn w = (.ok (), one) ∧
      many.disk.content? (collectionFile s n) = one.disk.content? (collectionFile s n) ∧
      one.disk.content? (collectionFile s n) =
        some (Utf8.encode (last.over n (itemsAt? w.disk (collectionFile s n))).fileText) := by
  have hnames : Disk.HasNames (collectionFile s n) :=
    Rebuild.hasNames_child (Rebuild.hasNames_child hbase _) _
  have hmerge : canMerge (itemsIn (w.disk.content? (collectionFile s n))) = true := by
    rw [itemsIn_content?, canMerge, List.all_eq_true]
    cases hitems : itemsAt? w.disk (collectionFile s n) with
    | none => exact fun i hi => absurd hi List.not_mem_nil
    | some items => exact hplain items hitems
  obtain ⟨w₁, hrun₁, hsaves₁, hmerge₁, hkept₁⟩ := runOn_saveAll hnames hsaves hmerge before
  obtain ⟨many, hmany, hmanyContent⟩ := runOn_saveLast hnames hsaves₁ hmerge₁ hkept₁ last
  obtain ⟨one, hone, honeContent⟩ := runOn_saveLast hnames hsaves hmerge rfl last
  refine ⟨many, one, ?_, hone, hmanyContent.trans honeContent.symm, honeContent⟩
  rw [saveAll_append, Act.runOn_bind, hrun₁]
  exact hmany

/-! ## A collection that people added to -/

/-- Settings with short names. -/
def stallSettings : Settings := { base := ⟨.root, []⟩, collectionFolder := "c" }

/-- The names of a module. -/
def stallNames : Names := ⟨"stall", "Stall", "stall"⟩

/-- Items of which one has the name of a generated request. -/
def stallItems : List Json :=
  [.object [("name", .lit "Ping")], .int 5, .object [("name", .lit "Create Stall")], .object []]

/-- The content of a collection file with these items. -/
def stallContent : Bytes := Utf8.encode (Json.object [("item", .arr stallItems)]).fileText

/-- A world with that file. -/
def stallWorld : World where
  disk :=
    { home := []
      entries := [(["c".toList], .folder),
        (["c".toList, "stall.postman_collection.json".toList], .file stallContent)] }
  remote := .script []

/-- The path of that file. -/
def stallFile : Path := ⟨.root, ["c", "stall.postman_collection.json"]⟩

lemma collectionFile_stall : collectionFile stallSettings stallNames = stallFile := by decide +kernel

lemma canSave_stall : stallWorld.disk.CanSave stallFile :=
  ⟨rfl, ⟨["c".toList], Disk.place_eq_of_map (by decide)⟩, Disk.place_eq_of_map (by decide +kernel),
    by decide +kernel, Disk.place_eq_of_map (by decide +kernel), by decide +kernel⟩

lemma itemsAt?_stall : itemsAt? stallWorld.disk (collectionFile stallSettings stallNames) = some stallItems := by
  have hcontent : stallWorld.disk.content? stallFile = some stallContent :=
    Disk.content?_eq_some_iff.2 (Disk.place_eq_of_map (by decide +kernel))
  have hsound : Json.IsSound False (Json.object [("item", .arr stallItems)]) := by
    have hnumber : Json.IsSound False (.int 5) := ⟨trivial, fun _ => rfl⟩
    simp [stallItems, Json.isSound_object, Json.isSound_arr, hnumber]
  rw [collectionFile_stall, itemsAt?, hcontent, Option.bind_some, stallContent,
    Files.documentIn?_encode hsound.1]
  rfl

lemma acceptsSaves_stall :
    stallWorld.disk.AcceptsSaves (· = collectionFile stallSettings stallNames) := by
  rw [collectionFile_stall]
  refine Disk.acceptsSaves ?_ ?_
  · rintro p rfl
    exact canSave_stall
  · rintro p r rfl rfl
    decide +kernel

/-- After three saves the file holds the requests of the last one and the items of people, among them
an object without a name, but not the object that was named like a request. -/
theorem saves_are_history_independent_stall :
    let first : Edition := ⟨[.leaf "title" true false (.scalar .string)], "/api"⟩
    let last : Edition := ⟨[.leaf "size" false true (.scalar .number)], "/api/v2"⟩
    itemsAt? stallWorld.disk (collectionFile stallSettings stallNames) = some stallItems ∧
      (∀ i ∈ stallItems, hasPlainName i = true) ∧
      ∃ many, (saveAll stallSettings stallNames [first, ⟨[], []⟩, last]).runOn stallWorld = (.ok (), many) ∧
        many.disk.content? (collectionFile stallSettings stallNames) = some (Utf8.encode
          (fileOf (last.update stallNames) ((last.update stallNames).requests ++
            [.object [("name", .lit "Ping")], .int 5, .object []])).fileText) := by
  intro first last
  have hplain : ∀ i ∈ stallItems, hasPlainName i = true := by decide
  obtain ⟨many, one, hmany, -, hsame, hone⟩ := saves_are_history_independent (s := stallSettings)
    (n := stallNames) (w := stallWorld) nofun acceptsSaves_stall
    (fun items hitems => by
      obtain rfl : stallItems = items := Option.some.inj (itemsAt?_stall.symm.trans hitems)
      exact hplain)
    [first, ⟨[], []⟩] last
  have hkept : kept (requestNames stallNames) stallItems =
      [.object [("name", .lit "Ping")], .int 5, .object []] := by rfl
  refine ⟨itemsAt?_stall, hplain, many, hmany, ?_⟩
  rw [hsame, hone, itemsAt?_stall, Edition.over_eq, Option.getD_some, mergedItems, Edition.update, hkept]

end Scaffold.Documentation
