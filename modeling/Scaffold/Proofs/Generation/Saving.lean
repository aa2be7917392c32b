import Scaffold.Proofs.Collection.Contents
import Scaffold.Proofs.OpenApi.Contents

/-!
# What documenting a module does to the disk

Documenting a module keeps two files up to date, its request collection and the API document, and
does nothing else to the disk (`runOn_update`).  Each of the two is an upkeep: what is written depends
on what is in the file, and all that can go wrong besides writing is that the file holds something
that cannot be merged with.  Then the file stays as it is.
-/

namespace Scaffold.Documentation

open Collection

variable {s : Settings} {w : World} {p : Path} {u : Collection.Update} {v : Json} {items : List Json}

/-! ## The request collection -/

lemma collection_eq (u : Collection.Update) : u.collection = fileOf u (mergedItems u []) := by
  have hitems : mergedItems u [] = u.requests := List.append_nil _
  rw [hitems]
  rfl

lemma updated?_of_itemsIn {content : Option Bytes} (u : Collection.Update) (h : itemsIn content = []) :
    updated? u content = some u.collection := by
  rw [updated?, h, collection_eq]
  rfl

/-- Existing items are merged with the requests of the module. -/
lemma runOn_mergeExisting (hread : (Files.readDocument p).runOn w = (.ok v, w))
    (hitems : existingItems? v = some items) :
    ∃ w', w'.disk = w.disk ∧ (mergeExisting p u.collection).runOn w =
      (((Collection.merge (.arr u.requests) (.arr items)).mapError Failure.misfit).map
        fun m => fileOf u m.items, w') := by
  have hmembers : u.collection.copyMembers = .ok [("info".toList, .object
      [("name", .str u.names.collectionFolder), ("schema", .str schemaUrl)]),
      ("item".toList, .arr u.requests)] := rfl
  have hitem : u.collection.member? "item" = .ok (some (.arr u.requests)) := rfl
  cases hmerge : Collection.merge (.arr u.requests) (.arr items) with
  | error e =>
    refine ⟨_, ?_, Prod.ext ?_ rfl⟩
    all_goals simp only [mergeExisting, Act.runOn_bind, hread, hitems, Act.runOn_say, Act.ofFit,
        Act.runOn_ofExcept, hmembers, hitem, Option.getD_some, hmerge, Except.mapError, Except.map]
  | ok m =>
    refine ⟨_, ?_, Prod.ext ?_ rfl⟩
    all_goals simp only [mergeExisting, Act.runOn_bind, hread, hitems, Act.runOn_say, Act.ofFit,
        Act.runOn_ofExcept, hmembers, hitem, Option.getD_some, hmerge, Except.mapError, Except.map,
        Act.runOn_pure]
    rfl

/-- The items of the file are merged with, or there are none. -/
lemma runOn_keptCollection (w : World) (p : Path) (u : Collection.Update) :
    ∃ r w', w'.disk = w.disk ∧ (keptCollection p u.collection).runOn w = (r, w') ∧
      r.toOption = updated? u (w.disk.content? p) := by
  obtain ⟨r, hread, hcontent, hfailure⟩ := Files.runOn_readDocument w p
  have hitemsIn : itemsIn (w.disk.content? p) = (r.toOption.bind existingItems?).getD [] := by
    rw [hcontent, itemsIn]
  unfold keptCollection
  cases r with
  | error f =>
    have hfail := hfailure f rfl
    refine ⟨.ok u.collection, _, ?_, Prod.ext ?_ rfl, (updated?_of_itemsIn u hitemsIn).symm⟩
    all_goals simp only [Act.runOn_bind, Act.runOn_attempt, mergeExisting, hread, hfail, if_true,
      Act.runOn_say, Act.runOn_pure]
  | ok v =>
    cases hitems : existingItems? v with
    | none =>
      rw [Except.toOption, Option.bind_some, hitems] at hitemsIn
      refine ⟨.ok u.collection, w, rfl, ?_, (updated?_of_itemsIn u hitemsIn).symm⟩
      simp only [Act.runOn_bind, Act.runOn_attempt, mergeExisting, hread, hitems, Act.runOn_pure]
    | some items =>
      obtain ⟨w', hdisk, hrun⟩ := runOn_mergeExisting (p := p) (u := u) hread hitems
      rw [Except.toOption, Option.bind_some, hitems, Option.getD_some] at hitemsIn
      cases hmerge : canMerge items with
      | true =>
        have hmerged := merge_requests u.names u.fields u.apiPrefix (List.all_eq_true.1 hmerge)
        refine ⟨.ok (fileOf u (mergedItems u items)), w', hdisk, ?_, ?_⟩
        · rw [Collection.Update.requests, hmerged] at hrun
          simp only [Act.runOn_bind, Act.runOn_attempt, hrun, Except.mapError, Except.map, Act.runOn_pure]
          rfl
        · rw [updated?, hitemsIn, hmerge]
          rfl
      | false =>
        obtain ⟨kind, hmerged⟩ := exists_merge_eq_error u.names u.fields u.apiPrefix hmerge
        refine ⟨.error (.misfit (.notKey kind)), w', hdisk, ?_, ?_⟩
        · rw [Collection.Update.requests, hmerged] at hrun
          simp only [Act.runOn_bind, Act.runOn_attempt, hrun, Except.mapError, Except.map]
          rfl
        · rw [updated?, hitemsIn, hmerge]
          rfl

/-! ## The two files -/

/-- A run that keeps a file up to date. -/
def KeepsUp {α : Type} (act : Act α) (a : Upkeep) (w : World) : Prop :=
  ∃ r w', act.runOn w = (r, w') ∧ w'.disk = a.perform w.disk ∧ r.isOk = a.accepts w.disk

/-- Writes what was prepared for a file, and returns its path. -/
def written (p : Path) (records : List Log.Record) (prepared : Except Failure Json) : Act Path := do
  let v ← Act.ofExcept prepared
  let _ ← Files.writeDocument p v
  Act.say records
  return p

/-- A run that prepares what a file is to hold next, and writes it. -/
inductive Prepares (act : Act Path) (a : Upkeep) (w : World) : Prop where
  /-- The file cannot be looked at. -/
  | unseen {f : Failure} : w.disk.isPresent a.path = .error f → act.runOn w = (.error f, w) → Prepares act a w
  | prepared {r : Except Failure Json} {w₁ : World} (records : List Log.Record) : w₁.disk = w.disk →
    (r.toOption.map fun v => Utf8.encode v.fileText) = a.next (w.disk.content? a.path) →
    act.runOn w = (written a.path records r).runOn w₁ → Prepares act a w

/-- What follows a run does not see more of it than its result and what it left. -/
lemma runOn_bind_of_eq {α β : Type} {act : Act α} {r : Except Failure α} {w₁ : World} (k : α → Act β)
    (h : act.runOn w = (r, w₁)) : (act >>= k).runOn w = (Act.ofExcept r >>= k).runOn w₁ := by
  rw [Act.runOn_bind, h, Act.runOn_bind, Act.runOn_ofExcept]

/-- The collection that is written is made from what is in its file. -/
lemma prepares_saveCollection (s : Settings) (n : Names) (fields : List Field) (w : World) :
    Prepares (saveCollection s n (Collection.ofModule n fields s.apiPrefix))
      (Collection.upkeep (collectionFile s n) ⟨n, fields, s.apiPrefix⟩) w := by
  have hrun : (saveCollection s n (Collection.ofModule n fields s.apiPrefix)).runOn w = _ :=
    Act.runOn_bind ..
  rw [Act.runOn_look] at hrun
  cases hpresent : w.disk.isPresent (collectionFile s n) with
  | error f =>
    rw [hpresent] at hrun
    exact .unseen hpresent hrun
  | ok existed =>
    rw [hpresent] at hrun
    cases existed with
    | true =>
      obtain ⟨r, w₁, hdisk, hkept, hupdated⟩ :=
        runOn_keptCollection w (collectionFile s n) ⟨n, fields, s.apiPrefix⟩
      exact .prepared _ hdisk (congrArg (Option.map _) hupdated) (hrun.trans (runOn_bind_of_eq _ hkept))
    | false =>
      have hnew : (pure (Collection.ofModule n fields s.apiPrefix) : Act Json).runOn w =
          (.ok (Collection.ofModule n fields s.apiPrefix), w) := Act.runOn_pure _ w
      refine .prepared _ rfl ?_ (hrun.trans (runOn_bind_of_eq _ hnew))
      have hnothing : itemsIn (w.disk.content? (collectionFile s n)) = [] := by
        rw [Disk.content?_of_missing hpresent]
        rfl
      exact congrArg (Option.map _) (updated?_of_itemsIn ⟨n, fields, s.apiPrefix⟩ hnothing).symm

/-- What is started with is what the file says. -/
lemma runOn_existingDocument (w : World) (p : Path) :
    ∃ w', w'.disk = w.disk ∧
      (existingDocument p).runOn w = (.ok (OpenApi.documentIn (w.disk.content? p)), w') := by
  obtain ⟨r, hread, hcontent, hfailure⟩ := Files.runOn_readDocument w p
  rw [OpenApi.documentIn, ← hcontent]
  unfold existingDocument
  cases r with
  | error f =>
    have hfail := hfailure f rfl
    refine ⟨_, ?_, Prod.ext ?_ rfl⟩
    all_goals simp only [Act.runOn_bind, Act.runOn_attempt, hread, hfail, if_true, Act.runOn_say,
      Act.runOn_pure]
    rfl
  | ok v =>
    refine ⟨_, ?_, Prod.ext ?_ rfl⟩
    all_goals cases v <;> simp only [Act.runOn_bind, Act.runOn_attempt, hread, Act.runOn_say,
      Act.runOn_pure, Except.toOption]

/-- The API document that is written is made from what is in its file. -/
lemma prepares_saveDocument (s : Settings) (n : Names) (fields : List Field) (w : World) :
    Prepares (saveDocument s n fields) (OpenApi.upkeep s.documentPath ⟨n, fields, s.apiPrefix⟩) w := by
  have hnext : ∀ content, ((((OpenApi.updated ⟨n, fields, s.apiPrefix⟩ content).mapError
      Failure.misfit).toOption).map fun v => Utf8.encode v.fileText) =
        (OpenApi.upkeep s.documentPath ⟨n, fields, s.apiPrefix⟩).next content := by
    intro content
    simp only [OpenApi.upkeep]
    cases OpenApi.updated ⟨n, fields, s.apiPrefix⟩ content <;> rfl
  have hrun : (saveDocument s n fields).runOn w = _ := Act.runOn_bind ..
  rw [Act.runOn_look] at hrun
  cases hpresent : w.disk.isPresent s.documentPath with
  | error f =>
    rw [hpresent] at hrun
    exact .unseen hpresent hrun
  | ok existed =>
    rw [hpresent] at hrun
    cases existed with
    | true =>
      obtain ⟨w₁, hdisk, hread⟩ := runOn_existingDocument w s.documentPath
      exact .prepared _ hdisk (hnext _) (hrun.trans (runOn_bind_of_eq _ hread))
    | false =>
      have hnew : (pure OpenApi.defaultDocument : Act Json).runOn w =
          (.ok (OpenApi.documentIn (w.disk.content? s.documentPath)), w) := by
        rw [Disk.content?_of_missing hpresent]
        rfl
      exact .prepared _ rfl (hnext _) (hrun.trans (runOn_bind_of_eq _ hnew))

/-- What is prepared for a file that can be written keeps the file up to date. -/
lemma Prepares.keepsUp {act : Act Path} {a : Upkeep} (h : Prepares act a w) (hnames : Disk.HasNames a.path)
    (hsave : ∀ content, ∃ d', w.disk.save a.path content = (.ok (), d')) : KeepsUp act a w := by
  cases h with
  | unseen hpresent =>
    obtain ⟨d₀, hempty⟩ := hsave []
    rw [Disk.isPresent_of_save hnames hempty] at hpresent
    cases hpresent
  | @prepared r w₁ records hdisk hnext hrun =>
    rw [KeepsUp, hrun, written, Act.runOn_bind, Act.runOn_ofExcept]
    cases r with
    | error f =>
      have hnext' : a.next (w.disk.content? a.path) = none := hnext.symm
      refine ⟨.error f, w₁, rfl, ?_, ?_⟩
      · rw [Upkeep.perform, hnext', hdisk]
      · rw [Upkeep.accepts, hnext']
        rfl
    | ok v =>
      have hnext' : a.next (w.disk.content? a.path) = some (Utf8.encode v.fileText) := hnext.symm
      obtain ⟨d, hd⟩ := hsave (Utf8.encode v.fileText)
      obtain ⟨n, w₂, hwrite, hdisk₂⟩ := Files.runOn_write (hdisk ▸ hd)
      refine ⟨.ok a.path, _, Prod.ext ?_ rfl, ?_, ?_⟩
      · simp only [Act.runOn_bind, Files.writeDocument, hwrite, Act.runOn_say, Act.runOn_pure]
      · simp only [Act.runOn_bind, Files.writeDocument, hwrite, Act.runOn_say, Act.runOn_pure]
        rw [Upkeep.perform, hnext']
        simp only [hd, hdisk₂]
      · rw [Upkeep.accepts, hnext']
        rfl

/-- **Saving the request collection** keeps its file up to date. -/
theorem keepsUp_saveCollection (s : Settings) (n : Names) (fields : List Field)
    (hnames : Disk.HasNames (collectionFile s n))
    (hsave : ∀ content, ∃ d', w.disk.save (collectionFile s n) content = (.ok (), d')) :
    KeepsUp (saveCollection s n (Collection.ofModule n fields s.apiPrefix))
      (Collection.upkeep (collectionFile s n) ⟨n, fields, s.apiPrefix⟩) w :=
  (prepares_saveCollection s n fields w).keepsUp hnames hsave

/-- **Saving the API document** keeps it up to date. -/
theorem keepsUp_saveDocument (s : Settings) (n : Names) (fields : List Field)
    (hnames : Disk.HasNames s.documentPath)
    (hsave : ∀ content, ∃ d', w.disk.save s.documentPath content = (.ok (), d')) :
    KeepsUp (saveDocument s n fields) (OpenApi.upkeep s.documentPath ⟨n, fields, s.apiPrefix⟩) w :=
  (prepares_saveDocument s n fields w).keepsUp hnames hsave

/-! ## Both files -/

/-- The files that documenting a module keeps up to date. -/
def upkeeps (s : Settings) (n : Names) (fields : List Field) : List Upkeep :=
  (if s.updateCollection then [Collection.upkeep (collectionFile s n) ⟨n, fields, s.apiPrefix⟩] else []) ++
    if s.updateDocument then [OpenApi.upkeep s.documentPath ⟨n, fields, s.apiPrefix⟩] else []

/-- What is known of a step of documenting: it never fails, and reports a failure exactly if a file
that it keeps up to date is not written. -/
def Reports (act : DocumentationResult → Act DocumentationResult) (as : List Upkeep) (w : World) : Prop :=
  ∀ r, ∃ r' w', (act r).runOn w = (.ok r', w') ∧ w'.disk = Upkeep.performAll as w.disk ∧
    r'.success = (r.success && Upkeep.allAccept as w.disk)

lemma runOn_failed (r : DocumentationResult) (what : Text) (f : Failure) (w : World) :
    ∃ r' w', (failed r what f).runOn w = (.ok r', w') ∧ w'.disk = w.disk ∧ r'.success = false := by
  refine ⟨_, _, Prod.ext rfl rfl, rfl, ?_⟩
  simp [DocumentationResult.success]

/-- A step that attempts to keep a file up to date. -/
lemma reports_of_keepsUp {α : Type} {save : Act α} {a : Upkeep} (what : Text)
    {act : DocumentationResult → Act DocumentationResult} (hkeeps : KeepsUp save a w)
    (herror : ∀ r f w', save.runOn w = (.error f, w') →
      (act r).runOn w = (failed r what f).runOn w')
    (hok : ∀ r x w', save.runOn w = (.ok x, w') →
      ∃ r', (act r).runOn w = (.ok r', w') ∧ r'.success = r.success) :
    Reports act [a] w := by
  intro r
  obtain ⟨saved, w', hrun, hdisk, hsaved⟩ := hkeeps
  have haccept : Upkeep.allAccept [a] w.disk = saved.isOk := by
    rw [hsaved, Upkeep.allAccept, Upkeep.allAccept, Bool.and_true]
  rw [haccept]
  cases saved with
  | error f =>
    obtain ⟨r', w'', hfailed, hdisk', hsuccess⟩ := runOn_failed r what f w'
    refine ⟨r', w'', (herror r f w' hrun).trans hfailed, hdisk'.trans hdisk, ?_⟩
    rw [hsuccess]
    exact (Bool.and_false _).symm
  | ok x =>
    obtain ⟨r', hreport, hsuccess⟩ := hok r x w' hrun
    refine ⟨r', w', hreport, hdisk, ?_⟩
    rw [hsuccess]
    exact (Bool.and_true _).symm

lemma reports_updateCollection (n : Names) (fields : List Field) (client : Option Client)
    (hremote : s.isRemote = false) (hnames : Disk.HasNames (collectionFile s n))
    (hsave : ∀ content, ∃ d', w.disk.save (collectionFile s n) content = (.ok (), d')) :
    Reports (updateCollection s n fields client)
      [Collection.upkeep (collectionFile s n) ⟨n, fields, s.apiPrefix⟩] w := by
  refine reports_of_keepsUp "Postman collection" (keepsUp_saveCollection s n fields hnames hsave) (fun r f w' h => ?_)
    fun r x w' h => ⟨{ r with collectionPath := some x.text }, ?_, rfl⟩
  · rw [updateCollection, Act.runOn_bind, Act.runOn_attempt, h]
  · simp only [updateCollection, Act.runOn_bind, Act.runOn_attempt, h, hremote, Bool.false_eq_true,
      if_false, Act.runOn_pure]

lemma reports_updateDocument (n : Names) (fields : List Field)
    (hnames : Disk.HasNames s.documentPath)
    (hsave : ∀ content, ∃ d', w.disk.save s.documentPath content = (.ok (), d')) :
    Reports (updateDocument s n fields)
      [OpenApi.upkeep s.documentPath ⟨n, fields, s.apiPrefix⟩] w := by
  refine reports_of_keepsUp "Swagger documentation" (keepsUp_saveDocument s n fields hnames hsave) (fun r f w' h => ?_)
    fun r x w' h => ⟨{ r with documentPath := some x.text }, ?_, rfl⟩
  · rw [updateDocument, Act.runOn_bind, Act.runOn_attempt, h]
  · simp only [updateDocument, Act.runOn_bind, Act.runOn_attempt, h, Act.runOn_pure]

lemma Reports.append {act act' : DocumentationResult → Act DocumentationResult} {as bs : List Upkeep}
    (h : Reports act as w) (h' : ∀ w', w'.disk = Upkeep.performAll as w.disk → Reports act' bs w') :
    Reports (fun r => act r >>= act') (as ++ bs) w := by
  intro r
  obtain ⟨r₁, w₁, hrun, hdisk, hsuccess⟩ := h r
  obtain ⟨r₂, w₂, hrun', hdisk', hsuccess'⟩ := h' w₁ hdisk r₁
  refine ⟨r₂, w₂, ?_, ?_, ?_⟩
  · rw [Act.runOn_bind, hrun]
    exact hrun'
  · rw [hdisk', hdisk, Upkeep.performAll_append]
  · rw [hsuccess', hsuccess, hdisk, Upkeep.allAccept_append, Bool.and_assoc]

lemma reports_pure (w : World) : Reports pure [] w := fun r =>
  ⟨r, w, rfl, rfl, (Bool.and_true _).symm⟩

/-- Brings the files of a module up to date, each if it is asked for. -/
def updateFiles (s : Settings) (n : Names) (fields : List Field) (client : Option Client)
    (r : DocumentationResult) : Act DocumentationResult :=
  (if s.updateCollection then updateCollection s n fields client r else pure r) >>= fun r =>
    if s.updateDocument then updateDocument s n fields r else pure r

lemma update_eq (s : Settings) (n : Names) (fields : List Field) (client : Option Client) :
    update s n fields client = do
      Act.say [⟨.info, .documentation, "Updating documentation for " ++ n.className ++ "..."⟩]
      let r ← updateFiles s n fields client { className := n.className }
      Act.say [⟨.info, .documentation, "Documentation update completed for " ++ n.className ++ "."⟩]
      return r := by
  unfold update updateFiles
  cases s.updateCollection <;> cases s.updateDocument <;> simp

section Update

variable (n : Names) (fields : List Field) (client : Option Client) (hremote : s.isRemote = false)
  (hnames : ∀ p, Upkeep.paths (upkeeps s n fields) p → Disk.HasNames p)
  (hsaves : w.disk.AcceptsSaves (Upkeep.paths (upkeeps s n fields)))

include hremote hnames hsaves

lemma reports_updateFiles : Reports (updateFiles s n fields client) (upkeeps s n fields) w := by
  have hsave : ∀ p, Upkeep.paths (upkeeps s n fields) p → ∀ content, ∃ d',
      w.disk.save p content = (.ok (), d') := hsaves w.disk (.refl _)
  unfold updateFiles
  refine Reports.append ?_ fun w' hdisk => ?_
  · cases hc : s.updateCollection with
    | false => exact reports_pure w
    | true =>
      have hpath : Upkeep.paths (upkeeps s n fields) (collectionFile s n) := by
        refine ⟨Collection.upkeep (collectionFile s n) ⟨n, fields, s.apiPrefix⟩, ?_, rfl⟩
        simp [upkeeps, hc]
      exact reports_updateCollection n fields client hremote (hnames _ hpath) (hsave _ hpath)
  · cases hd : s.updateDocument with
    | false => exact reports_pure w'
    | true =>
      have hpath : Upkeep.paths (upkeeps s n fields) s.documentPath := by
        refine ⟨OpenApi.upkeep s.documentPath ⟨n, fields, s.apiPrefix⟩, ?_, rfl⟩
        simp [upkeeps, hd]
      refine reports_updateDocument n fields (hnames _ hpath) (hsaves w'.disk ?_ _ hpath)
      rw [hdisk]
      refine Upkeep.saved_performAll hsaves fun a ha => ⟨a, ?_, rfl⟩
      exact List.mem_append_left _ ha

/-- **Documenting a module** keeps its files up to date, and is successful if all of them are
written. -/
theorem runOn_update :
    ∃ r w', (update s n fields client).runOn w = (.ok r, w') ∧
      w'.disk = Upkeep.performAll (upkeeps s n fields) w.disk ∧
      r.success = Upkeep.allAccept (upkeeps s n fields) w.disk := by
  obtain ⟨r, w', hrun, hdisk, hsuccess⟩ := reports_updateFiles (w := { w with log := w.log ++
    [⟨.info, .documentation, "Updating documentation for " ++ n.className ++ "..."⟩] })
    n fields client hremote hnames hsaves { className := n.className }
  rw [update_eq]
  refine ⟨r, _, Prod.ext ?_ rfl, ?_, hsuccess⟩
  · simp only [Act.runOn_bind, Act.runOn_say, hrun, Act.runOn_pure]
  · simp only [Act.runOn_bind, Act.runOn_say, hrun, Act.runOn_pure]
    exact hdisk

end Update

end Scaffold.Documentation
