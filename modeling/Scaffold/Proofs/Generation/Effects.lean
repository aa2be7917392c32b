import Scaffold.Proofs.Generation.Footprint
import Scaffold.Proofs.Generation.Locations

/-!
# What a generation may touch

A generation whose report has findings that are errors, which had nothing to do or which found the
folder of its module, has changed nothing but the log.  Every other one, also one that fails halfway,
has changed no file but those of the new module, the upload helper, the router file, the request
collection of the module and the API document, each on the terms on which it is written at all, and
has made no folder but those on the way to them (`mayWrite`, `mayMake`).  In particular no temporary
file is left.

So a folder that a generation has made is an end for all later ones of its name, and a strict
generation is either refused or the same as one that is not.
-/

namespace Scaffold

open Act

/-- Whether a world is another one with more said. -/
def World.OnlyLogs (w w' : World) : Prop := ∃ records, w' = w.logged records

lemma World.OnlyLogs.trans {w w' w'' : World} (h : w.OnlyLogs w') (h' : w'.OnlyLogs w'') : w.OnlyLogs w'' := by
  obtain ⟨records, rfl⟩ := h
  obtain ⟨more, rfl⟩ := h'
  exact ⟨_, World.logged_logged ..⟩

lemma World.OnlyLogs.disk {w w' : World} (h : w.OnlyLogs w') : w'.disk = w.disk := by
  obtain ⟨records, rfl⟩ := h
  rfl

lemma World.OnlyLogs.changes {w w' : World} (h : w.OnlyLogs w') (files folders : Location → Prop) :
    Disk.Changes files folders w.disk w'.disk := by
  rw [h.disk]
  exact .refl _

namespace ModuleFolder

variable {s : Settings} {n : Names} {rendered : List (Artifact × Text)} {upload : Bool} {w w' : World}
  {f : FolderResult} {d : Disk}

/-- Nothing that is there disappears while a folder is filled. -/
lemma stays_content_anywhere (s : Settings) (n : Names) (rendered : List (Artifact × Text)) (upload : Bool) :
    Stays d (fun _ => True) (fun _ => True) (content true s n rendered upload) :=
  stays_content (fun _ _ => ⟨trivial, fun _ _ => trivial⟩) fun _ _ => ⟨trivial, fun _ _ => trivial⟩

/-- A folder that was made is there. -/
lemma isPresent_of_made (h : (fill true s n rendered upload).runOn w = (.ok (f, true), w')) :
    w'.disk.isPresent (path s n) = .ok true := by
  obtain ⟨w₁, hmake, hcontent⟩ := content_of_made h
  have hpresent : w₁.disk.isPresent (path s n) = .ok true := by
    obtain ⟨m, hplace⟩ := Files.place_of_ensureFolder hmake
    exact Disk.isPresent_of_place hplace
  exact ((stays_content_anywhere s n rendered upload).run hcontent (.refl _)).isPresent hpresent

end ModuleFolder

namespace Generator

variable {g : Generator} {s : Settings} {n : Names} {p : Parsed} {name : Text} {tokens : List Text}
  {w : World} {d : Disk}

/-! ## Findings -/

lemma not_isError_diagnostic (r : Remark) : r.diagnostic.isError = false := by
  cases r <;> rfl

lemma errors_diagnostics (p : Parsed) : p.diagnostics.errors = [] := by
  refine List.filter_eq_nil_iff.2 fun d hd => ?_
  obtain ⟨r, -, rfl⟩ := List.mem_map.1 hd
  rw [not_isError_diagnostic]
  exact Bool.false_ne_true

lemma hasErrors_iff (ds : Diagnostics) : ds.hasErrors = true ↔ ds.errors ≠ [] := by
  rw [Diagnostics.hasErrors, Diagnostics.errors, List.any_eq_true, ne_eq, List.filter_eq_nil_iff]
  push Not
  rfl

lemma hasWarnings_iff (ds : Diagnostics) : ds.hasWarnings = true ↔ ds.warnings ≠ [] := by
  rw [Diagnostics.hasWarnings, Diagnostics.warnings, List.any_eq_true, ne_eq, List.filter_eq_nil_iff]
  push Not
  rfl

lemma hasErrors_congr {ds ds' : Diagnostics} (h : ds.errors = ds'.errors) : ds.hasErrors = ds'.hasErrors := by
  rw [Bool.eq_iff_iff, hasErrors_iff, hasErrors_iff, h]

/-- A report shows the errors and the warnings among findings. -/
lemma reportFindings_congr (r : Report) {ds ds' : Diagnostics} (herrors : ds.errors = ds'.errors)
    (hwarnings : ds.warnings = ds'.warnings) : reportFindings r ds = reportFindings r ds' := by
  have hhas : ds.hasWarnings = ds'.hasWarnings := by
    rw [Bool.eq_iff_iff, hasWarnings_iff, hasWarnings_iff, hwarnings]
  simp only [reportFindings, findingsDetail, herrors, hwarnings, hasErrors_congr herrors, hhas]

lemma findingsRecords_congr {ds ds' : Diagnostics} (herrors : ds.errors = ds'.errors)
    (hwarnings : ds.warnings = ds'.warnings) : findingsRecords ds = findingsRecords ds' := by
  simp only [findingsRecords, herrors, hwarnings, hasErrors_congr herrors]

lemma errors_append (ds ds' : Diagnostics) :
    Diagnostics.errors (ds ++ ds') = Diagnostics.errors ds ++ Diagnostics.errors ds' := List.filter_append ..

lemma warnings_append (ds ds' : Diagnostics) :
    Diagnostics.warnings (ds ++ ds') = Diagnostics.warnings ds ++ Diagnostics.warnings ds' := List.filter_append ..

/-- Strict findings without errors are the findings that are not strict, less remarks that are neither
errors nor warnings. -/
lemma findings_of_strict (h : (findings true name p).hasErrors = false) :
    (findings true name p).errors = (findings false name p).errors ∧
      (findings true name p).warnings = (findings false name p).warnings := by
  have hwarnings : p.diagnostics.warnings = [] := by
    refine List.eq_nil_iff_forall_not_mem.2 fun d hd => ?_
    have hmem : d.asError ∈ findings true name p :=
      List.mem_append_right _ (List.mem_map_of_mem hd)
    exact absurd (List.any_eq_true.2 ⟨_, hmem, rfl⟩) (ne_of_eq_of_ne h Bool.false_ne_true)
  have hstrict : findings true name p =
      Names.audit name ++ Field.auditDiagnostics p.fields ++ Artifact.auditSkipped p.skipped := by
    rw [findings, if_pos rfl, hwarnings, List.map_nil, List.append_nil]
  have hloose : findings false name p = findings true name p ++ p.diagnostics := by
    rw [hstrict]
    rfl
  rw [hloose, errors_append, warnings_append, errors_diagnostics, hwarnings, List.append_nil,
    List.append_nil]
  exact ⟨rfl, rfl⟩

/-! ## Up to the folder of the module -/

/-- Whether nothing in a report says that the generation ended before the folder was made. -/
structure IsOpen (r : Report) : Prop where
  valid : r.validationErrors = []
  busy : r.noOp = false
  new : r.existed = false

/-- Whether a report tells of a module that was made without errors of writing. -/
def isClean (r : Report) : Bool :=
  r.validationErrors.isEmpty && !r.noOp && !r.existed && r.exportErrors.isEmpty

lemma exists_of_isClean {x : Except Failure Report} (h : x.toOption.any isClean = true) :
    ∃ r, x = .ok r ∧ IsOpen r ∧ r.exportErrors = [] := by
  obtain ⟨r, hr, hclean⟩ := (Option.any_eq_true ..).1 h
  simp only [isClean, Bool.and_eq_true, Bool.not_eq_true', List.isEmpty_iff] at hclean
  obtain ⟨⟨⟨hvalid, hbusy⟩, hnew⟩, hexport⟩ := hclean
  exact ⟨r, eq_ok_of_toOption hr, ⟨hvalid, hbusy, hnew⟩, hexport⟩

/-- How a generation goes on where the folder of the module is missing. -/
inductive Creation (g : Generator) (n : Names) (p : Parsed) (w : World) :
    Except Failure Report → World → Prop where
  /-- Filling the folder failed in a way that is not reported. -/
  | failed {w₁ w₂ w₃ : World} {e : Failure} : w.OnlyLogs w₁ →
    (ModuleFolder.fill true g.settings n (rendered n p) p.upload).runOn w₁ = (.error e, w₂) →
    w₂.OnlyLogs w₃ → Creation g n p w (.error e) w₃
  /-- The folder could not be made. -/
  | refused {w₁ w₂ w₃ : World} {f : FolderResult} {r : Report} : w.OnlyLogs w₁ →
    (ModuleFolder.fill true g.settings n (rendered n p) p.upload).runOn w₁ = (.ok (f, false), w₂) →
    w₂.OnlyLogs w₃ → IsOpen r → r.exportErrors = f.errors → Creation g n p w (.ok r) w₃
  /-- The folder was made, and the module is registered and documented. -/
  | finished {w₁ w₂ w₃ w₄ : World} {f : FolderResult} {r : Report} {x : Except Failure Report} :
    w.OnlyLogs w₁ →
    (ModuleFolder.fill true g.settings n (rendered n p) p.upload).runOn w₁ = (.ok (f, true), w₂) →
    w₂.OnlyLogs w₃ → (g.finish n p r).runOn w₃ = (x, w₄) → IsOpen r → r.exportErrors = f.errors →
    Creation g n p w x w₄

lemma Creation.of_onlyLogs {w₀ w' : World} {x : Except Failure Report} (h : Creation g n p w x w')
    (hw : w₀.OnlyLogs w) : Creation g n p w₀ x w' := by
  cases h with
  | failed h₁ hfill h₂ => exact .failed (hw.trans h₁) hfill h₂
  | refused h₁ hfill h₂ hopen herrors => exact .refused (hw.trans h₁) hfill h₂ hopen herrors
  | finished h₁ hfill h₂ hfinish hopen herrors =>
    exact .finished (hw.trans h₁) hfill h₂ hfinish hopen herrors

lemma exists_of_map_eq_ok {f : Report → Report} {x : Except Failure Report} {r : Report}
    (h : x.map f = .ok r) : ∃ r', x = .ok r' ∧ f r' = r := by
  cases x with
  | error e => cases h
  | ok r' => exact ⟨r', rfl, Except.ok.inj h⟩

/-- Nothing that is there disappears while a module is registered and documented. -/
lemma stays_finish_anywhere (g : Generator) (n : Names) (p : Parsed) (r : Report) :
    Stays d (fun _ => True) (fun _ => True) (g.finish n p r) :=
  stays_finish (Registration.stays_register fun _ => ⟨trivial, fun _ _ => trivial⟩)
    (fun _ => Documentation.stays_update (fun _ => ⟨trivial, fun _ _ => trivial⟩)
      fun _ => ⟨trivial, fun _ _ => trivial⟩) p r

/-- Registering and documenting do not end a generation early. -/
lemma Creation.isOpen {w' : World} {r : Report} (h : Creation g n p w (.ok r) w') : IsOpen r := by
  cases h with
  | refused _ _ _ hopen => exact hopen
  | finished _ _ _ hend hopen =>
    obtain ⟨hvalid, hbusy, hnew, -⟩ := finish_flags hend
    exact ⟨hvalid.trans hopen.valid, hbusy.trans hopen.busy, hnew.trans hopen.new⟩

lemma Creation.isOpen_of_result {w' : World} {x : Except Failure Report} {r : Report}
    (h : Creation g n p w x w') (hr : (x.map fun r => staged p r.closed) = .ok r) : IsOpen r := by
  obtain ⟨r', rfl, rfl⟩ := exists_of_map_eq_ok hr
  exact ⟨h.isOpen.valid, h.isOpen.busy, h.isOpen.new⟩

/-- A creation without errors of writing leaves the folder of the module. -/
lemma Creation.isPresent {w' : World} {r : Report} (h : Creation g n p w (.ok r) w')
    (herrors : r.exportErrors = []) : w'.disk.isPresent (ModuleFolder.path g.settings n) = .ok true := by
  cases h with
  | refused _ hfill _ _ hexport =>
    exact absurd (hexport.symm.trans herrors) (ModuleFolder.of_not_made hfill).2.2
  | finished _ hfill hlast hend =>
    have hpresent := ModuleFolder.isPresent_of_made hfill
    rw [← hlast.disk] at hpresent
    exact ((stays_finish_anywhere g n p _).run hend (.refl _)).isPresent hpresent

lemma isOpen_named (h : (g.findingsOn name tokens).hasErrors = false) :
    IsOpen (named name n p (g.findingsOn name tokens)) := by
  have herrors : (g.findingsOn name tokens).errors = [] := by
    by_contra hne
    exact absurd ((hasErrors_iff _).2 hne) (ne_of_eq_of_ne h Bool.false_ne_true)
  exact ⟨congrArg (List.map Diagnostic.text) herrors, rfl, rfl⟩

/-- Where the folder of the module is missing, it is made. -/
lemma creation_produce {r : Report} (hopen : IsOpen r) (hfields : p.fields ≠ [])
    (hmissing : w.disk.isPresent (ModuleFolder.path g.settings n) = .ok false) :
    Creation g n p w ((g.produce n p r).runOn w).1 ((g.produce n p r).runOn w).2 := by
  set w₁ := w.logged (renderRecords n p) with hw₁
  have hfirst : w.OnlyLogs w₁ := ⟨_, rfl⟩
  rw [runOn_produce hfields, ModuleFolder.runOn_write_of_missing (w := w₁) hmissing]
  cases hfill : (ModuleFolder.fill true g.settings n (rendered n p) p.upload).runOn w₁ with
  | mk x w₂ =>
    cases x with
    | error e => exact .failed hfirst hfill (.trans ⟨_, rfl⟩ ⟨_, rfl⟩)
    | ok result =>
      obtain ⟨f, made⟩ := result
      obtain ⟨hcreated, hexisted⟩ := ModuleFolder.fill_flags hfill
      have hopen' : IsOpen (reportFolder (reportRendered r (rendered n p)) f) :=
        ⟨hopen.valid, hopen.busy, hexisted⟩
      simp only [hcreated, hexisted]
      cases made with
      | true => exact .finished hfirst hfill (.trans ⟨_, rfl⟩ ⟨_, rfl⟩) rfl hopen' rfl
      | false => exact .refused hfirst hfill (.trans ⟨_, rfl⟩ ⟨_, rfl⟩) hopen' rfl

/-- Where something is at the folder of the module, or it cannot be looked at, nothing is changed. -/
lemma onlyLogs_produce (hfields : p.fields ≠ []) (r : Report)
    (hpresent : w.disk.isPresent (ModuleFolder.path g.settings n) ≠ .ok false) :
    w.OnlyLogs ((g.produce n p r).runOn w).2 ∧
      ∀ r', ((g.produce n p r).runOn w).1 = .ok r' → ¬ IsOpen r' := by
  set w₁ := w.logged (renderRecords n p) with hw₁
  have hfirst : w.OnlyLogs w₁ := ⟨_, rfl⟩
  rw [runOn_produce hfields]
  cases hfound : w.disk.isPresent (ModuleFolder.path g.settings n) with
  | error e =>
    rw [ModuleFolder.runOn_write_of_error (w := w₁) hfound]
    exact ⟨hfirst.trans ⟨_, rfl⟩, nofun⟩
  | ok present =>
    obtain rfl : present = true := by
      cases present with
      | true => rfl
      | false => exact absurd hfound hpresent
    obtain ⟨f, records, hwrite, hexisted⟩ : ∃ f records,
        (ModuleFolder.write true g.settings n (rendered n p) p.upload).runOn w₁ =
          (.ok f, w₁.logged records) ∧ f.existed = true := ModuleFolder.runOn_write_of_present hfound
    rw [hwrite]
    simp only [hexisted, Bool.true_or, if_true]
    refine ⟨(hfirst.trans ⟨_, rfl⟩).trans ⟨_, rfl⟩, fun r' hr' hopen' => ?_⟩
    obtain rfl := Except.ok.inj hr'
    exact absurd (hopen'.new.symm.trans hexisted) (by decide)

/-- Producing a module changes nothing, and the report says why, or it makes a new folder. -/
lemma produce_cases {r : Report} (hopen : IsOpen r) (w : World) :
    let run := (g.produce n p r).runOn w
    (w.OnlyLogs run.2 ∧ ∀ r, run.1 = .ok r → ¬ IsOpen r) ∨
      w.disk.isPresent (ModuleFolder.path g.settings n) = .ok false ∧ Creation g n p w run.1 run.2 := by
  intro run
  by_cases hfields : p.fields = []
  · obtain ⟨r', records, hrun, hnoOp⟩ := runOn_produce_of_nil (g := g) (n := n) hfields r w
    refine .inl ⟨⟨_, congrArg Prod.snd hrun⟩, fun r'' hr'' hopen' => ?_⟩
    obtain rfl : r' = r'' := Except.ok.inj ((congrArg Prod.fst hrun).symm.trans hr'')
    exact absurd (hopen'.busy.symm.trans hnoOp) (by decide)
  by_cases hmissing : w.disk.isPresent (ModuleFolder.path g.settings n) = .ok false
  · exact .inr ⟨hmissing, creation_produce hopen hfields hmissing⟩
  · exact .inl (onlyLogs_produce hfields r hmissing)

/-- **What a generation does**: it ends without having changed anything, and its report says why, or
its input has no errors and it makes a new folder. -/
theorem generate_cases (g : Generator) (name : Text) (tokens : List Text) (w : World) :
    let run := (g.generate name tokens).runOn w
    (w.OnlyLogs run.2 ∧ ∀ r, run.1 = .ok r → ¬ IsOpen r) ∨
      ∃ n x, Names.ofRaw? name = some n ∧
        w.disk.isPresent (ModuleFolder.path g.settings n) = .ok false ∧
        Creation g n (.ofTokens tokens) w x run.2 ∧
        run.1 = x.map fun r => staged (.ofTokens tokens) r.closed := by
  intro run
  cases herrors : (g.findingsOn name tokens).hasErrors with
  | true =>
    have hrun : run = _ := runOn_generate_of_hasErrors herrors w
    rw [hrun]
    refine .inl ⟨⟨_, rfl⟩, fun r hr hopen => ?_⟩
    obtain rfl := Except.ok.inj hr
    exact (hasErrors_iff _).1 herrors (List.map_eq_nil_iff.1 hopen.valid)
  | false =>
    cases hname : Names.ofRaw? name with
    | none =>
      have hrun : run = _ := runOn_generate_of_none herrors hname w
      rw [hrun]
      exact .inl ⟨⟨_, rfl⟩, nofun⟩
    | some n =>
      have hrun : run = _ := runOn_generate_of_some herrors hname w
      rw [hrun]
      obtain ⟨hsame, hclosed⟩ | ⟨hpresent, hcreation⟩ := produce_cases (g := g) (n := n)
        (p := .ofTokens tokens) (isOpen_named herrors) (w.logged (g.inputRecords name tokens))
      · refine .inl ⟨.trans ⟨_, rfl⟩ hsame, fun r hr hopen => ?_⟩
        obtain ⟨r', hr', rfl⟩ := exists_of_map_eq_ok hr
        exact hclosed r' hr' ⟨hopen.valid, hopen.busy, hopen.new⟩
      · exact .inr ⟨n, _, rfl, hpresent, hcreation.of_onlyLogs ⟨_, rfl⟩, rfl⟩

lemma Creation.changes_of_stays {x : Except Failure Report} {w' : World} {files folders : Location → Prop}
    (h : Creation g n p w x w')
    (hfill : Stays w.disk files folders
      (ModuleFolder.fill true g.settings n (rendered n p) p.upload))
    (hfinish : ∀ r, Stays w.disk files folders (g.finish n p r)) :
    Disk.Changes files folders w.disk w'.disk := by
  cases h with
  | failed hfirst hrun hlast =>
    exact (hfill.run hrun (hfirst.changes _ _)).trans (hlast.changes _ _)
  | refused hfirst hrun hlast =>
    exact (hfill.run hrun (hfirst.changes _ _)).trans (hlast.changes _ _)
  | finished hfirst hrun hlast hend =>
    exact (hfinish _).run hend ((hfill.run hrun (hfirst.changes _ _)).trans (hlast.changes _ _))

/-! ## The footprint -/

/-- The files that a generation may write, as seen from the disk before it. -/
inductive MayWrite (s : Settings) (n : Names) (p : Parsed) (d : Disk) : Location → Prop where
  /-- The files of the module that are not skipped. -/
  | artifact {a : Artifact} : Bundle.isSkipped p.skipped a = false →
    MayWrite s n p d (d.destination (ModuleFolder.artifactPath s n a))
  /-- The upload helper, if it is asked for and missing. -/
  | helper : p.upload = true → d.isPresent (ModuleFolder.helperPath s) ≠ .ok true →
    MayWrite s n p d (d.destination (ModuleFolder.helperPath s))
  /-- The router file, if there is one. -/
  | router {content : Bytes} : d.find? (d.destination s.routerPath) = some (.file content) →
    MayWrite s n p d (d.destination s.routerPath)
  | collection : s.updateCollection = true →
    MayWrite s n p d (d.destination (Documentation.collectionFile s n))
  | document : s.updateDocument = true → MayWrite s n p d (d.destination s.documentPath)

/-- The files that a generation may write outside of the folder of the module. -/
def sharedFiles (s : Settings) (n : Names) : List Path :=
  [ModuleFolder.helperPath s, s.routerPath, Documentation.collectionFile s n, s.documentPath]

/-- The folders that a generation may make: the one of the module, and those on the way to it and to the
files that it may write. -/
inductive MayMake (s : Settings) (n : Names) (p : Parsed) (d : Disk) : Location → Prop where
  | folder {l : Location} : Disk.OnWay d (ModuleFolder.path s n) l → MayMake s n p d l
  | artifact {a : Artifact} {l : Location} : Bundle.isSkipped p.skipped a = false →
    Disk.OnWay d (ModuleFolder.artifactPath s n a).parent l → MayMake s n p d l
  | parent {q : Path} {l : Location} : q ∈ sharedFiles s n → MayWrite s n p d (d.destination q) →
    Disk.OnWay d q.parent l → MayMake s n p d l

/-- The files of a module are within the footprint. -/
lemma mayWrite_rendered (s : Settings) (d : Disk) {a : Artifact × Text} (ha : a ∈ rendered n p) :
    MayWrite s n p d (d.destination ((ModuleFolder.path s n).child (n.fileName a.1))) ∧
      ∀ l, Disk.OnWay d ((ModuleFolder.path s n).child (n.fileName a.1)).parent l → MayMake s n p d l := by
  obtain ⟨b, hb, rfl⟩ := List.mem_map.1 ha
  have hkept : Bundle.isSkipped p.skipped b = false := by simpa using (List.mem_filter.1 hb).2
  exact ⟨.artifact hkept, fun l hl => .artifact hkept hl⟩

/-- **What follows the checks** keeps to the footprint. -/
theorem Creation.changes {x : Except Failure Report} {w' : World} (h : Creation g n p w x w') :
    Disk.Changes (MayWrite g.settings n p w.disk) (MayMake g.settings n p w.disk) w.disk w'.disk := by
  have hshared : ∀ q ∈ sharedFiles g.settings n, MayWrite g.settings n p w.disk (w.disk.destination q) →
      MayWrite g.settings n p w.disk (w.disk.destination q) ∧
        ∀ l, Disk.OnWay w.disk q.parent l → MayMake g.settings n p w.disk l :=
    fun q hq hfile => ⟨hfile, fun l hl => .parent hq hfile hl⟩
  refine h.changes_of_stays ?fill ?finish
  case fill =>
    exact ModuleFolder.stays_fill (fun l hl => .folder hl) <|
      ModuleFolder.stays_content (fun a ha => mayWrite_rendered _ _ ha)
        fun hupload hmissing => hshared _ (by simp [sharedFiles]) (.helper hupload hmissing)
  case finish =>
    refine stays_finish (Registration.stays_register fun h => ?router)
      (fun fields => Documentation.stays_update
        (fun h => hshared _ (by simp [sharedFiles]) (.collection h))
        fun h => hshared _ (by simp [sharedFiles]) (.document h)) p
    exact hshared _ (by simp [sharedFiles]) (h.elim (fun ⟨c, hc⟩ => .router hc) id)

/-! ## Later generations -/

/-- A path that leads to an entry does so after every generation. -/
lemma isPresent_generate {q : Path} (h : w.disk.isPresent q = .ok true) :
    ((g.generate name tokens).runOn w).2.disk.isPresent q = .ok true := by
  obtain ⟨hsame, -⟩ | ⟨n, x, -, -, hcreation, -⟩ := generate_cases g name tokens w
  · rwa [hsame.disk]
  · have hchanges : Disk.Changes (fun _ => True) (fun _ => True) w.disk
        ((g.generate name tokens).runOn w).2.disk :=
      hcreation.changes_of_stays
        (ModuleFolder.stays_fill (fun _ _ => trivial) (ModuleFolder.stays_content_anywhere _ _ _ _))
        (stays_finish_anywhere g n _)
    exact hchanges.isPresent h

/-- Worlds that generations lead to, one after another. -/
inductive Later : World → World → Prop where
  | refl (w : World) : Later w w
  | step {w w' : World} (g : Generator) (name : Text) (tokens : List Text) : Later w w' →
    Later w ((g.generate name tokens).runOn w').2

lemma Later.isPresent {w' : World} {q : Path} (h : Later w w') (hq : w.disk.isPresent q = .ok true) :
    w'.disk.isPresent q = .ok true := by
  induction h with
  | refl => exact hq
  | step g name tokens _ ih => exact isPresent_generate ih

/-- **The end of a name**: once its folder is there, a generation changes nothing. -/
lemma onlyLogs_of_isPresent (hname : Names.ofRaw? name = some n)
    (h : w.disk.isPresent (ModuleFolder.path g.settings n) = .ok true) :
    w.OnlyLogs ((g.generate name tokens).runOn w).2 := by
  obtain ⟨hsame, -⟩ | ⟨n', x, hname', hmissing, -⟩ := generate_cases g name tokens w
  · exact hsame
  · obtain rfl : n = n' := Option.some.inj (hname.symm.trans hname')
    cases h.symm.trans hmissing

/-! ## Strict generations -/

/-- **A strict generation** is refused, or it is the same as one that is not strict. -/
lemma generate_of_strict (g : Generator) (name : Text) (tokens : List Text) (w : World) :
    let strict := (Generator.generate { g with strict := true } name tokens).runOn w
    (∃ r, strict.1 = .ok r ∧ r.validationErrors ≠ [] ∧ w.OnlyLogs strict.2) ∨
      strict = (Generator.generate { g with strict := false } name tokens).runOn w := by
  intro strict
  cases herrors : (findingsOn { g with strict := true } name tokens).hasErrors with
  | true =>
    have hrun : strict = _ := runOn_generate_of_hasErrors herrors w
    refine .inl ⟨_, congrArg Prod.fst hrun, fun h => ?_, ⟨_, congrArg Prod.snd hrun⟩⟩
    exact (hasErrors_iff _).1 herrors (List.map_eq_nil_iff.1 h)
  | false =>
    -- strictness turns warnings into errors; where there are none, the two reports say the same
    obtain ⟨hsame, hsameWarnings⟩ := findings_of_strict (p := .ofTokens tokens) herrors
    have hloose : (findingsOn { g with strict := false } name tokens).hasErrors = false :=
      (hasErrors_congr hsame).symm.trans herrors
    have hrecords : inputRecords { g with strict := true } name tokens =
        inputRecords { g with strict := false } name tokens := by
      simp only [inputRecords, checkRecords, findingsOn, findingsRecords_congr hsame hsameWarnings]
    refine .inr ?_
    cases hname : Names.ofRaw? name with
    | none =>
      rw [runOn_generate_of_none hloose hname w, ← hrecords]
      exact runOn_generate_of_none herrors hname w
    | some n =>
      have hreport : named name n (.ofTokens tokens) (findingsOn { g with strict := true } name tokens) =
          named name n (.ofTokens tokens) (findingsOn { g with strict := false } name tokens) := by
        simp only [named, checked, findingsOn, reportFindings_congr _ hsame hsameWarnings]
      rw [runOn_generate_of_some hloose hname w, ← hrecords, ← hreport]
      exact runOn_generate_of_some herrors hname w

/-! ## All together -/

/-- **What a generation may touch**, on every disk, with every plan of failures and every server. -/
theorem generate_effects (g : Generator) (name : Text) (tokens : List Text) (w : World) :
    let run := (g.generate name tokens).runOn w
    let strict := (Generator.generate { g with strict := true } name tokens).runOn w
    let loose := (Generator.generate { g with strict := false } name tokens).runOn w
    -- errors in the input, nothing to do, a folder that exists
    (∀ r, run.1 = .ok r → r.validationErrors ≠ [] ∨ r.noOp = true ∨ r.existed = true →
      w.OnlyLogs run.2) ∧
    -- every run; the files of the module are in its folder, and the folder is where modules are
    (∀ n, Names.ofRaw? name = some n →
      Disk.Changes (MayWrite g.settings n (.ofTokens tokens) w.disk)
        (MayMake g.settings n (.ofTokens tokens) w.disk) w.disk run.2.disk ∧
      (Text.isExactIdentifier n.folder = true → ∀ a,
        w.disk.destination (ModuleFolder.path g.settings n) =
            w.disk.destination g.settings.modulesPath ++ [n.folder] ∧
          w.disk.destination (ModuleFolder.artifactPath g.settings n a) =
            w.disk.destination g.settings.modulesPath ++ [n.folder, n.fileName a] ∧
          (ModuleFolder.artifactPath g.settings n a).parent = ModuleFolder.path g.settings n)) ∧
    -- later runs for a folder that is there, after any others
    (∀ n, Names.ofRaw? name = some n → run.2.disk.isPresent (ModuleFolder.path g.settings n) = .ok true →
      ∀ w' (g' : Generator) name' tokens' n', Later run.2 w' → g'.settings.modulesPath = g.settings.modulesPath →
        Names.ofRaw? name' = some n' → n'.folder = n.folder →
          w'.OnlyLogs ((g'.generate name' tokens').runOn w').2) ∧
    -- the folder is there after a run that reports no failure to write it
    (∀ r n, run.1 = .ok r → IsOpen r → r.exportErrors = [] → Names.ofRaw? name = some n →
      run.2.disk.isPresent (ModuleFolder.path g.settings n) = .ok true) ∧
    ((∃ r, strict.1 = .ok r ∧ r.validationErrors ≠ [] ∧ w.OnlyLogs strict.2) ∨ strict = loose) := by
  intro run strict loose
  refine ⟨fun r hr hclosed => ?_, fun n hname => ⟨?_, fun hfolder a => ?_⟩, fun n hname hpresent => ?_,
    fun r n hr hopen hexport hname => ?_, generate_of_strict g name tokens w⟩
  · obtain ⟨hsame, -⟩ | ⟨n, x, -, -, hcreation, hresult⟩ := generate_cases g name tokens w
    · exact hsame
    · obtain ⟨hvalid, hbusy, hnew⟩ := hcreation.isOpen_of_result (hresult.symm.trans hr)
      rcases hclosed with hclosed | hclosed | hclosed
      · exact absurd hvalid hclosed
      · exact absurd (hbusy.symm.trans hclosed) (by decide)
      · exact absurd (hnew.symm.trans hclosed) (by decide)
  · obtain ⟨hsame, -⟩ | ⟨n', x, hname', -, hcreation, -⟩ := generate_cases g name tokens w
    · exact hsame.changes _ _
    · obtain rfl : n = n' := Option.some.inj (hname.symm.trans hname')
      exact hcreation.changes
  · exact ⟨ModuleFolder.destination_path hfolder _ _, ModuleFolder.destination_artifactPath hfolder _ _ _,
      ModuleFolder.parent_artifactPath hfolder _ _⟩
  · intro w' g' name' tokens' n' hlater hmodules hname' hsameFolder
    have hpath : ModuleFolder.path g'.settings n' = ModuleFolder.path g.settings n := by
      rw [ModuleFolder.path, ModuleFolder.path, hmodules, hsameFolder]
    exact onlyLogs_of_isPresent hname' (hpath ▸ hlater.isPresent hpresent)
  · obtain ⟨-, hclosed⟩ | ⟨n', x, hname', -, hcreation, hresult⟩ := generate_cases g name tokens w
    · exact absurd hopen (hclosed r hr)
    · obtain rfl : n = n' := Option.some.inj (hname.symm.trans hname')
      obtain ⟨r', rfl, rfl⟩ := exists_of_map_eq_ok (hresult.symm.trans hr)
      exact hcreation.isPresent hexport

/-- A generator for an empty project. -/
def emptyProject : Generator := ⟨{ base := ⟨.root, []⟩ }, false, none⟩

/-- An empty project. -/
def emptyWorld : World := ⟨⟨[], [], []⟩, .script [], [], []⟩

/-- The names of a module of users. -/
def userNames : Names := ⟨"User", "User", "user"⟩

lemma userNames_eq : Names.ofRaw? "User" = some userNames := by decide +kernel

/-- In an empty project a module of users is made, and after that no generation for another spelling
of its name does anything. -/
theorem generate_effects_user :
    ((emptyProject.generate "User" ["name:string"]).runOn emptyWorld).2.disk.isPresent
        (ModuleFolder.path emptyProject.settings userNames) = .ok true ∧
      ∀ w', Later ((emptyProject.generate "User" ["name:string"]).runOn emptyWorld).2 w' →
        w'.OnlyLogs ((emptyProject.generate " USER" ["age:number"]).runOn w').2 := by
  obtain ⟨-, -, hlater, hmade, -⟩ := generate_effects emptyProject "User" ["name:string"] emptyWorld
  obtain ⟨r, hr, hopen, hexport⟩ :
      ∃ r, ((emptyProject.generate "User" ["name:string"]).runOn emptyWorld).1 = .ok r ∧ IsOpen r ∧
        r.exportErrors = [] := exists_of_isClean (by decide +kernel)
  have hpresent := hmade r userNames hr hopen hexport userNames_eq
  have hname' : Names.ofRaw? " USER" = some ⟨" USER", "User", "user"⟩ := by decide +kernel
  exact ⟨hpresent, fun w' hw' =>
    hlater userNames userNames_eq hpresent w' emptyProject " USER" ["age:number"] _ hw' rfl hname' rfl⟩

end Generator

end Scaffold
