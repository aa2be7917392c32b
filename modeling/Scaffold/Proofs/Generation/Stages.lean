import Mathlib.Tactic.Common
import Scaffold.Generation.Run

/-!
# The stages of a generation

A generation ends at the first of its checks that stops it: the findings about its input, a name that
stands for no module, an input without fields, and a folder that is there already.  Up to the last of
them nothing but records has been written, so a run that ends there leaves the world as it was except
for its log.  A run that passes all of them fills the folder of the module, and registers and documents
the module if the folder could be made.
-/

namespace Scaffold

open Act

/-! ## Records -/

/-- The world with more records. -/
def World.logged (w : World) (records : List Log.Record) : World := { w with log := w.log ++ records }

namespace World

@[simp] lemma logged_disk (w : World) (records : List Log.Record) : (w.logged records).disk = w.disk := rfl

@[simp] lemma logged_remote (w : World) (records : List Log.Record) :
    (w.logged records).remote = w.remote := rfl

@[simp] lemma logged_requests (w : World) (records : List Log.Record) :
    (w.logged records).requests = w.requests := rfl

@[simp] lemma logged_logged (w : World) (first second : List Log.Record) :
    (w.logged first).logged second = w.logged (first ++ second) :=
  congrArg (fun log => { w with log }) (List.append_assoc ..)

end World

/-- The result of an action is passed through a function. -/
lemma Act.runOn_bind_pure {α β : Type} (a : Act α) (f : α → β) (w : World) :
    (a >>= fun x => pure (f x)).runOn w = ((a.runOn w).1.map f, (a.runOn w).2) := by
  rw [runOn_bind]
  cases hrun : a.runOn w with
  | mk r w' => cases r <;> rfl

lemma Act.runOn_say_eq (records : List Log.Record) (w : World) :
    (say records).runOn w = (.ok (), w.logged records) := rfl

lemma Timing.runOn_timed {α : Type} (label : Text) (a : Act α) (w : World) :
    (timed label a).runOn w = ((a.runOn w).1, (a.runOn w).2.logged [record label]) := rfl

/-! ## Filling the folder -/

namespace ModuleFolder

variable {s : Settings} {n : Names} {rendered : List (Artifact × Text)} {upload : Bool} {w w' : World}
  {f : FolderResult}

lemma writeArtifacts_flags {atomic : Bool} {folder : Path} (r : FolderResult)
    (h : (writeArtifacts atomic folder n r rendered).runOn w = (.ok f, w')) :
    f.created = r.created ∧ f.existed = r.existed := by
  induction rendered generalizing r w with
  | nil =>
    cases h
    exact ⟨rfl, rfl⟩
  | cons a rendered ih =>
    rw [writeArtifacts, runOn_bind] at h
    split at h
    · rename_i outcome w₁ hfirst
      obtain ⟨hcreated, hexisted⟩ := ih _ h
      cases outcome with
      | written => exact ⟨hcreated, hexisted⟩
      | failed => exact ⟨hcreated, hexisted⟩
    · cases h

lemma writeHelper_flags {atomic : Bool} (r : FolderResult)
    (h : (writeHelper atomic s r).runOn w = (.ok f, w')) :
    f.created = r.created ∧ f.existed = r.existed := by
  rw [writeHelper, runOn_bind, runOn_look] at h
  cases hpresent : w.disk.isPresent (helperPath s) with
  | error e =>
    simp only [hpresent] at h
    cases h
  | ok present =>
    simp only [hpresent] at h
    cases present with
    | true =>
      cases h
      exact ⟨rfl, rfl⟩
    | false =>
      simp only [Bool.false_eq_true, if_false, runOn_bind, runOn_attempt] at h
      split at h
      · cases h
        exact ⟨rfl, rfl⟩
      · cases h
        exact ⟨rfl, rfl⟩
      · cases h

/-- What goes into a folder that was made. -/
def content (atomic : Bool) (s : Settings) (n : Names) (rendered : List (Artifact × Text)) (upload : Bool) :
    Act FolderResult := do
  let r ← writeArtifacts atomic (path s n) n { folder := (path s n).text, created := true } rendered
  if upload then writeHelper atomic s r else pure r

/-- The message about a folder that could not be made. -/
def notMade (s : Settings) (n : Names) (e : OsError) : Text :=
  "Failed to create module directory " ++ (path s n).text ++ ": " ++ e.message

/-- **Filling a folder** is to make it and to write what goes into it. -/
theorem runOn_fill (atomic : Bool) (s : Settings) (n : Names) (rendered : List (Artifact × Text))
    (upload : Bool) (w : World) :
    (fill atomic s n rendered upload).runOn w =
      match (Files.ensureFolder (path s n)).runOn w with
      | (.ok (), w') =>
        let run := (content atomic s n rendered upload).runOn w'
        (run.1.map fun r => (r, true), run.2)
      | (.error (.os e), w') =>
        (.ok ({ folder := (path s n).text, errors := [notMade s n e] }, false),
          w'.logged [⟨.error, .moduleFolder, notMade s n e⟩])
      | (.error f, w') => (.error f, w') := by
  rw [fill, runOn_bind, runOn_attempt]
  cases (Files.ensureFolder (path s n)).runOn w with
  | mk x w' =>
    cases x with
    | error f => cases f <;> rfl
    | ok u =>
      simp only [content, runOn_bind]
      cases (writeArtifacts atomic (path s n) n _ rendered).runOn w' with
      | mk r w₁ =>
        cases r with
        | error f => rfl
        | ok r =>
          cases upload with
          | false => rfl
          | true => exact runOn_bind_pure _ _ _

/-- A folder that was made is filled. -/
lemma content_of_made {atomic : Bool} (h : (fill atomic s n rendered upload).runOn w = (.ok (f, true), w')) :
    ∃ w₁, (Files.ensureFolder (path s n)).runOn w = (.ok (), w₁) ∧
      (content atomic s n rendered upload).runOn w₁ = (.ok f, w') := by
  rw [runOn_fill] at h
  split at h
  · rename_i w₁ hmake
    refine ⟨w₁, hmake, ?_⟩
    cases hcontent : (content atomic s n rendered upload).runOn w₁ with
    | mk x w₂ =>
      rw [hcontent] at h
      cases x with
      | error e => cases h
      | ok r =>
        cases h
        rfl
  · cases h
  · cases h

/-- That a folder could not be made is an error, and nothing else is done. -/
lemma of_not_made {atomic : Bool} (h : (fill atomic s n rendered upload).runOn w = (.ok (f, false), w')) :
    f.created = false ∧ f.existed = false ∧ f.errors ≠ [] := by
  rw [runOn_fill] at h
  split at h
  · rename_i w₁ hmake
    cases hcontent : (content atomic s n rendered upload).runOn w₁ with
    | mk x w₂ =>
      rw [hcontent] at h
      cases x with
      | error e => cases h
      | ok r => cases h
  · cases h
    exact ⟨rfl, rfl, List.cons_ne_nil _ _⟩
  · cases h

/-- The result of filling a folder says whether the folder could be made. -/
theorem fill_flags {atomic made : Bool}
    (h : (fill atomic s n rendered upload).runOn w = (.ok (f, made), w')) :
    f.created = made ∧ f.existed = false := by
  cases made with
  | false =>
    obtain ⟨hcreated, hexisted, -⟩ := of_not_made h
    exact ⟨hcreated, hexisted⟩
  | true =>
    obtain ⟨w₁, -, hcontent⟩ := content_of_made h
    rw [content, runOn_bind] at hcontent
    split at hcontent
    · rename_i r w₂ hwritten
      obtain ⟨hcreated, hexisted⟩ := writeArtifacts_flags _ hwritten
      cases upload with
      | false =>
        cases hcontent
        exact ⟨hcreated, hexisted⟩
      | true =>
        obtain ⟨hcreated', hexisted'⟩ := writeHelper_flags _ hcontent
        exact ⟨hcreated'.trans hcreated, hexisted'.trans hexisted⟩
    · cases hcontent

lemma runOn_write_of_error {atomic : Bool} {e : Failure} (h : w.disk.isPresent (path s n) = .error e) :
    (write atomic s n rendered upload).runOn w = (.error e, w) := by
  rw [write, runOn_bind, runOn_look, h]

lemma runOn_write_of_present {atomic : Bool} (h : w.disk.isPresent (path s n) = .ok true) :
    ∃ f records, (write atomic s n rendered upload).runOn w = (.ok f, w.logged records) ∧
      f.existed = true := by
  rw [write, runOn_bind, runOn_look, h]
  exact ⟨_, _, rfl, rfl⟩

/-- Where there is no folder, it is filled. -/
lemma runOn_write_of_missing {atomic : Bool} (h : w.disk.isPresent (path s n) = .ok false) :
    (write atomic s n rendered upload).runOn w =
      match (fill atomic s n rendered upload).runOn w with
      | (.ok (f, made), w') =>
        (.ok f, w'.logged (Timing.record "export" :: if made then [closingRecord n f] else []))
      | (.error e, w') => (.error e, w'.logged [Timing.record "export"]) := by
  rw [write, runOn_bind, runOn_look, h]
  simp only [Bool.false_eq_true, if_false]
  rw [runOn_bind, Timing.runOn_timed]
  cases (fill atomic s n rendered upload).runOn w with
  | mk r w' =>
    cases r with
    | error e => rfl
    | ok result =>
      obtain ⟨f, made⟩ := result
      cases made with
      | true => exact congrArg (Prod.mk _) (World.logged_logged ..)
      | false => rfl

end ModuleFolder

/-! ## The stages -/

namespace Generator

variable {g : Generator} {n : Names} {p : Parsed} {r : Report} {name : Text} {tokens : List Text} {w : World}

/-- The report after the input was checked. -/
def checked (name : Text) (p : Parsed) (ds : Diagnostics) : Report :=
  reportFindings { moduleName := name, fieldCount := p.fields.length, skipped := p.skipped } ds

/-- The report of a generation that goes on after its checks. -/
def named (name : Text) (n : Names) (p : Parsed) (ds : Diagnostics) : Report :=
  { checked name p ds with className := n.className }

/-- The report with the part about parsing. -/
def staged (p : Parsed) (r : Report) : Report := { r with stages := parseStage p :: r.stages }

/-- The findings about the input of a generation. -/
def findingsOn (g : Generator) (name : Text) (tokens : List Text) : Diagnostics :=
  findings g.strict name (Parsed.ofTokens tokens)

/-- What is written while the input is checked. -/
def checkRecords (g : Generator) (name : Text) (tokens : List Text) : List Log.Record :=
  Field.auditRecord (Parsed.ofTokens tokens).fields :: Timing.record "validation" ::
    findingsRecords (g.findingsOn name tokens)

/-- What is written before anything is done. -/
def inputRecords (g : Generator) (name : Text) (tokens : List Text) : List Log.Record :=
  Parsed.records tokens ++ Timing.record "parse" :: g.checkRecords name tokens

lemma runOn_check (strict : Bool) (name : Text) (p : Parsed) (w : World) :
    (check strict name p).runOn w = (.ok (findings strict name p),
      w.logged (Field.auditRecord p.fields :: Timing.record "validation" ::
        findingsRecords (findings strict name p))) := by
  simp only [check, runOn_bind, Timing.runOn_timed, runOn_say_eq, runOn_pure, World.logged_logged]
  rfl

lemma runOn_generate (g : Generator) (name : Text) (tokens : List Text) (w : World) :
    (g.generate name tokens).runOn w =
      let run := (g.generateParsed name (.ofTokens tokens)).runOn
        (w.logged (Parsed.records tokens ++ [Timing.record "parse"]))
      (run.1.map (staged (.ofTokens tokens)), run.2) := by
  rw [generate, runOn_bind, Timing.runOn_timed, runOn_bind, runOn_say_eq]
  simp only [runOn_pure, World.logged_logged]
  exact runOn_bind_pure _ _ _

/-- **Findings that are errors** end a generation. -/
theorem runOn_generate_of_hasErrors (h : (g.findingsOn name tokens).hasErrors = true) (w : World) :
    (g.generate name tokens).runOn w =
      (.ok (staged (.ofTokens tokens) (checked name (.ofTokens tokens) (g.findingsOn name tokens)).closed),
        w.logged (g.inputRecords name tokens)) := by
  have hparsed : ∀ w, (g.generateParsed name (.ofTokens tokens)).runOn w =
      (.ok (checked name (.ofTokens tokens) (g.findingsOn name tokens)).closed,
        w.logged (g.checkRecords name tokens)) := fun w => by
    rw [generateParsed, runOn_bind, runOn_check]
    exact congrArg (fun a : Act Report => a.runOn _) (if_pos h)
  rw [runOn_generate, hparsed, World.logged_logged, List.append_assoc]
  rfl

/-- A name that stands for no module ends a generation without errors. -/
theorem runOn_generate_of_none (h : (g.findingsOn name tokens).hasErrors = false)
    (hname : Names.ofRaw? name = none) (w : World) :
    (g.generate name tokens).runOn w =
      (.error .noModuleName, w.logged (g.inputRecords name tokens)) := by
  have hparsed : ∀ w, (g.generateParsed name (.ofTokens tokens)).runOn w =
      (.error .noModuleName, w.logged (g.checkRecords name tokens)) := fun w => by
    rw [generateParsed, runOn_bind, runOn_check]
    refine (congrArg (fun a : Act Report => a.runOn _) (if_neg (ne_of_eq_of_ne h Bool.false_ne_true))).trans ?_
    rw [hname]
    rfl
  rw [runOn_generate, hparsed, World.logged_logged, List.append_assoc]
  rfl

/-- Otherwise the module of the name is produced. -/
theorem runOn_generate_of_some (h : (g.findingsOn name tokens).hasErrors = false)
    (hname : Names.ofRaw? name = some n) (w : World) :
    (g.generate name tokens).runOn w =
      let run := (g.produce n (.ofTokens tokens)
        (named name n (.ofTokens tokens) (g.findingsOn name tokens))).runOn
          (w.logged (g.inputRecords name tokens))
      (run.1.map fun r => staged (.ofTokens tokens) r.closed, run.2) := by
  have hparsed : ∀ w, (g.generateParsed name (.ofTokens tokens)).runOn w =
      let run := (g.produce n (.ofTokens tokens)
        (named name n (.ofTokens tokens) (g.findingsOn name tokens))).runOn
          (w.logged (g.checkRecords name tokens))
      (run.1.map Report.closed, run.2) := fun w => by
    rw [generateParsed, runOn_bind, runOn_check]
    refine (congrArg (fun a : Act Report => a.runOn _) (if_neg (ne_of_eq_of_ne h Bool.false_ne_true))).trans ?_
    rw [hname]
    exact runOn_bind_pure _ _ _
  rw [runOn_generate, hparsed, World.logged_logged, List.append_assoc]
  simp only [inputRecords, List.cons_append, List.nil_append]
  cases (g.produce n (.ofTokens tokens)
    (named name n (.ofTokens tokens) (g.findingsOn name tokens))).runOn _ with
  | mk r w' => cases r <;> rfl

/-- The files that a generation renders. -/
def rendered (n : Names) (p : Parsed) : List (Artifact × Text) :=
  Bundle.render (.ofFields n p.fields p.upload) p.skipped

/-- What is written while files are rendered. -/
def renderRecords (n : Names) (p : Parsed) : List Log.Record :=
  Bundle.blueprintRecord (.ofFields n p.fields p.upload) ::
    Bundle.records (.ofFields n p.fields p.upload) p.skipped ++ [Timing.record "render"]

/-- **An input without fields** produces nothing. -/
lemma runOn_produce_of_nil (h : p.fields = []) (r : Report) (w : World) :
    ∃ r' records, (g.produce n p r).runOn w = (.ok r', w.logged records) ∧ r'.noOp = true := by
  rw [produce, h]
  exact ⟨_, _, rfl, rfl⟩

/-- With fields the folder of the module is written, and what follows depends on what became of it. -/
lemma runOn_produce (h : p.fields ≠ []) (r : Report) (w : World) :
    (g.produce n p r).runOn w =
      match (ModuleFolder.write true g.settings n (rendered n p) p.upload).runOn
        (w.logged (renderRecords n p)) with
      | (.ok f, w') =>
        let r := reportFolder (reportRendered r (rendered n p)) f
        (if f.existed || !f.created then pure r else g.finish n p r : Act Report).runOn
          (w'.logged [Timing.record "export"])
      | (.error e, w') => (.error e, w'.logged [Timing.record "export"]) := by
  have hfields : ¬ p.fields.isEmpty = true := fun hempty => h (List.isEmpty_iff.1 hempty)
  have hrender : ∀ w : World, (render (.ofFields n p.fields p.upload) p.skipped).runOn w =
      (.ok (rendered n p), w.logged (renderRecords n p)) := fun w =>
    congrArg (Prod.mk _) (World.logged_logged ..)
  rw [produce, if_neg hfields, runOn_bind, hrender]
  simp only
  rw [runOn_bind, Timing.runOn_timed]
  cases (ModuleFolder.write true g.settings n (rendered n p) p.upload).runOn
    (w.logged (renderRecords n p)) with
  | mk f w' => cases f <;> rfl

/-- Registering and documenting add to a report and change nothing that was said before. -/
lemma finish_flags {r' : Report} {w' : World} (h : (g.finish n p r).runOn w = (.ok r', w')) :
    r'.validationErrors = r.validationErrors ∧ r'.noOp = r.noOp ∧ r'.existed = r.existed ∧
      r'.exportErrors = r.exportErrors := by
  rw [finish, runOn_bind] at h
  split at h
  · simp only at h
    split at h
    · rw [runOn_bind] at h
      split at h
      · cases h
        exact ⟨rfl, rfl, rfl, rfl⟩
      · cases h
    · cases h
      exact ⟨rfl, rfl, rfl, rfl⟩
  · cases h

end Generator

end Scaffold
