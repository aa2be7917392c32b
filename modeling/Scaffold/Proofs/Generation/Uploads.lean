import Scaffold.Proofs.Artifact.Services
import Scaffold.Proofs.Field.Tokens
import Scaffold.Proofs.Generation.Contents

/-!
# Services and the upload helper

Two parts of a generation decide about uploads.  The files of a module handle them if they were asked
for or a field receives files, which its name or its tag says; the helper that a service then imports is
written only if they were asked for.  So a generation without errors leaves a service with an import
that leads nowhere exactly if a field receives files, nobody asked for uploads, and no earlier generation
or hand has put the helper there (`helper_exists_iff`).
-/

namespace Scaffold

/-- Whether a field receives uploaded files. -/
def Field.ReceivesFiles (f : Field) : Prop := f.name ∈ Blueprint.uploadNames ∨ f.kind.tag = Blueprint.uploadTag

lemma Blueprint.usesUpload_iff (b : Blueprint) :
    b.usesUpload = true ↔ b.upload = true ∨ ∃ f ∈ b.fields, f.ReceivesFiles := by
  simp only [usesUpload, Bool.or_eq_true, List.any_eq_true, decide_eq_true_eq, Field.ReceivesFiles]

namespace Generator

open ModuleFolder

variable {s : Settings} {n : Names} {p : Parsed} {d : Disk}

/-- What a generation writes or makes besides the upload helper. -/
def otherPaths (s : Settings) (n : Names) : List Path :=
  path s n :: s.routerPath :: Documentation.collectionFile s n :: s.documentPath ::
    Artifact.all.map (artifactPath s n)

/-- The upload helper is not on the way to anything else that a generation writes. -/
def HelperIsApart (s : Settings) (n : Names) (d : Disk) : Prop :=
  ∀ q ∈ otherPaths s n, ¬ Disk.OnWay d q (d.destination (helperPath s))

instance (s : Settings) (n : Names) (d : Disk) : Decidable (HelperIsApart s n d) :=
  inferInstanceAs (Decidable (∀ q ∈ otherPaths s n, ¬ Disk.OnWay d q (d.destination (helperPath s))))

lemma artifactPath_mem_otherPaths (s : Settings) (n : Names) (a : Artifact) :
    artifactPath s n a ∈ otherPaths s n := by
  simp [otherPaths, Artifact.mem_all]

lemma not_mayWrite_helper (h : HelperIsApart s n d) (hupload : p.upload = false) :
    ¬ MayWrite s n p d (d.destination (helperPath s)) := by
  intro hwrite
  have hother : ∀ q ∈ otherPaths s n, d.destination (helperPath s) ≠ d.destination q :=
    fun q hq heq => h q hq (heq ▸ Disk.onWay_destination d q)
  generalize hplace : d.destination (helperPath s) = l at hwrite
  cases hwrite with
  | artifact => exact hother _ (artifactPath_mem_otherPaths s n _) hplace
  | helper hasked => exact absurd (hupload.symm.trans hasked) Bool.false_ne_true
  | router => exact hother s.routerPath (by simp [otherPaths]) hplace
  | collection => exact hother (Documentation.collectionFile s n) (by simp [otherPaths]) hplace
  | document => exact hother s.documentPath (by simp [otherPaths]) hplace

lemma not_mayMake_helper (h : HelperIsApart s n d) (hupload : p.upload = false) :
    ¬ MayMake s n p d (d.destination (helperPath s)) := by
  intro hmake
  cases hmake with
  | folder hway => exact h _ (by simp [otherPaths]) hway
  | artifact _ hway => exact h _ (artifactPath_mem_otherPaths s n _) (Disk.onWay_of_parent hway)
  | @parent q _ hq hwrite hway =>
    simp only [sharedFiles, List.mem_cons, List.not_mem_nil, or_false] at hq
    rcases hq with rfl | rfl | rfl | rfl
    · exact not_mayWrite_helper h hupload hwrite
    · exact h s.routerPath (by simp [otherPaths]) (Disk.onWay_of_parent hway)
    · exact h (Documentation.collectionFile s n) (by simp [otherPaths]) (Disk.onWay_of_parent hway)
    · exact h s.documentPath (by simp [otherPaths]) (Disk.onWay_of_parent hway)

/-- Without a request for uploads the place of the helper stays as it is. -/
lemma find?_helper {g : Generator} {w w' : World} {x : Except Failure Report} (h : Creation g n p w x w')
    (hapart : HelperIsApart g.settings n w.disk) (hupload : p.upload = false) :
    w'.disk.find? (w.disk.destination (helperPath g.settings)) =
      w.disk.find? (w.disk.destination (helperPath g.settings)) :=
  h.changes.find?_eq (not_mayWrite_helper hapart hupload) (not_mayMake_helper hapart hupload)

/-- **Whether a service finds its helper**: after a generation that made a module without errors the
service is written as rendered, the helper is there if uploads were asked for, and an import of the
helper leads nowhere exactly if nobody asked, it was missing before and a field receives files. -/
theorem helper_exists_iff (g : Generator) (name : Text) (tokens : List Text) (w : World) {n : Names}
    {r : Report} (hname : Names.ofRaw? name = some n)
    (hrun : ((g.generate name tokens).runOn w).1 = .ok r) (hopen : IsOpen r) (hexport : r.exportErrors = []) :
    let p : Parsed := .ofTokens tokens
    let service := Service.file (.ofFields n p.fields p.upload)
    let after := ((g.generate name tokens).runOn w).2.disk
    let helper := w.disk.destination (helperPath g.settings)
    (IsSeparate g.settings n w.disk → Bundle.isSkipped p.skipped .service = false →
      after.content? (artifactPath g.settings n .service) = some (Utf8.encode service)) ∧
    (p.upload = true → after.isPresent (helperPath g.settings) = .ok true) ∧
    (HelperIsApart g.settings n w.disk →
      ((Service.helperImport ∈ Text.splitOn '\n' service → (after.find? helper).isSome = true) ↔
        p.upload = true ∨ (w.disk.find? helper).isSome = true ∨ ∀ f ∈ p.fields, ¬ f.ReceivesFiles)) := by
  intro p service after helper
  obtain ⟨-, hclosed⟩ | ⟨n', x, hname', -, hcreation, hresult⟩ := generate_cases g name tokens w
  · exact absurd hopen (hclosed r hrun)
  obtain rfl : n = n' := Option.some.inj (hname.symm.trans hname')
  obtain ⟨r', rfl, rfl⟩ := exists_of_map_eq_ok (hresult.symm.trans hrun)
  obtain ⟨hhelper, hfiles⟩ := hcreation.files hexport
  refine ⟨fun hseparate hservice => hfiles hseparate .service hservice, hhelper, fun hapart => ?_⟩
  have hvisible : Field.visible p.fields = p.fields :=
    Field.visible_eq_self fun f hf => (Parsed.isRead_of_mem hf).visible
  have himport : Service.helperImport ∈ Text.splitOn '\n' service ↔
      p.upload = true ∨ ∃ f ∈ p.fields, f.ReceivesFiles := by
    rw [Service.helperImport_mem_iff (b := .ofFields n p.fields p.upload) hname, Blueprint.usesUpload_iff]
    simp only [Blueprint.ofFields, hvisible]
  rw [himport]
  cases hupload : p.upload with
  | true =>
    have hsome := Disk.isSome_of_isPresent (hhelper hupload)
    rw [Disk.destination_of_home hcreation.changes.home] at hsome
    exact iff_of_true (fun _ => hsome) (.inl rfl)
  | false =>
    -- nobody asked for the helper, so the generation leaves its place alone
    have hsame : after.find? helper = w.disk.find? helper := find?_helper hcreation hapart hupload
    rw [hsame]
    simp only [Bool.false_eq_true, false_or]
    constructor
    · intro himplies
      refine or_iff_not_imp_left.2 fun hmissing f hf hfile => hmissing (himplies ⟨f, hf, hfile⟩)
    · rintro (hthere | hnone) ⟨f, hf, hfile⟩
      · exact hthere
      · exact absurd hfile (hnone f hf)

/-- Uploads that were asked for come with their helper. -/
theorem helper_exists_user :
    let after := ((emptyProject.generate "User" ["image:string", "file:true"]).runOn emptyWorld).2.disk
    Service.helperImport ∈ Text.splitOn '\n'
        (Service.file (.ofFields userNames (Parsed.ofTokens ["image:string", "file:true"]).fields true)) ∧
      (after.find? ["src".toList, "helpers".toList, "fileHelper.ts".toList]).isSome = true := by
  obtain ⟨r, hr, hopen, hexport⟩ :
      ∃ r, ((emptyProject.generate "User" ["image:string", "file:true"]).runOn emptyWorld).1 = .ok r ∧
        IsOpen r ∧ r.exportErrors = [] := exists_of_isClean (by decide +kernel)
  obtain ⟨-, -, hiff⟩ := helper_exists_iff emptyProject "User" ["image:string", "file:true"] emptyWorld
    userNames_eq hr hopen hexport
  have himport : Service.helperImport ∈ Text.splitOn '\n'
      (Service.file (.ofFields userNames (Parsed.ofTokens ["image:string", "file:true"]).fields true)) := by
    decide +kernel
  exact ⟨himport, (hiff (by decide +kernel)).2 (.inl (by decide +kernel)) himport⟩

/-- **A field named `image`** makes the service import a helper that nobody has written. -/
theorem helper_missing_user :
    let run := (emptyProject.generate "User" ["image:string"]).runOn emptyWorld
    let service := Service.file (.ofFields userNames (Parsed.ofTokens ["image:string"]).fields false)
    (∃ r, run.1 = .ok r ∧ IsOpen r ∧ r.exportErrors = []) ∧
      run.2.disk.content? (artifactPath emptyProject.settings userNames .service) =
        some (Utf8.encode service) ∧
      Service.helperImport ∈ Text.splitOn '\n' service ∧
      run.2.disk.isPresent (helperPath emptyProject.settings) = .ok false := by
  exact ⟨exists_of_isClean (by decide +kernel), by decide +kernel, by decide +kernel,
    eq_ok_of_toOption (by decide +kernel)⟩

end Generator

end Scaffold
