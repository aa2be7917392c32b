import Scaffold.Proofs.Generation.Effects
import Scaffold.Proofs.World.Files

/-!
# What a generation without errors leaves in its files

Writing the folder of a module reports every file that cannot be written.  So if nothing is reported,
all files of the module were written, and the upload helper is there if it was asked for.  They stay as
they were written while the module is registered and documented, unless one of the files that are
written then is in their place.
-/

namespace Scaffold

open Act

/-! ## The folder of the module -/

namespace ModuleFolder

variable {s : Settings} {n : Names} {w w' : World} {f r : FolderResult} {p : Path} {t kind : Text}
  {a : Artifact} {artifacts : List (Artifact × Text)} {folder : Path} {upload : Bool}

lemma content?_writeFile {record : FileRecord}
    (h : (writeFile true kind p t).runOn w = (.ok record, w')) :
    w'.disk.content? p = some (Utf8.encode t) := by
  obtain ⟨size, w₁, hwrite, hrest⟩ := bind_ok h
  cases hrest
  obtain ⟨target, hplace, -⟩ := Files.write_ok hwrite
  rw [Disk.content?, Disk.read_of_place hplace]
  rfl

/-- A file is recorded as written, or there is an error. -/
lemma writeArtifact_cases {outcome : Outcome}
    (h : (writeArtifact true folder n a t).runOn w = (.ok outcome, w')) :
    (∃ message, outcome = .failed message) ∨
      w'.disk.content? (folder.child (n.fileName a)) = some (Utf8.encode t) := by
  rw [writeArtifact] at h
  obtain ⟨written, w₁, hattempt, h⟩ := bind_ok h
  rw [runOn_attempt] at hattempt
  cases hwrite : (writeFile true a.name (folder.child (n.fileName a)) t).runOn w with
  | mk x w₂ =>
    rw [hwrite] at hattempt
    cases hattempt
    cases x with
    | ok record =>
      have hcontent := content?_writeFile hwrite
      cases h
      exact .inr hcontent
    | error e =>
      cases e
      case os e =>
        cases h
        exact .inl ⟨_, rfl⟩
      all_goals cases h

lemma errors_of_writeArtifacts (h : (writeArtifacts true folder n r artifacts).runOn w = (.ok f, w'))
    (herrors : f.errors = []) : r.errors = [] := by
  induction artifacts generalizing r w with
  | nil =>
    cases h
    exact herrors
  | cons a artifacts ih =>
    obtain ⟨outcome, w₁, -, hrest⟩ := bind_ok h
    have hadd := ih hrest
    cases outcome with
    | written file => exact hadd
    | failed message => exact absurd hadd (by simp [FolderResult.add])

/-- Where the files of a module are in different places, each holds its text when all are written. -/
theorem content?_writeArtifacts
    (hapart : artifacts.Pairwise fun a b =>
      w.disk.destination (folder.child (n.fileName a.1)) ≠ w.disk.destination (folder.child (n.fileName b.1)))
    (h : (writeArtifacts true folder n r artifacts).runOn w = (.ok f, w')) (herrors : f.errors = []) :
    ∀ a ∈ artifacts, w'.disk.content? (folder.child (n.fileName a.1)) = some (Utf8.encode a.2) := by
  induction artifacts generalizing r w with
  | nil => nofun
  | cons a artifacts ih =>
    obtain ⟨outcome, w₁, hfirst, hrest⟩ := bind_ok h
    obtain ⟨hhead, htail⟩ := List.pairwise_cons.1 hapart
    have hchanges : Disk.Changes (fun _ => True) (fun _ => True) w.disk w₁.disk :=
      (stays_writeArtifact trivial (fun _ _ => trivial) a.2).run hfirst (.refl _)
    have hhome : ∀ q, w₁.disk.destination q = w.disk.destination q :=
      Disk.destination_of_home hchanges.home
    refine List.forall_mem_cons.2 ⟨?_, ih (by simpa only [hhome] using htail) hrest⟩
    -- the first file is written, as nothing is reported, and the others are elsewhere
    have hwritten : w₁.disk.content? (folder.child (n.fileName a.1)) = some (Utf8.encode a.2) := by
      refine (writeArtifact_cases hfirst).resolve_left ?_
      rintro ⟨message, rfl⟩
      exact absurd (errors_of_writeArtifacts hrest herrors) (by simp [FolderResult.add])
    have hlater : Disk.Changes
        (fun l => ∃ b ∈ artifacts, l = w₁.disk.destination (folder.child (n.fileName b.1))) (fun _ => True)
        w₁.disk w'.disk :=
      (stays_writeArtifacts (fun b hb => ⟨⟨b, hb, rfl⟩, fun _ _ => trivial⟩) _).run hrest (.refl _)
    refine hlater.leaves.content? ?_ hwritten
    rintro ⟨b, hb, hsame⟩
    rw [hhome, hhome] at hsame
    exact hhead b hb hsame

/-- The helper is there if no error was added. -/
lemma isPresent_writeHelper (h : (writeHelper true s r).runOn w = (.ok f, w')) (herrors : f.errors = []) :
    w'.disk.isPresent (helperPath s) = .ok true := by
  obtain ⟨present, w₁, hlook, h⟩ := bind_ok h
  rw [runOn_look] at hlook
  obtain ⟨hpresent, rfl⟩ := Prod.mk.inj hlook
  cases present with
  | true =>
    cases h
    exact hpresent
  | false =>
    obtain ⟨written, w₂, hattempt, h⟩ := bind_ok h
    rw [runOn_attempt] at hattempt
    cases hwrite : (writeFile true "file_helper" (helperPath s) UploadHelper.file).runOn w with
    | mk x w₃ =>
      rw [hwrite] at hattempt
      cases hattempt
      cases x with
      | ok record =>
        have hcontent := content?_writeFile hwrite
        cases h
        exact Disk.isPresent_of_place (Disk.content?_eq_some_iff.1 hcontent)
      | error e =>
        cases e
        case os e =>
          cases h
          exact absurd herrors (by simp [FolderResult.add])
        all_goals cases h

lemma errors_of_writeHelper (h : (writeHelper true s r).runOn w = (.ok f, w')) (herrors : f.errors = []) :
    r.errors = [] := by
  obtain ⟨present, w₁, -, h⟩ := bind_ok h
  cases present with
  | true =>
    cases h
    exact herrors
  | false =>
    obtain ⟨written, w₂, -, h⟩ := bind_ok h
    cases written with
    | ok record =>
      cases h
      exact herrors
    | error e =>
      cases e
      case os e =>
        cases h
        exact absurd herrors (by simp [FolderResult.add])
      all_goals cases h

/-- What is in the folder, and beside it, if nothing is reported. -/
theorem content_ok (h : (content true s n artifacts upload).runOn w = (.ok f, w')) (herrors : f.errors = []) :
    (upload = true → w'.disk.isPresent (helperPath s) = .ok true) ∧
      (artifacts.Pairwise (fun a b =>
          w.disk.destination (artifactPath s n a.1) ≠ w.disk.destination (artifactPath s n b.1)) →
        ∀ a ∈ artifacts, w.disk.destination (helperPath s) ≠ w.disk.destination (artifactPath s n a.1) →
          w'.disk.content? (artifactPath s n a.1) = some (Utf8.encode a.2)) := by
  obtain ⟨r, w₁, hwritten, h⟩ := bind_ok h
  cases upload with
  | false =>
    cases h
    exact ⟨nofun, fun hapart a ha _ => content?_writeArtifacts hapart hwritten herrors a ha⟩
  | true =>
    rw [if_pos rfl] at h
    refine ⟨fun _ => isPresent_writeHelper h herrors, fun hapart a ha hne => ?_⟩
    have hcontent := content?_writeArtifacts hapart hwritten (errors_of_writeHelper h herrors) a ha
    have hbefore : Disk.Changes (fun _ => True) (fun _ => True) w.disk w₁.disk :=
      (stays_writeArtifacts (fun _ _ => ⟨trivial, fun _ _ => trivial⟩) _).run hwritten (.refl _)
    have hlater : Disk.Changes (w₁.disk.destination (helperPath s) = ·) (fun _ => True) w₁.disk w'.disk :=
      (stays_writeHelper (fun _ => rfl) (fun _ _ _ => trivial) r).run h (.refl _)
    refine hlater.leaves.content? (fun hsame => hne ?_) hcontent
    rwa [Disk.destination_of_home hbefore.home, Disk.destination_of_home hbefore.home] at hsame

end ModuleFolder

/-! ## All of a generation -/

namespace Generator

variable {g : Generator} {s : Settings} {n : Names} {p : Parsed} {w w' : World} {r : Report} {d : Disk}
  {a : Artifact}

/-- The files of a module are in different places, and no other file that a generation writes is in one
of them. -/
structure IsSeparate (s : Settings) (n : Names) (d : Disk) : Prop where
  artifacts : ∀ a b, a ≠ b →
    d.destination (ModuleFolder.artifactPath s n a) ≠ d.destination (ModuleFolder.artifactPath s n b)
  shared : ∀ q ∈ sharedFiles s n, ∀ a, d.destination q ≠ d.destination (ModuleFolder.artifactPath s n a)

lemma isSeparate_of_home {d' : Disk} (h : IsSeparate s n d) (hhome : d'.home = d.home) : IsSeparate s n d' := by
  constructor
  · simpa only [Disk.destination_of_home hhome] using h.artifacts
  · simpa only [Disk.destination_of_home hhome] using h.shared

lemma pairwise_rendered (h : IsSeparate s n d) (p : Parsed) :
    (rendered n p).Pairwise fun a b => d.destination (ModuleFolder.artifactPath s n a.1) ≠
      d.destination (ModuleFolder.artifactPath s n b.1) := by
  have hnodup : (Bundle.kinds p.skipped).Nodup := List.Nodup.filter _ (by decide)
  rw [rendered, Bundle.render, List.pairwise_map]
  exact hnodup.imp fun hne => h.artifacts _ _ hne

lemma mem_rendered (n : Names) (ha : Bundle.isSkipped p.skipped a = false) :
    (a, a.render (.ofFields n p.fields p.upload)) ∈ rendered n p :=
  List.mem_map_of_mem (List.mem_filter.2 ⟨Artifact.mem_all a, by simp [ha]⟩)

/-- Registering and documenting writes shared files only. -/
lemma stays_finish_shared (g : Generator) (n : Names) (p : Parsed) (r : Report) (d : Disk) :
    Stays d (fun l => ∃ q ∈ sharedFiles g.settings n, l = d.destination q) (fun _ => True)
      (g.finish n p r) := by
  have hshared : ∀ q ∈ sharedFiles g.settings n,
      (∃ q' ∈ sharedFiles g.settings n, d.destination q = d.destination q') ∧
        ∀ l, Disk.OnWay d q.parent l → True := fun q hq => ⟨⟨q, hq, rfl⟩, fun _ _ => trivial⟩
  exact stays_finish (Registration.stays_register fun _ => hshared _ (by simp [sharedFiles]))
    (fun _ => Documentation.stays_update (fun _ => hshared _ (by simp [sharedFiles]))
      fun _ => hshared _ (by simp [sharedFiles])) p r

/-- **A creation without errors of writing**: the helper is there if it was asked for, and each file of
the module holds what was rendered for it. -/
theorem Creation.files (h : Creation g n p w (.ok r) w') (herrors : r.exportErrors = []) :
    (p.upload = true → w'.disk.isPresent (ModuleFolder.helperPath g.settings) = .ok true) ∧
      (IsSeparate g.settings n w.disk → ∀ a, Bundle.isSkipped p.skipped a = false →
        w'.disk.content? (ModuleFolder.artifactPath g.settings n a) =
          some (Utf8.encode (a.render (.ofFields n p.fields p.upload)))) := by
  cases h with
  | refused _ hfill _ _ hexport =>
    exact absurd (hexport.symm.trans herrors) (ModuleFolder.of_not_made hfill).2.2
  | @finished w₁ w₂ w₃ _ f r₀ _ hfirst hfill hlast hend hopen hexport =>
    obtain ⟨wm, hmake, hcontent⟩ := ModuleFolder.content_of_made hfill
    obtain ⟨-, -, -, hsame⟩ := finish_flags hend
    have hf : f.errors = [] := hexport.symm.trans (hsame.symm.trans herrors)
    obtain ⟨hhelper, hartifacts⟩ := ModuleFolder.content_ok hcontent hf
    have hmade : Disk.Changes (fun _ => True) (fun _ => True) w.disk wm.disk :=
      (Files.stays_ensureFolder fun _ _ => trivial).run hmake (hfirst.changes _ _)
    have hfilled : Disk.Changes (fun _ => True) (fun _ => True) wm.disk w₃.disk :=
      ((ModuleFolder.stays_content_anywhere g.settings n _ _).run hcontent (.refl _)).trans
        (hlast.changes _ _)
    -- registering and documenting write files that are apart from those of the module
    have hfinish := (stays_finish_shared g n p r₀ w₃.disk).run hend (.refl _)
    refine ⟨fun hupload => hfinish.isPresent (hlast.disk ▸ hhelper hupload), fun hseparate a ha => ?_⟩
    have hwm := isSeparate_of_home hseparate hmade.home
    have hwritten := hartifacts (pairwise_rendered hwm p) _ (mem_rendered n ha)
      (hwm.shared _ (by simp [sharedFiles]) a)
    rw [← hlast.disk] at hwritten
    refine hfinish.leaves.content? ?_ hwritten
    rintro ⟨q, hq, hplace⟩
    exact (isSeparate_of_home hseparate (hmade.trans hfilled).home).shared q hq a hplace.symm

end Generator

end Scaffold
