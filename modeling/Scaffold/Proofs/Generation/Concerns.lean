import Scaffold.Proofs.Disk.Savable
import Scaffold.Proofs.Generation.Footprint
import Scaffold.Proofs.Generation.Respect
import Scaffold.Proofs.Generation.Sources
import Scaffold.Proofs.Generation.Upkeeps

/-!
# The two files of a module do not depend on each other

Documenting a module writes its request collection, tells the remote service, and writes the API
document.  Whatever becomes of one of these, the others are what they would be without it, as long as the
two files are unrelated (`AreUnrelated`): the API document is what it would be if no request collection
were wanted (`find?_update_document`), and the request collection is what it would be if there were no
remote service (`find?_update_collection`).  A report always comes back (`exists_runOn_update`).

Writing the request collection does not only write a file.  It makes folders, and these may be on the way
to the API document; they are folders that saving the document makes as well.
-/

namespace Scaffold

open Act

/-- Operations on a file keep a disk in order. -/
lemma Disk.respects_isSound {p : Path} (hnames : Disk.HasNames p) :
    Disk.Respects (fun d d' => d' = d ∧ d.IsSound) p where
  isPresent := by
    rintro d _ ⟨rfl, -⟩
    rfl
  readText := by
    rintro d _ ⟨rfl, -⟩
    rfl
  makeFolders := by
    rintro d _ ⟨rfl, hsound⟩
    exact ⟨rfl, rfl, hsound.makeFolders (Disk.hasNames_parent hnames)⟩
  writeAtomic := by
    rintro content d _ ⟨rfl, hsound⟩
    exact ⟨rfl, rfl, hsound.writeAtomic hnames content⟩

namespace Documentation

variable {s : Settings} {n : Names} {fields : List Field} {client : Option Client} {w w' : World}
  {r : DocumentationResult} {d : Disk}

/-! ## Steps that report -/

/-- The step for the request collection, which leaves the disk that saving the collection leaves. -/
lemma exists_runOn_updateCollection (s : Settings) (n : Names) (fields : List Field) (client : Option Client)
    (r : DocumentationResult) (w : World) :
    ∃ r' w', (updateCollection s n fields client r).runOn w = (.ok r', w') ∧
      w'.disk = ((saveCollection s n (Collection.ofModule n fields s.apiPrefix)).runOn w).2.disk := by
  simp only [updateCollection, runOn_bind, runOn_attempt]
  generalize (saveCollection s n (Collection.ofModule n fields s.apiPrefix)).runOn w = saved
  obtain ⟨result, w₁⟩ := saved
  cases result with
  | error f =>
    obtain ⟨r', w', hrun, hdisk, -⟩ := runOn_failed r "Postman collection" f w₁
    exact ⟨r', w', hrun, hdisk⟩
  | ok p =>
    simp only
    split
    · simp only [runOn_bind, runOn_attempt]
      have hkeeps := (respects_sync (s := s) (n := n) (Collection.ofModule n fields s.apiPrefix) client).keeps
        (K := (· = w₁.disk)) w₁ rfl
      generalize (sync s n (Collection.ofModule n fields s.apiPrefix) client).runOn w₁ = synced at hkeeps
      obtain ⟨result, w₂⟩ := synced
      cases result with
      | error f =>
        obtain ⟨r', w', hrun, hdisk, -⟩ := runOn_failed { r with collectionPath := some p.text }
          "Postman collection" f w₂
        exact ⟨r', w', hrun, hdisk.trans hkeeps⟩
      | ok _ => exact ⟨_, w₂, rfl, hkeeps⟩
    · exact ⟨_, w₁, rfl, rfl⟩

/-- The step for the API document. -/
lemma exists_runOn_updateDocument (s : Settings) (n : Names) (fields : List Field) (r : DocumentationResult)
    (w : World) : ∃ r' w', (updateDocument s n fields r).runOn w = (.ok r', w') ∧
      w'.disk = ((saveDocument s n fields).runOn w).2.disk := by
  simp only [updateDocument, runOn_bind, runOn_attempt]
  generalize (saveDocument s n fields).runOn w = saved
  obtain ⟨result, w₁⟩ := saved
  cases result with
  | error f =>
    obtain ⟨r', w', hrun, hdisk, -⟩ := runOn_failed r "Swagger documentation" f w₁
    exact ⟨r', w', hrun, hdisk⟩
  | ok p => exact ⟨_, w₁, rfl, rfl⟩

/-- The disk after the step for the request collection. -/
def afterCollection (s : Settings) (n : Names) (fields : List Field) (w : World) : Disk :=
  if s.updateCollection then
    ((saveCollection s n (Collection.ofModule n fields s.apiPrefix)).runOn w).2.disk
  else w.disk

/-- The disk after the step for the API document. -/
def afterDocument (s : Settings) (n : Names) (fields : List Field) (w : World) : Disk :=
  if s.updateDocument then ((saveDocument s n fields).runOn w).2.disk else w.disk

/-- A world in which it was said that a module is documented. -/
def announced (n : Names) (w : World) : World :=
  { w with log := w.log ++ [⟨.info, .documentation, "Updating documentation for " ++ n.className ++ "..."⟩] }

/-- **Documenting a module** always reports, and takes one step after the other. -/
theorem exists_runOn_update (s : Settings) (n : Names) (fields : List Field) (client : Option Client)
    (w : World) : ∃ r w₁ w', (update s n fields client).runOn w = (.ok r, w') ∧
      w₁.disk = afterCollection s n fields (announced n w) ∧ w'.disk = afterDocument s n fields w₁ := by
  have hcollection : ∀ r w, ∃ r' w', (if s.updateCollection then updateCollection s n fields client r
      else pure r).runOn w = (.ok r', w') ∧ w'.disk = afterCollection s n fields w := by
    intro r w
    unfold afterCollection
    split
    · exact exists_runOn_updateCollection s n fields client r w
    · exact ⟨r, w, rfl, rfl⟩
  have hdocument : ∀ r w, ∃ r' w', (if s.updateDocument then updateDocument s n fields r else pure r).runOn w =
      (.ok r', w') ∧ w'.disk = afterDocument s n fields w := by
    intro r w
    unfold afterDocument
    split
    · exact exists_runOn_updateDocument s n fields r w
    · exact ⟨r, w, rfl, rfl⟩
  rw [update_eq]
  simp only [updateFiles, runOn_bind, runOn_say]
  obtain ⟨r₁, w₁, hrun₁, hdisk₁⟩ := hcollection { className := n.className } (announced n w)
  obtain ⟨r₂, w₂, hrun₂, hdisk₂⟩ := hdocument r₁ w₁
  have hfirst : ((if s.updateCollection then updateCollection s n fields client { className := n.className }
      else pure { className := n.className }).runOn { w with log := w.log ++
        [⟨.info, .documentation, "Updating documentation for " ++ n.className ++ "..."⟩] }) = (.ok r₁, w₁) := hrun₁
  refine ⟨r₂, w₁, _, Prod.ext ?_ rfl, hdisk₁, ?_⟩
  · simp only [hfirst, hrun₂, runOn_pure]
  · simp only [hfirst, hrun₂, runOn_pure]
    exact hdisk₂

/-! ## The API document -/

section Document

variable (hnames : Disk.HasNames s.documentPath)

include hnames

/-- A document that can be saved is made from what was in its file. -/
lemma find?_saveDocument (hsave : ∀ content, ∃ d', w.disk.save s.documentPath content = (.ok (), d')) :
    ((saveDocument s n fields).runOn w).2.disk.find? (w.disk.destination s.documentPath) =
      match (documentUpkeep s (n, fields)).next (w.disk.content? s.documentPath) with
      | some content => some (.file content)
      | none => w.disk.find? (w.disk.destination s.documentPath) := by
  obtain ⟨r, w', hrun, hdisk, -⟩ := keepsUp_saveDocument (w := w) s n fields hnames hsave
  rw [hrun, hdisk, Upkeep.perform]
  have hpath : (OpenApi.upkeep s.documentPath ⟨n, fields, s.apiPrefix⟩).path = s.documentPath := rfl
  have hnext : (OpenApi.upkeep s.documentPath ⟨n, fields, s.apiPrefix⟩).next =
      (documentUpkeep s (n, fields)).next := rfl
  rw [hpath, hnext]
  cases (documentUpkeep s (n, fields)).next (w.disk.content? s.documentPath) with
  | none => rfl
  | some content =>
    obtain ⟨d', hsaved⟩ := hsave content
    have hsaves := Disk.save_ok hnames hsaved
    simp only [hsaved]
    rw [← Disk.destination_of_home hsaves.leaves.home]
    exact Disk.find?_of_content? hsaves.content

omit hnames in
/-- A document that cannot be saved leaves its file as it was. -/
lemma find?_saveDocument_of_error (htree : w.disk.IsTree) (hdescends : w.disk.Descends s.documentPath)
    (hsave : ∀ content d', w.disk.save s.documentPath content ≠ (.ok (), d')) :
    ((saveDocument s n fields).runOn w).2.disk.find? (w.disk.destination s.documentPath) =
      w.disk.find? (w.disk.destination s.documentPath) := by
  cases prepares_saveDocument s n fields w with
  | unseen _ hrun => rw [hrun]
  | @prepared r w₁ records hdisk hnext hrun =>
    have hpath : (OpenApi.upkeep s.documentPath ⟨n, fields, s.apiPrefix⟩).path = s.documentPath := rfl
    rw [hrun, hpath, written, runOn_bind, runOn_ofExcept]
    cases r with
    | error f => exact congrArg (Disk.find? · _) hdisk
    | ok v =>
      have hwrite : ((Files.writeDocument s.documentPath v).runOn w₁).2.disk.find?
          (w.disk.destination s.documentPath) = w.disk.find? (w.disk.destination s.documentPath) := by
        rw [Files.writeDocument, Files.disk_write, hdisk]
        cases hsaved : w.disk.save s.documentPath (Utf8.encode v.fileText) with
        | mk result d' =>
          cases result with
          | ok _ => exact absurd hsaved (hsave _ _)
          | error f => exact Disk.find?_of_save_error htree hdescends hsaved
      simp only [runOn_bind]
      -- nothing but records comes after the write, whether it fails or not
      generalize (Files.writeDocument s.documentPath v).runOn w₁ = result at hwrite ⊢
      obtain ⟨_ | _, w₂⟩ := result
      · exact hwrite
      · exact hwrite

/-- **What becomes of the API document** does not depend on changes elsewhere. -/
theorem find?_saveDocument_congr {files folders : Location → Prop} (hsound : w.disk.IsSound)
    (hsound' : w'.disk.IsSound) (hdescends : w.disk.Descends s.documentPath)
    (hchanges : Disk.Changes files folders w.disk w'.disk)
    (hoff : Disk.KeepsOff files folders w.disk s.documentPath) :
    ((saveDocument s n fields).runOn w').2.disk.find? (w.disk.destination s.documentPath) =
      ((saveDocument s n fields).runOn w).2.disk.find? (w.disk.destination s.documentPath) := by
  have hdescends' := hdescends.of_leaves hchanges.leaves
  have hcontent := Disk.content?_congr hchanges hoff hsound.tree hdescends
  have hend := Disk.find?_destination hchanges hoff
  have hsavable := Disk.savable_congr hchanges hoff
  have hdestination := Disk.destination_of_home hchanges.home s.documentPath
  by_cases hsave : w.disk.Savable s.documentPath
  · rw [find?_saveDocument hnames (hsave.exists_save hsound.tree hnames hsound.plan hdescends), ← hdestination,
      find?_saveDocument hnames
        ((hsavable.2 hsave).exists_save hsound'.tree hnames hsound'.plan hdescends'), hcontent, hdestination, hend]
  · have hfails : ∀ content d', w.disk.save s.documentPath content ≠ (.ok (), d') := fun content d' h =>
      hsave (Disk.savable_of_save hsound.tree hnames h)
    have hfails' : ∀ content d', w'.disk.save s.documentPath content ≠ (.ok (), d') := fun content d' h =>
      hsave (hsavable.1 (Disk.savable_of_save hsound'.tree hnames h))
    rw [find?_saveDocument_of_error hsound.tree hdescends hfails, ← hdestination,
      find?_saveDocument_of_error hsound'.tree hdescends' hfails', hdestination, hend]

end Document

/-! ## Unrelated files -/

/-- Settings without credentials for the remote service. -/
def withoutCredentials (s : Settings) : Settings := { s with apiKey := none, collectionId := none }

/-- Settings without a request collection. -/
def withoutCollection (s : Settings) : Settings := { s with updateCollection := false }

/-- A request collection and an API document that are unrelated, on a disk in order. -/
structure AreUnrelated (s : Settings) (n : Names) (d : Disk) : Prop where
  sound : d.IsSound
  base : Disk.HasNames s.base
  /-- All folders that the path of the document steps out of are there. -/
  descends : d.Descends s.documentPath
  /-- The document is neither the collection nor in the place of a folder on the way to it. -/
  document : ¬ d.OnWay (collectionFile s n) (d.destination s.documentPath)
  /-- The collection is not in the place of a folder on the way to the document. -/
  collection : ¬ d.OnWay s.documentPath (d.destination (collectionFile s n))
  /-- Nor is anything on the way to the collection in the place of the temporary file of the document. -/
  temporary : ¬ d.OnWay (collectionFile s n) (d.destination (d.temporary s.documentPath))

section Unrelated

variable (hunrelated : AreUnrelated s n w.disk)

include hunrelated

lemma AreUnrelated.keepsOff : Disk.KeepsOff (· = w.disk.destination (collectionFile s n))
    (w.disk.OnWay (collectionFile s n)) w.disk s.documentPath where
  way := by
    rintro l rfl
    exact hunrelated.collection
  target := hunrelated.document
  temporary := ⟨fun h => hunrelated.temporary (h ▸ Disk.onWay_destination _ _), hunrelated.temporary⟩

omit hunrelated in
/-- The step for the request collection changes nothing but its file and folders on the way to it. -/
lemma changes_afterCollection : Disk.Changes (· = w.disk.destination (collectionFile s n))
    (w.disk.OnWay (collectionFile s n)) w.disk (afterCollection s n fields (announced n w)) := by
  unfold afterCollection
  split
  · have hstays : Stays w.disk (· = w.disk.destination (collectionFile s n))
        (w.disk.OnWay (collectionFile s n)) (saveCollection s n (Collection.ofModule n fields s.apiPrefix)) :=
      stays_saveCollection (by rfl) (fun l hl => Disk.onWay_of_parent hl) _
    exact hstays (announced n w) (.refl _)
  · exact .refl _

lemma AreUnrelated.sound_afterCollection : (afterCollection s n fields (announced n w)).IsSound := by
  unfold afterCollection
  split
  · have hnames := Rebuild.hasNames_child (Rebuild.hasNames_child hunrelated.base s.collectionFolder)
      (n.folder ++ ".postman_collection.json")
    exact (respects_saveCollection (Disk.respects_isSound hnames) _).keeps (announced n w) hunrelated.sound
  · exact hunrelated.sound

/-- **The API document** is what it would be if no request collection were wanted. -/
theorem find?_update_document :
    ((update s n fields client).runOn w).2.disk.find? (w.disk.destination s.documentPath) =
      ((update (withoutCollection s) n fields client).runOn w).2.disk.find?
        (w.disk.destination s.documentPath) := by
  obtain ⟨r, w₁, w', hrun, hdisk₁, hdisk'⟩ := exists_runOn_update s n fields client w
  obtain ⟨r₀, w₁₀, w'₀, hrun₀, hdisk₁₀, hdisk'₀⟩ :=
    exists_runOn_update (withoutCollection s) n fields client w
  have hchanges : Disk.Changes (· = w.disk.destination (collectionFile s n))
      (w.disk.OnWay (collectionFile s n)) w.disk w₁.disk := hdisk₁ ▸ changes_afterCollection
  have hsound : w₁.disk.IsSound := hdisk₁ ▸ hunrelated.sound_afterCollection
  have hbefore : w₁₀.disk = w.disk := hdisk₁₀
  rw [hrun, hrun₀]
  have hsame : afterDocument (withoutCollection s) n fields w₁₀ = afterDocument s n fields w₁₀ := rfl
  simp only [hdisk', hdisk'₀, hsame]
  rw [afterDocument, afterDocument]
  cases s.updateDocument with
  | true =>
    simp only [if_true]
    have hoff := hunrelated.keepsOff
    rw [← hbefore] at hchanges hoff ⊢
    exact find?_saveDocument_congr (s := s) (Rebuild.hasNames_child hunrelated.base _)
      (hbefore ▸ hunrelated.sound) hsound (hbefore ▸ hunrelated.descends) hchanges hoff
  | false =>
    simp only [Bool.false_eq_true, if_false]
    rw [hbefore]
    exact Disk.find?_destination hchanges hunrelated.keepsOff

/-- **The request collection** is what it would be without the remote service. -/
theorem find?_update_collection :
    ((update s n fields client).runOn w).2.disk.find? (w.disk.destination (collectionFile s n)) =
      ((update (withoutCredentials s) n fields client).runOn w).2.disk.find?
        (w.disk.destination (collectionFile s n)) := by
  have hdocument : ∀ w₁ : World, w₁.disk = afterCollection s n fields (announced n w) →
      (afterDocument s n fields w₁).find? (w.disk.destination (collectionFile s n)) =
        (afterCollection s n fields (announced n w)).find? (w.disk.destination (collectionFile s n)) := by
    intro w₁ hdisk₁
    have hhome : w₁.disk.home = w.disk.home := hdisk₁ ▸ changes_afterCollection.home
    unfold afterDocument
    split
    · have hstays : Stays w₁.disk (· = w₁.disk.destination s.documentPath) (w₁.disk.OnWay s.documentPath)
          (saveDocument s n fields) := stays_saveDocument (by rfl) (fun l hl => Disk.onWay_of_parent hl) _
      rw [← hdisk₁]
      refine (hstays w₁ (.refl _)).find?_eq (fun hsame => ?_) fun hway => ?_
      · rw [Disk.destination_of_home hhome] at hsame
        exact hunrelated.collection (hsame ▸ Disk.onWay_destination _ _)
      · rw [Disk.onWay_of_home hhome] at hway
        exact hunrelated.collection hway
    · rw [hdisk₁]
  obtain ⟨r, w₁, w', hrun, hdisk₁, hdisk'⟩ := exists_runOn_update s n fields client w
  obtain ⟨r₀, w₁₀, w'₀, hrun₀, hdisk₁₀, hdisk'₀⟩ := exists_runOn_update (withoutCredentials s) n fields client w
  rw [hrun, hrun₀]
  simp only [hdisk', hdisk'₀]
  rw [hdocument w₁ hdisk₁]
  exact (hdocument w₁₀ hdisk₁₀).symm

end Unrelated

end Documentation

end Scaffold
