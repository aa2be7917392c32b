import Scaffold.Proofs.Generation.Stages
import Scaffold.Proofs.World.Footprint

/-!
# What a generation may change on the disk

The parts of a generation that write are the folder of the module, the upload helper, the router file,
the request collection and the API document.  Each of them keeps to a footprint that has its files and
the folders on the way to them.  The helper is written only where its path led to nothing, and the
router file only where there was a file before, or where the generation has just written one.
-/

namespace Scaffold

open Act

variable {s : Settings} {n : Names} {d : Disk} {files folders : Location → Prop}

/-! ## The folder of the module -/

namespace ModuleFolder

lemma stays_writeFile {p : Path} (hfile : files (d.destination p))
    (hway : ∀ l, Disk.OnWay d p.parent l → folders l) (kind t : Text) :
    Stays d files folders (writeFile true kind p t) :=
  (Files.stays_write hfile hway t).bind fun _ => .pure _

lemma stays_writeArtifact {folder : Path} {a : Artifact}
    (hfile : files (d.destination (folder.child (n.fileName a))))
    (hway : ∀ l, Disk.OnWay d (folder.child (n.fileName a)).parent l → folders l) (t : Text) :
    Stays d files folders (writeArtifact true folder n a t) := by
  refine (stays_writeFile hfile hway _ t).attempt.bind fun r => ?_
  split
  · exact (Stays.say _).bind fun _ => .pure _
  · exact (Stays.say _).bind fun _ => .pure _
  · exact .throw _

/-- The files of the folder are written one after another. -/
lemma stays_writeArtifacts {folder : Path} {artifacts : List (Artifact × Text)}
    (h : ∀ a ∈ artifacts, files (d.destination (folder.child (n.fileName a.1))) ∧
      ∀ l, Disk.OnWay d (folder.child (n.fileName a.1)).parent l → folders l) (r : FolderResult) :
    Stays d files folders (writeArtifacts true folder n r artifacts) := by
  induction artifacts generalizing r with
  | nil => exact .pure _
  | cons a artifacts ih =>
    obtain ⟨hfile, hway⟩ := h a (List.mem_cons_self ..)
    exact (stays_writeArtifact hfile hway a.2).bind fun outcome =>
      ih (fun a ha => h a (List.mem_cons_of_mem _ ha)) _

/-- The helper is not written where it is present from the beginning: what a path leads to stays. -/
lemma stays_writeHelper (hfile : d.isPresent (helperPath s) ≠ .ok true → files (d.destination (helperPath s)))
    (hway : d.isPresent (helperPath s) ≠ .ok true →
      ∀ l, Disk.OnWay d (helperPath s).parent l → folders l) (r : FolderResult) :
    Stays d files folders (writeHelper true s r) := by
  unfold writeHelper
  refine Stays.bind_look fun w present hw hpresent => ?_
  cases present with
  | true => exact hw
  | false =>
    have hmissing : d.isPresent (helperPath s) ≠ .ok true := fun h => by
      rw [hw.isPresent h] at hpresent
      cases hpresent
    have hstays := (stays_writeFile (hfile hmissing) (hway hmissing) "file_helper" UploadHelper.file).attempt
    refine Stays.bind hstays (fun r => ?_) w hw
    split
    · exact (Stays.say _).bind fun _ => .pure _
    · exact (Stays.say _).bind fun _ => .pure _
    · exact .throw _

lemma stays_content {rendered : List (Artifact × Text)} {upload : Bool}
    (hartifacts : ∀ a ∈ rendered, files (d.destination ((path s n).child (n.fileName a.1))) ∧
      ∀ l, Disk.OnWay d ((path s n).child (n.fileName a.1)).parent l → folders l)
    (hhelper : upload = true → d.isPresent (helperPath s) ≠ .ok true →
      files (d.destination (helperPath s)) ∧
        ∀ l, Disk.OnWay d (helperPath s).parent l → folders l) :
    Stays d files folders (content true s n rendered upload) := by
  refine (stays_writeArtifacts hartifacts _).bind fun r => ?_
  split
  · rename_i hupload
    exact stays_writeHelper (fun h => (hhelper hupload h).1) (fun h => (hhelper hupload h).2) r
  · exact .pure _

/-- The folder is made and filled. -/
lemma stays_fill {rendered : List (Artifact × Text)} {upload : Bool}
    (hfolder : ∀ l, Disk.OnWay d (path s n) l → folders l)
    (hcontent : Stays d files folders (content true s n rendered upload)) :
    Stays d files folders (fill true s n rendered upload) := by
  intro w hw
  have hmade := Files.stays_ensureFolder hfolder w hw
  rw [runOn_fill]
  split
  · rename_i w₁ hmake
    rw [hmake] at hmade
    exact hcontent w₁ hmade
  · rename_i e w₁ hmake
    rw [hmake] at hmade
    exact hmade
  · rename_i f w₁ _ hmake
    rw [hmake] at hmade
    exact hmade

end ModuleFolder

/-! ## The router file -/

namespace Registration

lemma stays_failed (r : RegistrationResult) (f : Failure) : Stays d files folders (failed r f) :=
  (Stays.say _).bind fun _ => .pure _

lemma stays_store {p : Path} (hfile : files (d.destination p))
    (hway : ∀ l, Disk.OnWay d p.parent l → folders l) (before : Text) (patch : Router.Patch) :
    Stays d files folders (store p before patch) := by
  refine (Stays.say _).bind fun _ => ?_
  split
  · exact (Stays.say _).bind fun _ => .pure _
  · refine (Files.stays_write hfile hway _).attempt.bind fun r => ?_
    split
    · exact (Stays.say _).bind fun _ => .pure _
    · split
      · exact stays_failed _ _
      · exact .throw _

/-- The router file was there from the beginning, or is in the footprint already. -/
lemma stays_register (h : (∃ c, d.find? (d.destination s.routerPath) = some (.file c)) ∨
      files (d.destination s.routerPath) → files (d.destination s.routerPath) ∧
        ∀ l, Disk.OnWay d s.routerPath.parent l → folders l) :
    Stays d files folders (register s n) := by
  refine Stays.bind_look fun w isFile hw hisFile => ?_
  cases isFile with
  | false => exact hw
  | true =>
    obtain ⟨c, hplace⟩ := Disk.exists_place_of_isFile hisFile
    have hfound : w.disk.find? (d.destination s.routerPath) = some (.file c) := by
      rw [← Disk.destination_of_home hw.home]
      exact (Disk.found?_of_place hplace).symm
    obtain ⟨hfile, hway⟩ := h ((hw.file_before hfound).symm.imp_left fun h => ⟨c, h⟩)
    refine Stays.bind (Stays.look _).attempt (fun r => ?_) w hw
    split
    · exact stays_store hfile hway _ _
    · split
      · exact stays_failed _ _
      · exact .throw _

end Registration

/-! ## Documentation -/

namespace Client

lemma stays_send (c : Client) (method : Method) (path : Text) (sent : Json) (body : Text) :
    Stays d files folders (c.send method path sent body) := .of_disk_eq fun _ => rfl

lemma stays_fetch (c : Client) (id : Text) : Stays d files folders (c.fetch id) := by
  refine (Stays.say _).bind fun _ => (stays_send c _ _ _ _).bind fun answer => ?_
  split
  · exact .pure _
  · exact .throw _

lemma stays_store (c : Client) (id : Text) (collection : Json.Members) :
    Stays d files folders (c.store id collection) := by
  unfold store
  simp only
  split
  · exact (stays_send c _ _ _ _).bind fun _ => .pure _
  · exact .throw _

lemma stays_replaceFolder (collection : Json.Members) (name : Text) (items : List Json) :
    Stays d files folders (replaceFolder collection name items) :=
  (Stays.say _).bind fun _ => (Stays.ofFit _).bind fun _ => (Stays.say _).bind fun _ => .pure _

/-- Keeping the shared collection up to date does not touch the disk. -/
lemma stays_updateFolder (c : Client) (id : Text) (n : Names) (collection : Json) :
    Stays d files folders (c.updateFolder id n collection) := by
  refine (stays_fetch c _).bind fun _ => (Stays.say _).bind fun _ => (Stays.ofFit _).bind fun _ =>
    (stays_replaceFolder _ _ _).bind fun _ => ?_
  exact (Stays.say _).bind fun _ => (stays_store c _ _).bind fun _ => (Stays.say _).bind fun _ =>
    .pure _

end Client

namespace Documentation

lemma stays_mergeExisting (p : Path) (collection : Json) :
    Stays d files folders (mergeExisting p collection) := by
  refine (Files.stays_readDocument p).bind fun current => ?_
  split
  · exact .pure _
  · exact (Stays.say _).bind fun _ => (Stays.ofFit _).bind fun _ => (Stays.ofFit _).bind fun _ =>
      (Stays.ofFit _).bind fun _ => (Stays.say _).bind fun _ => .pure _

lemma stays_keptCollection (p : Path) (collection : Json) :
    Stays d files folders (keptCollection p collection) := by
  refine (stays_mergeExisting p collection).attempt.bind fun r => ?_
  split
  · exact .pure _
  · split
    · exact (Stays.say _).bind fun _ => .pure _
    · exact .throw _

lemma stays_saveCollection (hfile : files (d.destination (collectionFile s n)))
    (hway : ∀ l, Disk.OnWay d (collectionFile s n).parent l → folders l) (collection : Json) :
    Stays d files folders (saveCollection s n collection) := by
  refine (Stays.look _).bind fun existed => ?_
  refine .ite_bind (fun _ => stays_keptCollection _ _) (fun _ => .pure _) fun final => ?_
  exact (Files.stays_write hfile hway _).bind fun _ => (Stays.say _).bind fun _ => .pure _

lemma stays_existingDocument (p : Path) : Stays d files folders (existingDocument p) := by
  refine (Files.stays_readDocument p).attempt.bind fun r => ?_
  split
  · exact .pure _
  · exact (Stays.say _).bind fun _ => .pure _
  · split
    · exact (Stays.say _).bind fun _ => .pure _
    · exact .throw _

lemma stays_saveDocument (hfile : files (d.destination s.documentPath))
    (hway : ∀ l, Disk.OnWay d s.documentPath.parent l → folders l) (fields : List Field) :
    Stays d files folders (saveDocument s n fields) := by
  refine (Stays.look _).bind fun existed => ?_
  refine .ite_bind (fun _ => stays_existingDocument _) (fun _ => .pure _) fun document => ?_
  exact (Stays.ofFit _).bind fun _ => (Files.stays_write hfile hway _).bind fun _ =>
    (Stays.say _).bind fun _ => .pure _

lemma stays_failed (r : DocumentationResult) (what : Text) (f : Failure) :
    Stays d files folders (failed r what f) := (Stays.say _).bind fun _ => .pure _

lemma stays_sync (collection : Json) (client : Option Client) :
    Stays d files folders (sync s n collection client) := by
  refine (Stays.say _).bind fun _ => ?_
  have hgo : ∀ c : Client, Stays d files folders (do
      let _ ← c.updateFolder (s.collectionId.getD []) n collection) := fun c =>
    (c.stays_updateFolder _ _ _).bind fun _ => .pure _
  cases client with
  | some c => exact (Stays.pure c).bind hgo
  | none => exact (Stays.ofExcept _).bind hgo

lemma stays_updateCollection (hfile : files (d.destination (collectionFile s n)))
    (hway : ∀ l, Disk.OnWay d (collectionFile s n).parent l → folders l) (fields : List Field)
    (client : Option Client) (r : DocumentationResult) :
    Stays d files folders (updateCollection s n fields client r) := by
  refine (stays_saveCollection hfile hway _).attempt.bind fun saved => ?_
  split
  · exact stays_failed _ _ _
  · simp only
    split
    · refine (stays_sync _ _).attempt.bind fun synced => ?_
      split
      · exact stays_failed _ _ _
      · exact .pure _
    · exact .pure _

lemma stays_updateDocument (hfile : files (d.destination s.documentPath))
    (hway : ∀ l, Disk.OnWay d s.documentPath.parent l → folders l) (fields : List Field)
    (r : DocumentationResult) : Stays d files folders (updateDocument s n fields r) := by
  refine (stays_saveDocument hfile hway _).attempt.bind fun saved => ?_
  split
  · exact stays_failed _ _ _
  · exact .pure _

/-- Documenting a module writes its request collection and the API document, if they are wanted. -/
lemma stays_update {client : Option Client} {fields : List Field}
    (hcollection : s.updateCollection = true → files (d.destination (collectionFile s n)) ∧
      ∀ l, Disk.OnWay d (collectionFile s n).parent l → folders l)
    (hdocument : s.updateDocument = true → files (d.destination s.documentPath) ∧
      ∀ l, Disk.OnWay d s.documentPath.parent l → folders l) :
    Stays d files folders (update s n fields client) := by
  refine (Stays.say _).bind fun _ => .ite_bind (fun hwanted => ?collection) (fun _ => .pure _) fun _ =>
    .ite_bind (fun hwanted => ?document) (fun _ => .pure _) fun _ => (Stays.say _).bind fun _ => .pure _
  case collection =>
    exact stays_updateCollection (hcollection hwanted).1 (hcollection hwanted).2 _ _ _
  case document => exact stays_updateDocument (hdocument hwanted).1 (hdocument hwanted).2 _ _

end Documentation

/-! ## Registering and documenting -/

/-- What follows the folder of a module is to register and to document it. -/
lemma Generator.stays_finish {g : Generator}
    (hregister : Stays d files folders (Registration.register g.settings n))
    (hupdate : ∀ fields, Stays d files folders (Documentation.update g.settings n fields g.client))
    (p : Parsed) (r : Report) : Stays d files folders (g.finish n p r) := by
  refine (hregister.timed _).bind fun x => ?_
  simp only
  split
  · exact ((hupdate p.fields).timed _).bind fun y => (Stays.pure _).bind fun _ =>
      (Stays.say _).bind fun _ => .pure _
  · exact (Stays.pure _).bind fun _ => (Stays.say _).bind fun _ => .pure _

end Scaffold
