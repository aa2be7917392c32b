import Scaffold.Generation.Rebuild
import Scaffold.Proofs.World.Respect

/-!
# Documentation side by side

What documenting a module does depends on the disk through two files only.  So on disks that are related,
by a relation that the operations on these two files respect, it does the same: it sends the same
requests, reports the same, and leaves disks that are related.
-/

namespace Scaffold

open Act

variable {s : Settings} {n : Names} {R : Disk → Disk → Prop}

/-! ## The remote service -/

namespace Client

lemma respects_send (c : Client) (method : Method) (path : Text) (sent : Json) (body : Text) :
    Respects R (c.send method path sent body) := by
  intro w w' hw
  have hanswer : w'.remote.answer method sent = w.remote.answer method sent := by rw [hw.remote]
  refine ⟨?_, hw.disk, ?_, ?_⟩
  · simp only [send, runOn_ofFunction, hanswer]
  · simp only [send, runOn_ofFunction, hanswer]
  · simp only [send, runOn_ofFunction, hw.requests]

lemma respects_fetch (c : Client) (id : Text) : Respects R (c.fetch id) := by
  refine (Respects.say _).bind fun _ => (respects_send c _ _ _ _).bind fun answer => ?_
  split
  · exact .pure _
  · exact .throw _

lemma respects_store (c : Client) (id : Text) (collection : Json.Members) :
    Respects R (c.store id collection) := by
  unfold store
  simp only
  split
  · exact (respects_send c _ _ _ _).bind fun _ => .pure _
  · exact .throw _

lemma respects_replaceFolder (collection : Json.Members) (name : Text) (items : List Json) :
    Respects R (replaceFolder collection name items) :=
  (Respects.say _).bind fun _ => (Respects.ofFit _).bind fun _ => (Respects.say _).bind fun _ => .pure _

/-- The shared collection is kept up to date without a look at the disk. -/
lemma respects_updateFolder (c : Client) (id : Text) (n : Names) (collection : Json) :
    Respects R (c.updateFolder id n collection) := by
  refine (respects_fetch c _).bind fun _ => (Respects.say _).bind fun _ => (Respects.ofFit _).bind fun _ =>
    (respects_replaceFolder _ _ _).bind fun _ => ?_
  exact (Respects.say _).bind fun _ => (respects_store c _ _).bind fun _ => (Respects.say _).bind fun _ =>
    .pure _

end Client

/-! ## Documenting a module -/

namespace Documentation

section Files

variable {p : Path} (hread : ∀ d d', R d d' → d'.readText p = d.readText p)

include hread

lemma respects_mergeExisting (collection : Json) : Act.Respects R (mergeExisting p collection) := by
  refine (Files.respects_readDocument hread).bind fun current => ?_
  split
  · exact .pure _
  · exact (Respects.say _).bind fun _ => (Respects.ofFit _).bind fun _ => (Respects.ofFit _).bind fun _ =>
      (Respects.ofFit _).bind fun _ => (Respects.say _).bind fun _ => .pure _

lemma respects_keptCollection (collection : Json) : Act.Respects R (keptCollection p collection) := by
  refine (respects_mergeExisting hread collection).attempt.bind fun r => ?_
  split
  · exact .pure _
  · split
    · exact (Respects.say _).bind fun _ => .pure _
    · exact .throw _

lemma respects_existingDocument : Act.Respects R (existingDocument p) := by
  refine (Files.respects_readDocument hread).attempt.bind fun r => ?_
  split
  · exact .pure _
  · exact (Respects.say _).bind fun _ => .pure _
  · split
    · exact (Respects.say _).bind fun _ => .pure _
    · exact .throw _

end Files

lemma respects_saveCollection (hp : Disk.Respects R (collectionFile s n)) (collection : Json) :
    Act.Respects R (saveCollection s n collection) := by
  refine (Respects.look hp.isPresent).bind fun existed => ?_
  refine .ite_bind (fun _ => respects_keptCollection hp.readText _) (fun _ => .pure _) fun final => ?_
  exact (Files.respects_write hp _).bind fun _ => (Respects.say _).bind fun _ => .pure _

lemma respects_saveDocument (hp : Disk.Respects R s.documentPath) (fields : List Field) :
    Act.Respects R (saveDocument s n fields) := by
  refine (Respects.look hp.isPresent).bind fun existed => ?_
  refine .ite_bind (fun _ => respects_existingDocument hp.readText) (fun _ => .pure _) fun document => ?_
  exact (Respects.ofFit _).bind fun _ => (Files.respects_write hp _).bind fun _ =>
    (Respects.say _).bind fun _ => .pure _

lemma respects_failed (r : DocumentationResult) (what : Text) (f : Failure) :
    Act.Respects R (failed r what f) := (Respects.say _).bind fun _ => .pure _

lemma respects_sync (collection : Json) (client : Option Client) :
    Act.Respects R (sync s n collection client) := by
  refine (Respects.say _).bind fun _ => ?_
  have hgo : ∀ c : Client, Act.Respects R (do
      let _ ← c.updateFolder (s.collectionId.getD []) n collection) := fun c =>
    (c.respects_updateFolder _ _ _).bind fun _ => .pure _
  cases client with
  | some c => exact (Respects.pure c).bind hgo
  | none => exact (Respects.ofExcept _).bind hgo

lemma respects_updateCollection (hp : Disk.Respects R (collectionFile s n)) (fields : List Field)
    (client : Option Client) (r : DocumentationResult) :
    Act.Respects R (updateCollection s n fields client r) := by
  refine (respects_saveCollection hp _).attempt.bind fun saved => ?_
  split
  · exact respects_failed _ _ _
  · simp only
    split
    · refine (respects_sync _ _).attempt.bind fun synced => ?_
      split
      · exact respects_failed _ _ _
      · exact .pure _
    · exact .pure _

lemma respects_updateDocument (hp : Disk.Respects R s.documentPath) (fields : List Field)
    (r : DocumentationResult) : Act.Respects R (updateDocument s n fields r) := by
  refine (respects_saveDocument hp _).attempt.bind fun saved => ?_
  split
  · exact respects_failed _ _ _
  · exact .pure _

/-- **Documenting a module** does the same where the operations on its two files do. -/
theorem respects_update {client : Option Client} {fields : List Field}
    (hcollection : s.updateCollection = true → Disk.Respects R (collectionFile s n))
    (hdocument : s.updateDocument = true → Disk.Respects R s.documentPath) :
    Act.Respects R (update s n fields client) := by
  refine (Respects.say _).bind fun _ => .ite_bind (fun hwanted => ?collection) (fun _ => .pure _) fun _ =>
    .ite_bind (fun hwanted => ?document) (fun _ => .pure _) fun _ => (Respects.say _).bind fun _ => .pure _
  case collection => exact respects_updateCollection (hcollection hwanted) _ _ _
  case document => exact respects_updateDocument (hdocument hwanted) _ _

end Documentation

/-! ## Documenting a module that exists -/

namespace Rebuild

lemma respects_fieldsIn {folder : Path}
    (hread : ∀ kind : Text, kind = "interface" ∨ kind = "model" → ∀ d d', R d d' →
      d'.readText (fileIn folder kind) = d.readText (fileIn folder kind))
    (hfile : ∀ d d', R d d' → d'.isFile (fileIn folder "model") = d.isFile (fileIn folder "model")) :
    Act.Respects R (fieldsIn folder) := by
  refine (Respects.look (hread _ (.inl rfl))).bind fun interface => (Respects.look hfile).bind fun isFile => ?_
  refine .ite_bind (fun _ => .look (hread _ (.inr rfl))) (fun _ => .pure _) fun model => ?_
  simp only
  split
  · exact (Respects.say _).bind fun _ => .pure _
  · exact .pure _

/-- **Rebuilding the documentation of a module** does the same where the operations on its source files and
on its two files do. -/
theorem respects_rebuild {client : Option Client} {folder : Path}
    (hread : ∀ kind : Text, kind = "interface" ∨ kind = "model" → ∀ d d', R d d' →
      d'.readText (fileIn folder kind) = d.readText (fileIn folder kind) ∧
        d'.isFile (fileIn folder kind) = d.isFile (fileIn folder kind))
    (hcollection : s.updateCollection = true → ∀ n, Names.ofRaw? folder.name = some n →
      Disk.Respects R (Documentation.collectionFile s n))
    (hdocument : s.updateDocument = true → Disk.Respects R s.documentPath) :
    Act.Respects R (rebuild s client folder) := by
  refine (Respects.look fun d d' h => (hread _ (.inl rfl) d d' h).2).bind fun isFile => ?_
  split
  · refine (Respects.say _).bind fun _ => ?_
    refine (respects_fieldsIn (fun kind hkind d d' h => (hread kind hkind d d' h).1)
      fun d d' h => (hread _ (.inr rfl) d d' h).2).bind fun fields => ?_
    split
    · exact (Respects.say _).bind fun _ => .pure _
    · refine (Respects.say _).bind fun _ => ?_
      refine .bind_ofExcept fun n hn => (Documentation.respects_update (fun hwanted => ?_) hdocument).bind
        fun _ => .pure _
      refine hcollection hwanted n ?_
      split at hn
      · rename_i n' hnames
        rw [hnames, Except.ok.inj hn]
      · cases hn
  · exact (Respects.say _).bind fun _ => .pure _

end Rebuild

end Scaffold
