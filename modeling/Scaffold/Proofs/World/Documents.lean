import Scaffold.Proofs.Disk.Saving
import Scaffold.Proofs.Json.Documents

/-!
# Documents and the contents of files

What reading a document makes of a file depends on its content alone (`documentIn?`), and what it
fails with is a failure after which the file is taken for one without a document
(`runOn_readDocument`).  A file that can be saved is present exactly if it has content
(`isPresent_of_save`): neither a folder nor a name that is too long can be in its place.
-/

namespace Scaffold

namespace Disk

variable {d d' : Disk} {p : Path} {l : Location} {parts : List Text} {q : Place} {e : Errno} {content : Bytes}

/-! ## Files that can be saved -/

lemma length_of_follow (h : d.follow l parts = .ok q) :
    ∀ part ∈ parts, part ≠ ['.', '.'] → ¬ nameLimit < byteLength part := by
  fun_induction Disk.follow d l parts with
  | case1 => exact fun part hpart => absurd hpart List.not_mem_nil
  | case2 l rest ih =>
    refine List.forall_mem_cons.2 ⟨fun hne => absurd rfl hne, ih h⟩
  | case3 => cases h
  | case4 l part hdots hlimit next =>
    exact List.forall_mem_cons.2 ⟨fun _ => hlimit, fun part hpart => absurd hpart List.not_mem_nil⟩
  | case5 l part hdots hlimit next more rest hfolder ih =>
    exact List.forall_mem_cons.2 ⟨fun _ => hlimit, ih h⟩
  | case6 => cases h
  | case7 => cases h

/-- Names that are short enough lead nowhere or through a file at worst. -/
lemma errno_of_follow (hlimit : ∀ part ∈ parts, part ≠ ['.', '.'] → ¬ nameLimit < byteLength part)
    (h : d.follow l parts = .error e) : e = .noEntry ∨ e = .notDirectory := by
  fun_induction Disk.follow d l parts with
  | case1 => cases h
  | case2 l rest ih => exact ih (fun part hpart => hlimit part (List.mem_cons_of_mem _ hpart)) h
  | case3 l part rest hdots hlong => exact absurd hlong (hlimit part (List.mem_cons_self ..) hdots)
  | case4 => cases h
  | case5 l part hdots hlong next more rest hfolder ih =>
    exact ih (fun part hpart => hlimit part (List.mem_cons_of_mem _ hpart)) h
  | case6 => exact .inr (Except.error.inj h).symm
  | case7 => exact .inl (Except.error.inj h).symm

/-- A file that can be saved is present if it has content. -/
theorem isPresent_of_save (hp : HasNames p) (h : d.save p content = (.ok (), d')) :
    d.isPresent p = .ok (d.content? p).isSome := by
  have hsaves := save_ok hp h
  obtain ⟨hterm, hlimit, hfollow⟩ := place_eq_ok_iff.1 (content?_eq_some_iff.1 hsaves.content)
  cases hstep : d.follow (d.start p) p.parts with
  | error e =>
    have hplace : d.place p = .error (failure e p) := by
      simp only [Disk.place, hterm, if_neg Bool.false_ne_true, if_neg hlimit, hstep]
    -- the save got through, so the names are not too long, and all that is missing is a folder
    have he := errno_of_follow (length_of_follow hfollow) hstep
    have hpresent : d.isPresent p = .ok false := by
      simp only [isPresent, holds, entry, hplace, bind, Except.bind, failure]
      rw [if_pos he]
    have hcontent : d.content? p = none := by
      simp only [content?, read, entry, hplace, bind, Except.bind]
      rfl
    rw [hpresent, hcontent]
    rfl
  | ok q =>
    obtain ⟨location, found⟩ := q
    have hplace : d.place p = .ok ⟨location, found⟩ := place_eq_ok_iff.2 ⟨hterm, hlimit, hstep⟩
    have hlocation : location = d.destination p := location_of_place hplace
    have hfound : found = d.find? location := found?_of_place hplace
    cases found with
    | none =>
      have hpresent : d.isPresent p = .ok false := by
        simp only [isPresent, holds, entry, hplace, bind, Except.bind, failure]
        rfl
      have hcontent : d.content? p = none := by
        simp only [content?, read, entry, hplace, bind, Except.bind]
        rfl
      rw [hpresent, hcontent]
      rfl
    | some found =>
      cases found with
      | folder => exact absurd (hlocation ▸ hfound.symm) hsaves.notFolder
      | file c =>
        have hpresent : d.isPresent p = .ok true := by
          simp only [isPresent, holds, entry, hplace]
          rfl
        have hcontent : d.content? p = some c := by
          rw [content?_eq_some_iff, hplace, hlocation]
        rw [hpresent, hcontent]
        rfl

/-! ## Reading -/

lemma isOs_or_isBadValue_of_place {f : Failure} (h : d.place p = .error f) :
    (f.isOs || f.isBadValue) = true := by
  unfold Disk.place at h
  split at h
  · obtain rfl := Except.error.inj h
    rfl
  · split at h
    · obtain rfl := Except.error.inj h
      rfl
    · split at h
      · cases h
      · obtain rfl := Except.error.inj h
        rfl

lemma isOs_or_isBadValue_of_read {f : Failure} (h : d.read p = .error f) :
    (f.isOs || f.isBadValue) = true := by
  simp only [read, entry, bind, Except.bind] at h
  cases hplace : d.place p with
  | error f' =>
    rw [hplace] at h
    obtain rfl := Except.error.inj h
    exact isOs_or_isBadValue_of_place hplace
  | ok q =>
    obtain ⟨location, found⟩ := q
    rw [hplace] at h
    cases found with
    | none =>
      obtain rfl := Except.error.inj h
      rfl
    | some found =>
      cases found with
      | folder =>
        obtain rfl := Except.error.inj h
        rfl
      | file c => cases h

end Disk

namespace Files

variable {w : World} {p : Path} {c : Bytes} {v : Json}

/-- The text in a file. -/
def textIn? (c : Bytes) : Option Text := (Utf8.decode c).toOption.map Text.unifyNewlines

/-- The document in a file. -/
def documentIn? (c : Bytes) : Option Json := (textIn? c).bind fun t => (Json.parse t).toOption

/-- A document that was written is in the file. -/
lemma documentIn?_encode (h : v.IsProper) : documentIn? (Utf8.encode v.fileText) = some v := by
  have htext : textIn? (Utf8.encode v.fileText) = some v.fileText := by
    rw [textIn?, Utf8.decode_encode]
    exact congrArg some (Text.unifyNewlines_eq_self (Json.not_mem_fileText v))
  rw [documentIn?, htext, Option.bind_some, Json.parse_fileText h]
  rfl

lemma isProper_of_documentIn? (h : documentIn? c = some v) : v.IsProper := by
  obtain ⟨t, -, hparse⟩ := Option.bind_eq_some_iff.1 h
  exact Json.isProper_of_parse (eq_ok_of_toOption hparse)

/-- **Reading a document** makes of a file what its content says, or fails in a way that says that
there is no document. -/
theorem runOn_readDocument (w : World) (p : Path) :
    ∃ r, (readDocument p).runOn w = (r, w) ∧ r.toOption = (w.disk.content? p).bind documentIn? ∧
      ∀ f, r = .error f → (f.isOs || f.isBadValue) = true := by
  have hrun : (readDocument p).runOn w =
      (w.disk.readText p >>= document p, w) := by
    rw [readDocument, Act.runOn_bind, read, Act.runOn_look]
    cases w.disk.readText p <;> rfl
  refine ⟨_, hrun, ?_⟩
  rw [Disk.content?]
  cases hread : w.disk.read p with
  | error f =>
    have htext : w.disk.readText p = .error f := by rw [Disk.readText, hread]; rfl
    rw [htext]
    refine ⟨rfl, fun f' hf' => ?_⟩
    obtain rfl := Except.error.inj hf'
    exact Disk.isOs_or_isBadValue_of_read hread
  | ok c =>
    cases hdecode : Utf8.decode c with
    | error e =>
      have htext : w.disk.readText p = .error (.encoding e) := by
        simp only [Disk.readText, hread, bind, Except.bind, hdecode]
        rfl
      rw [htext]
      refine ⟨by simp [Except.toOption, bind, Except.bind, documentIn?, textIn?, hdecode],
        fun f' hf' => ?_⟩
      obtain rfl := Except.error.inj hf'
      rfl
    | ok t =>
      have htext : w.disk.readText p = .ok (Text.unifyNewlines t) := by
        simp only [Disk.readText, hread, bind, Except.bind, hdecode]
        rfl
      have hcontent : documentIn? c = (Json.parse (Text.unifyNewlines t)).toOption := by
        simp [documentIn?, textIn?, hdecode, Except.toOption]
      rw [htext]
      simp only [bind, Except.bind, Except.toOption, Option.bind_some, hcontent, document]
      cases Json.parse (Text.unifyNewlines t) with
      | ok v => exact ⟨rfl, fun f' hf' => by cases hf'⟩
      | error e =>
        refine ⟨rfl, fun f' hf' => ?_⟩
        obtain rfl := Except.error.inj hf'
        rfl

/-- Writing a file leaves the disk that saving it leaves, also where it fails. -/
lemma disk_write (w : World) (p : Path) (t : Text) :
    ((write true p t).runOn w).2.disk = (w.disk.save p (Utf8.encode t)).2 := by
  simp only [write, ensureFolder, Disk.save, Act.runOn_bind, Act.runOn_change]
  rcases Disk.makeFolders p.parent w.disk with ⟨r, d₁⟩
  cases r with
  | error f => rfl
  | ok _ =>
    simp only [Act.runOn_say, if_true]
    rcases Disk.writeAtomic p (Utf8.encode t) d₁ with ⟨r, d₂⟩
    cases r <;> rfl

/-- Writing a file saves it. -/
lemma runOn_write {t : Text} {d' : Disk} (h : w.disk.save p (Utf8.encode t) = (.ok (), d')) :
    ∃ n w', (write true p t).runOn w = (.ok n, w') ∧ w'.disk = d' := by
  unfold Disk.save at h
  split at h
  · rename_i d₀ hmake
    refine ⟨(Utf8.encode t).length, _, Prod.ext ?_ rfl, ?_⟩
    · simp only [write, ensureFolder, Act.runOn_bind, Act.runOn_change, Act.runOn_say, hmake, if_true, h]
      rfl
    · simp only [write, ensureFolder, Act.runOn_bind, Act.runOn_change, Act.runOn_say, hmake, if_true, h]
      rfl
  · cases h

end Files

end Scaffold
