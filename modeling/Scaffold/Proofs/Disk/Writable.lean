import Scaffold.Proofs.Disk.Saving

/-!
# When all saves succeed

Saves succeed on a disk that was not told to fail if the folders of the files are there, no folder is
in the place of a file, and the names of the temporary files are free (`CanSave`).  All of that is so
again after a save, since it leaves nothing behind but the file, so that saves succeed again and again
(`acceptsSaves`).
-/

namespace Scaffold.Disk

variable {d d' : Disk} {p r : Path} {m l t : Location} {content c : Bytes} {paths : Path → Prop}

/-- A file that can be saved. -/
structure CanSave (d : Disk) (p : Path) : Prop where
  plan : d.plan = []
  folder : ∃ m, d.place p.parent = .ok ⟨m, some .folder⟩
  target : d.place p = .ok ⟨d.destination p, d.find? (d.destination p)⟩
  notFolder : d.find? (d.destination p) ≠ some .folder
  temporary : d.place (d.temporary p) = .ok ⟨d.destination (d.temporary p), none⟩
  apart : d.destination (d.temporary p) ≠ d.destination p

/-- Places can be compared by what they hold. -/
lemma place_eq_of_map {found : Option Entry}
    (h : (d.place p).toOption.map (fun q => (q.location, q.found?)) = some (l, found)) :
    d.place p = .ok ⟨l, found⟩ := by
  obtain ⟨q, hq, heq⟩ := Option.map_eq_some_iff.1 h
  obtain ⟨rfl, rfl⟩ := Prod.mk.inj heq
  exact eq_ok_of_toOption hq

lemma place_eq_of_location (h : (d.place p).toOption.map Place.location = some l) :
    d.place p = .ok ⟨l, d.find? l⟩ := by
  obtain ⟨⟨l', found⟩, hplace, rfl⟩ := Option.map_eq_some_iff.1 h
  have hfound : found = d.find? l' := found?_of_place (eq_ok_of_toOption hplace)
  rw [eq_ok_of_toOption hplace, hfound]

/-- Whether a file can be saved does not depend on what is in files. -/
lemma canSave_iff : d.CanSave p ↔ d.plan = [] ∧ (d.place p.parent).toOption.bind Place.found? = some .folder ∧
    (d.place p).toOption.map Place.location = some (d.destination p) ∧
    d.find? (d.destination p) ≠ some .folder ∧
    (d.place (d.temporary p)).toOption.map Place.location = some (d.destination (d.temporary p)) ∧
    d.find? (d.destination (d.temporary p)) = none ∧ d.destination (d.temporary p) ≠ d.destination p := by
  constructor
  · rintro ⟨hplan, ⟨m, hfolder⟩, htarget, hnotFolder, htemporary, hapart⟩
    exact ⟨hplan, by rw [hfolder]; rfl, by rw [htarget]; rfl, hnotFolder, by rw [htemporary]; rfl,
      (found?_of_place htemporary).symm, hapart⟩
  · rintro ⟨hplan, hfolder, htarget, hnotFolder, htemporary, hfree, hapart⟩
    obtain ⟨⟨m, found⟩, hplace, rfl⟩ := Option.bind_eq_some_iff.1 hfolder
    exact ⟨hplan, ⟨m, eq_ok_of_toOption hplace⟩, place_eq_of_location htarget, hnotFolder,
      hfree ▸ place_eq_of_location htemporary, hapart⟩

instance (d : Disk) (p : Path) : Decidable (d.CanSave p) := decidable_of_iff _ canSave_iff.symm

lemma planned_of_plan (h : d.plan = []) : d.planned = (none, d) := by
  rw [planned, h]

lemma isFolder_of_place (h : d.place p = .ok ⟨m, some .folder⟩) : d.isFolder p = .ok true := by
  simp only [isFolder, holds, entry, h]
  rfl

lemma makeFolder_of_folder (hplan : d.plan = []) (h : d.place p = .ok ⟨m, some .folder⟩) :
    d.makeFolder p = (.error (failure .fileExists p), d) := by
  rw [makeFolder, planned_of_plan hplan]
  simp only [h]

/-- A folder that is there is not made again. -/
lemma makeFolders_of_folder (hplan : d.plan = []) (h : d.place p = .ok ⟨m, some .folder⟩) :
    d.makeFolders p = (.ok (), d) := by
  have hunless : d.unlessFolder p (failure .fileExists p) = (.ok (), d) := by
    simp only [unlessFolder, failure, isFolder_of_place h]
  obtain ⟨anchor, parts⟩ := p
  rcases List.eq_nil_or_concat parts with rfl | ⟨above, part, rfl⟩
  · simp only [makeFolders, List.reverse_nil, makeFoldersUp, keepFolder, makeFolder_of_folder hplan h, hunless]
    rfl
  · rw [List.concat_eq_append] at h hunless ⊢
    have hreverse : (part :: above.reverse).reverse = above ++ [part] := by simp
    simp only [makeFolders, List.reverse_append, List.reverse_singleton, List.singleton_append, makeFoldersUp,
      hreverse, makeFolder_of_folder hplan h, hunless]
    rfl

lemma CanSave.writeAtomic (h : CanSave d p) (content : Bytes) :
    ∃ d', d.writeAtomic p content = (.ok (), d') ∧ d'.plan = [] := by
  obtain ⟨hplan, -, htarget, hnotFolder, htemporary, hapart⟩ := h
  generalize htemp : d.destination (d.temporary p) = t at *
  have hfree : d.find? t = none := (found?_of_place htemporary).symm
  have hne : t ≠ [] := by
    rintro rfl
    cases hfree
  -- the three operations one after another, at a temporary name that is free
  have hcreate : d.createNew (d.temporary p) = (.ok t, d.put t (.file [])) := by
    rw [createNew, planned_of_plan hplan]
    simp only [htemporary]
  have hplan₁ : (d.put t (.file [])).plan = [] := hplan
  have hfill : (d.put t (.file [])).fill t content =
      (.ok (), (d.put t (.file [])).put t (.file content)) := by
    rw [fill, planned_of_plan hplan₁]
  have hplan₂ : ((d.put t (.file [])).put t (.file content)).plan = [] := hplan
  have hfind : ∀ l, ((d.put t (.file [])).put t (.file content)).find? l =
      if l = t then some (.file content) else d.find? l := by
    intro l
    rw [find?_put _ _ hne, find?_put _ _ hne]
    split <;> rfl
  have hleaves : Leaves (fun _ => False) d ((d.put t (.file [])).put t (.file content)) := by
    refine ⟨rfl, fun l hl => ?_, fun _ _ hf => hf.elim⟩
    rw [hfind, if_neg (by rintro rfl; rw [hfree] at hl; cases hl), hl]
  have hplace := hleaves.place htarget
  simp only [hfind, if_neg (Ne.symm hapart)] at hplace
  have hmove : ((d.put t (.file [])).put t (.file content)).moveTo t (d.temporary p) p = (.ok (),
      ((((d.put t (.file [])).put t (.file content)).erase t).put (d.destination p) (.file content))) := by
    have hfile := hfind t
    rw [if_pos rfl] at hfile
    rw [moveTo, planned_of_plan hplan₂]
    simp only [hplace, hfile]
  have hwrite : d.writeAtomic p content = (.ok (),
      ((((d.put t (.file [])).put t (.file content)).erase t).put (d.destination p) (.file content))) := by
    simp only [Disk.writeAtomic, hcreate, hfill, hmove]
  exact ⟨_, hwrite, hplan⟩

/-- **A file that can be saved is saved**, and nothing else is changed. -/
theorem CanSave.save (h : CanSave d p) (content : Bytes) :
    ∃ d', d.save p content = (.ok (), d') ∧ d'.plan = [] ∧ Writes (d.destination p) content d d' := by
  obtain ⟨d', hwrite, hplan⟩ := h.writeAtomic content
  obtain ⟨m, hfolder⟩ := h.folder
  obtain ⟨target, hplace, -, hwrites⟩ := writeAtomic_eq hwrite
  obtain rfl : target = d.destination p := location_of_place hplace
  refine ⟨d', ?_, hplan, hwrites⟩
  rw [Disk.save, makeFolders_of_folder h.plan hfolder]
  exact hwrite

/-- After a save, files can be saved that could be saved before. -/
lemma CanSave.after (h : CanSave d r) (hwrites : Writes (d.destination p) content d d') (hplan : d'.plan = [])
    (hnotFolder : d.find? (d.destination p) ≠ some .folder)
    (hfree : d.destination (d.temporary r) ≠ d.destination p) : CanSave d' r := by
  have hleaves := hwrites.leaves hnotFolder
  have hdestination := destination_of_home hwrites.home
  have htemporary : d'.temporary r = d.temporary r := by
    unfold Disk.temporary
    rw [hwrites.home]
  obtain ⟨m, hfolder⟩ := h.folder
  refine ⟨hplan, ⟨m, ?_⟩, ?_, ?_, ?_, ?_⟩
  · have hplace := hleaves.place hfolder
    simp only [hleaves.folder m (found?_of_place hfolder).symm] at hplace
    exact hplace
  · rw [hdestination]
    exact hleaves.place h.target
  · rw [hdestination, hwrites.find?]
    split
    · simp
    · exact h.notFolder
  · have hplace := hleaves.place h.temporary
    rw [htemporary, hdestination, hplace]
    simp only [hwrites.find?, if_neg hfree, (found?_of_place h.temporary).symm]
  · rw [htemporary, hdestination, hdestination]
    exact h.apart

/-- **A disk on which some files can be saved accepts all saves of them**, when no temporary name is
the name of one of the files. -/
theorem acceptsSaves (hcan : ∀ p, paths p → CanSave d p)
    (hfree : ∀ p r, paths p → paths r → d.destination (d.temporary p) ≠ d.destination r) :
    AcceptsSaves paths d := by
  have hsaved : ∀ d', Saved paths d d' → d'.home = d.home ∧ ∀ p, paths p → CanSave d' p := by
    intro d' h
    induction h with
    | refl => exact ⟨rfl, hcan⟩
    | step _ hp hsave ih =>
      rename_i d₁ d₂ p content _
      obtain ⟨hhome, hcan₁⟩ := ih
      obtain ⟨d₃, hsave', hplan, hwrites⟩ := (hcan₁ p hp).save content
      obtain rfl : d₃ = d₂ := (Prod.mk.inj (hsave'.symm.trans hsave)).2
      refine ⟨hwrites.home.trans hhome, fun r hr =>
        (hcan₁ r hr).after hwrites hplan (hcan₁ p hp).notFolder ?_⟩
      have htemporary : d₁.temporary r = d.temporary r := by
        unfold Disk.temporary
        rw [hhome]
      rw [htemporary, destination_of_home hhome, destination_of_home hhome]
      exact hfree r p hr hp
  intro d' h p hp content
  obtain ⟨d'', hsave, -⟩ := ((hsaved d' h).2 p hp).save content
  exact ⟨d'', hsave⟩

end Scaffold.Disk
