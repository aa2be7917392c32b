import Scaffold.Proofs.Disk.Descent

/-!
# When a file can be saved

Whether a file can be saved at a path that goes down from a folder is decided by the lengths of its
names, by the files in its way and by what is at its end and at its temporary name (`save_iff`).  Folders
that are missing on the way do not matter, since a save makes them.

So a change elsewhere neither keeps a file from being saved nor makes it possible (`savable_congr`), and
what is in the file stays (`content?_congr`): this holds for files that were written off the way, and for
folders that were made on the way as for all others.
-/

namespace Scaffold.Disk

variable {d d' : Disk} {p : Path} {a : Anchor} {l m : Location} {part : Text} {content : Bytes}
  {f : Failure}

/-! ## The temporary name -/

section Tree

variable (htree : d.IsTree)

include htree

lemma IsTree.dots_not_mem {e : Entry} (hl : d.find? l = some e) : ['.', '.'] ∉ l := by
  induction l using List.reverseRecOn generalizing e with
  | nil => exact List.not_mem_nil
  | append_singleton l part ih =>
    rw [List.mem_append, List.mem_singleton, not_or]
    exact ⟨ih (htree.parent l part e hl), Ne.symm (htree.name l part e hl).2⟩

/-- The name of the temporary file beside a file. -/
def temporaryName (p : Path) : Text := '.' :: p.name ++ '.' :: uniquePart ++ ".tmp"

omit htree in
lemma length_temporaryName (p : Path) : p.name.length + 2 < (temporaryName p).length := by
  have hsuffix : (".tmp" : Text).length = 4 := rfl
  simp only [temporaryName, List.length_append, List.length_cons, hsuffix]
  omega

omit htree in
lemma temporaryName_ne_dots (p : Path) : temporaryName p ≠ ['.', '.'] := fun h => by
  have hlength := length_temporaryName p
  rw [h] at hlength
  exact absurd hlength (by simp)

/-- The temporary file is in the folder of the file. -/
lemma temporary_eq (p : Path) : ∃ a, a ≠ .here ∧
    d.temporary p = ⟨a, d.destination p.parent ++ [temporaryName p]⟩ := by
  have habsolute : ∃ a, a ≠ .here ∧ p.parent.absolute d.home = ⟨a, d.destination p.parent⟩ := by
    obtain ⟨anchor, parts⟩ := p
    cases anchor with
    | here =>
      refine ⟨.root, by decide, ?_⟩
      have hhome : d.home.foldl Path.followLexically [] = d.home := by
        rw [foldl_followLexically (htree.dots_not_mem htree.home), List.nil_append]
      simp only [Path.absolute, Path.parent, destination, start, List.foldl_append, hhome]
    | root => exact ⟨.root, by decide, rfl⟩
    | doubleRoot => exact ⟨.doubleRoot, by decide, rfl⟩
  obtain ⟨a, ha, habsolute⟩ := habsolute
  refine ⟨a, ha, ?_⟩
  simp only [temporary, habsolute]
  rfl

/-- A folder is found under its own name. -/
lemma IsTree.place_folder (hl : d.find? l = some .folder) (ha : a ≠ .here) (hfits : Fits ⟨a, l⟩) :
    d.place ⟨a, l⟩ = .ok ⟨l, some .folder⟩ := by
  induction l using List.reverseRecOn with
  | nil =>
    have hstart : d.start ⟨a, []⟩ = [] := by
      cases a with
      | here => exact absurd rfl ha
      | root => rfl
      | doubleRoot => rfl
    refine place_eq_ok_iff.2 ⟨hfits.terminator, hfits.length, ?_⟩
    rw [hstart]
    rfl
  | append_singleton l part ih =>
    have hplace := place_child (ih (htree.parent l part _ hl) hfits.of_append) (htree.name l part _ hl).2 hfits
    rwa [hl] at hplace

lemma place_temporary (hfolder : d.place p.parent = .ok ⟨m, some .folder⟩) (hfits : Fits (d.temporary p)) :
    d.place (d.temporary p) = .ok ⟨m ++ [temporaryName p], d.find? (m ++ [temporaryName p])⟩ := by
  obtain ⟨a, ha, htemporary⟩ := temporary_eq htree p
  obtain rfl : m = d.destination p.parent := location_of_place hfolder
  rw [htemporary] at hfits ⊢
  have hfound : d.find? (d.destination p.parent) = some .folder := (found?_of_place hfolder).symm
  exact place_child (htree.place_folder hfound ha hfits.of_append) (temporaryName_ne_dots p) hfits

end Tree

/-! ## When a file is saved -/

/-- A file that can be saved once the folders for it are made. -/
structure Savable (d : Disk) (p : Path) : Prop where
  fits : Fits p
  clear : IsClear d p.parent
  notFolder : d.find? (d.destination p) ≠ some .folder
  temporary : Fits (d.temporary p)
  free : d.find? (d.destination (d.temporary p)) = none

lemma temporary_of_home (h : d'.home = d.home) (p : Path) : d'.temporary p = d.temporary p := by
  unfold Disk.temporary
  rw [h]

lemma place_temporary_of_writeAtomic (h : d.writeAtomic p content = (.ok (), d')) :
    ∃ l, d.place (d.temporary p) = .ok ⟨l, none⟩ := by
  have hcases := writeAtomic_cases p content d
  rw [h] at hcases
  obtain ⟨f, hf, -⟩ | ⟨-, htemporary, -⟩ := hcases
  · cases hf
  · exact htemporary

/-- A file that was saved could be saved. -/
lemma savable_of_save (htree : d.IsTree) (hnames : HasNames p) (h : d.save p content = (.ok (), d')) :
    Savable d p := by
  unfold Disk.save at h
  split at h
  · rename_i d₁ hmake
    obtain ⟨-, hclear⟩ := of_makeFolders htree (hasNames_parent hnames) hmake
    have hchanges : Changes (fun _ => False) (OnWay d p.parent) d (d.makeFolders p.parent).2 :=
      changes_makeFolders _ d
    rw [hmake] at hchanges
    obtain ⟨target, hplace, hnotFolder, -⟩ := writeAtomic_eq h
    obtain ⟨l, htemporary⟩ := place_temporary_of_writeAtomic h
    have hlocation : target = d.destination p :=
      (location_of_place hplace).trans (destination_of_home hchanges.home p)
    refine ⟨fits_of_place hplace, hclear, fun hfolder => ?_, ?_, ?_⟩
    · exact hnotFolder (hlocation ▸ hchanges.leaves.folder _ hfolder)
    · exact temporary_of_home hchanges.home p ▸ fits_of_place htemporary
    · have hfree : none = d₁.find? l := found?_of_place htemporary
      have hl : l = d.destination (d.temporary p) := by
        rw [← temporary_of_home hchanges.home p, ← destination_of_home hchanges.home]
        exact location_of_place htemporary
      rw [hl] at hfree
      refine Option.not_isSome_iff_eq_none.1 fun hsome => ?_
      have hsome₁ := hchanges.isSome hsome
      rw [← hfree] at hsome₁
      cases hsome₁
  · cases h

/-- Once the folders for it are made, a file that can be saved can be written. -/
lemma Savable.canSave {above below : List Text} {d₁ : Disk} (htree : d.IsTree)
    (habove : d.place ⟨a, above⟩ = .ok ⟨m, some .folder⟩) (hdots : ['.', '.'] ∉ below) (hpart : part ≠ ['.', '.'])
    (hnames : HasNames ⟨a, above ++ below⟩) (h : Savable d ⟨a, above ++ below ++ [part]⟩)
    (hmake : d.makeFolders ⟨a, above ++ below⟩ = (.ok (), d₁)) (hplan : d₁.plan = []) :
    d₁.CanSave ⟨a, above ++ below ++ [part]⟩ := by
  have hparent : (⟨a, above ++ below ++ [part]⟩ : Path).parent = ⟨a, above ++ below⟩ := by
    rw [Path.parent, List.dropLast_concat]
  have hextends := extends_makeFolders d hnames
  have hbeside := find?_makeFolders htree habove hdots
  rw [hmake] at hextends hbeside
  have hhome : d₁.home = d.home := hextends.leaves.home
  obtain ⟨m₁, hfolder⟩ := place_of_makeFolders hmake
  have hm₁ : m₁ = d.destination ⟨a, above ++ below⟩ :=
    (location_of_place hfolder).trans (destination_of_home hhome _)
  have htarget := place_child hfolder hpart h.fits
  have htemporary := place_temporary (hextends.tree htree) (hparent ▸ hfolder)
    (temporary_of_home hhome _ ▸ h.temporary)
  have hend := location_of_place htarget
  have htemporaryEnd := location_of_place htemporary
  simp only at hend htemporaryEnd
  refine ⟨hplan, ⟨m₁, hparent ▸ hfolder⟩, hend ▸ htarget, ?_, ?_, ?_⟩
  · rw [← hend, hm₁, hbeside, ← hm₁, hend, destination_of_home hhome]
    exact h.notFolder
  · rw [htemporary, ← htemporaryEnd, hm₁, hbeside, ← hm₁, htemporaryEnd, destination_of_home hhome,
      temporary_of_home hhome, h.free]
  · rw [← htemporaryEnd, ← hend]
    intro hsame
    -- the name of the temporary file is longer than that of the file
    have hname := List.singleton_inj.1 (List.append_cancel_left hsame)
    have hlength := length_temporaryName ⟨a, above ++ below ++ [part]⟩
    rw [hname] at hlength
    simp [Path.name] at hlength

/-- A file that can be saved is saved. -/
lemma Savable.exists_save (htree : d.IsTree) (hnames : HasNames p) (hplan : d.plan = [])
    (hdescends : d.Descends p) (h : Savable d p) (content : Bytes) :
    ∃ d', d.save p content = (.ok (), d') := by
  rcases hdescends.cases with hfolder | ⟨above, below, part, m, hp, hparent, hdots, hpart, habove⟩
  · exact absurd hfolder h.notFolder
  · have hfits : Fits ⟨p.anchor, above ++ below ++ [part]⟩ := hp ▸ h.fits
    obtain ⟨d₁, hmake, hplan₁⟩ := exists_makeFolders hplan habove hdots hfits.of_append (hparent ▸ h.clear)
    have hcan := Savable.canSave htree habove hdots hpart (hparent ▸ hasNames_parent hnames) (hp ▸ h) hmake hplan₁
    rw [← hp] at hcan
    obtain ⟨d', hwrite, -⟩ := hcan.writeAtomic content
    refine ⟨d', ?_⟩
    rw [Disk.save, hparent, hmake]
    exact hwrite

/-- **Whether a file is saved** is decided by its names, the files in its way and what is at its end. -/
theorem save_iff (htree : d.IsTree) (hnames : HasNames p) (hplan : d.plan = []) (hdescends : d.Descends p)
    (content : Bytes) : (∃ d', d.save p content = (.ok (), d')) ↔ Savable d p :=
  ⟨fun ⟨_, h⟩ => savable_of_save htree hnames h,
    fun h => h.exists_save htree hnames hplan hdescends content⟩

/-- A save that fails leaves what is at the end of its path. -/
lemma find?_of_save_error (htree : d.IsTree) (hdescends : d.Descends p)
    (h : d.save p content = (.error f, d')) : d'.find? (d.destination p) = d.find? (d.destination p) := by
  have hmade : (d.makeFolders p.parent).2.find? (d.destination p) = d.find? (d.destination p) := by
    rcases hdescends.cases with hfolder | ⟨above, below, part, m, hp, hparent, hdots, hpart, habove⟩
    · rw [hfolder]
      exact (leaves_makeFolders (fun _ => False) _ d).folder _ hfolder
    · have hend : d.destination p = d.destination ⟨p.anchor, above ++ below⟩ ++ [part] := by
        rw [← destination_child hpart, ← hp]
      rw [hparent, hend]
      exact find?_makeFolders htree habove hdots part
  unfold Disk.save at h
  split at h
  · rename_i d₁ hmake
    rw [hmake] at hmade
    exact ((writeAtomic_error h).find? _).trans hmade
  · rename_i f' d₁ hmake
    cases h
    rw [hmake] at hmade
    exact hmade

/-! ## Changes elsewhere -/

/-- A change that keeps off the file of a path: no file is written on the way, and no folder is made at
the end. -/
structure KeepsOff (files folders : Location → Prop) (d : Disk) (p : Path) : Prop where
  way : ∀ l, files l → ¬ OnWay d p l
  target : ¬ folders (d.destination p)
  temporary : ¬ files (d.destination (d.temporary p)) ∧ ¬ folders (d.destination (d.temporary p))

section Elsewhere

variable {files folders : Location → Prop} (hchanges : Changes files folders d d')
  (hoff : KeepsOff files folders d p)

include hchanges hoff

lemma find?_destination : d'.find? (d.destination p) = d.find? (d.destination p) :=
  hchanges.find?_eq (fun hfile => hoff.way _ hfile (onWay_destination d p)) hoff.target

/-- **Whether a file can be saved** does not depend on changes elsewhere. -/
theorem savable_congr : Savable d' p ↔ Savable d p := by
  have hdestination := destination_of_home hchanges.home
  have htemporary := temporary_of_home hchanges.home p
  have hclear : IsClear d' p.parent ↔ IsClear d p.parent := by
    rw [IsClear, IsClear, onWay_of_home hchanges.home]
    refine forall₂_congr fun l hl => forall_congr' fun c => not_congr ⟨fun hc => ?_, fun hc => ?_⟩
    · exact (hchanges.file_before hc).resolve_left fun hfile => hoff.way l hfile (onWay_of_parent hl)
    · exact hchanges.leaves.file l c (fun hfile => hoff.way l hfile (onWay_of_parent hl)) hc
  have hend := find?_destination hchanges hoff
  have hfree := hchanges.find?_eq hoff.temporary.1 hoff.temporary.2
  constructor
  · rintro ⟨hfits, hclear', hnotFolder, hlength, hfree'⟩
    rw [hdestination, hend] at hnotFolder
    rw [htemporary] at hlength hfree'
    rw [hdestination, hfree] at hfree'
    exact ⟨hfits, hclear.1 hclear', hnotFolder, hlength, hfree'⟩
  · rintro ⟨hfits, hclear', hnotFolder, hlength, hfree'⟩
    refine ⟨hfits, hclear.2 hclear', ?_, htemporary ▸ hlength, ?_⟩
    · rw [hdestination, hend]
      exact hnotFolder
    · rw [htemporary, hdestination, hfree]
      exact hfree'

/-- **The content of a file** does not depend on changes elsewhere. -/
theorem content?_congr (htree : d.IsTree) (hdescends : d.Descends p) : d'.content? p = d.content? p := by
  have hend := find?_destination hchanges hoff
  refine Option.ext fun c => ⟨fun hc => ?_, fun hc => ?_⟩
  · obtain ⟨above, below, hparts, hdots, m, habove⟩ := hdescends
    obtain ⟨a, parts⟩ := p
    obtain rfl : parts = above ++ below := hparts
    have hfile := find?_of_content? hc
    rw [destination_of_home hchanges.home, hend] at hfile
    have hfits := fits_of_place (content?_eq_some_iff.1 hc)
    exact content?_eq_some_iff.2 (place_of_entry htree habove hdots hfits hfile)
  · exact hchanges.leaves.content? (fun hfile => hoff.way _ hfile (onWay_destination d p)) hc

end Elsewhere

/-! ## Disks that stay in order -/

/-- A disk that is a tree and was not told to fail. -/
structure IsSound (d : Disk) : Prop where
  tree : d.IsTree
  plan : d.plan = []

lemma plan_makeFolder (hplan : d.plan = []) : (d.makeFolder p).2.plan = [] := by
  obtain ⟨d₁, hsame, ⟨f, h⟩ | ⟨l, -, h⟩⟩ := makeFolder_cases p d
  · rw [h]
    exact hsame.plan hplan
  · rw [h]
    exact hsame.plan hplan

lemma plan_makeFolders (hplan : d.plan = []) : (d.makeFolders p).2.plan = [] :=
  makeFolders_induction (R := fun d d' => d.plan = [] → d'.plan = []) (fun h h' hplan => h' (h hplan)) p
    (fun _ _ _ hplan => plan_makeFolder hplan) d hplan

lemma IsSound.makeFolders (h : d.IsSound) (hnames : HasNames p) : (d.makeFolders p).2.IsSound :=
  ⟨(extends_makeFolders d hnames).tree h.tree, plan_makeFolders h.plan⟩

/-- Where nothing changed a disk stays in order. -/
lemma IsSound.keeps (h : d.IsSound) (hkeeps : Keeps d d') : d'.IsSound := by
  refine ⟨⟨hkeeps.distinct h.tree.distinct, ?_, fun l part e he => ?_, fun l part e he => ?_⟩, hkeeps.plan h.plan⟩
  · rw [hkeeps.home, hkeeps.find?]
    exact h.tree.home
  · rw [hkeeps.find?] at he ⊢
    exact h.tree.parent l part e he
  · rw [hkeeps.find?] at he
    exact h.tree.name l part e he

lemma IsSound.writeAtomic (h : d.IsSound) (hnames : HasNames p) (content : Bytes) :
    (d.writeAtomic p content).2.IsSound := by
  obtain ⟨f, -, hkeeps⟩ | ⟨-, -, target, hplace, hfolder, hwrites⟩ := writeAtomic_cases p content d
  · exact h.keeps hkeeps
  · exact ⟨h.tree.writes hnames hplace hfolder hwrites, hwrites.plan h.plan⟩

end Scaffold.Disk
