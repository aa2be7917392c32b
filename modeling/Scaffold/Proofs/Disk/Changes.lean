import Mathlib.Data.List.Infix
import Scaffold.Proofs.Disk.Listing
import Scaffold.Proofs.Disk.Saving

/-!
# What operations may change

Operations fail, at any step and for reasons of their own, and a statement about what a run may touch
has to hold for those that fail as for those that succeed.  `Changes files folders d d'` says that
nothing differs but files that were written at some locations and folders that were made at others;
no folder and no file disappears, and nothing else appears.

Making folders makes some on the way of its path (`OnWay`).  A write through a temporary file that
fails leaves every entry as it was (`changes_writeAtomic`): the temporary file was not there before,
and it is removed.
-/

namespace Scaffold.Disk

variable {files folders files' folders' : Location → Prop} {d d' d'' : Disk} {p : Path}
  {l location : Location} {content : Bytes}

/-! ## Paths that lead to entries -/

lemma exists_place_of_holds {test : Entry → Bool} (h : d.holds p test = .ok true) :
    ∃ q e, d.place p = .ok q ∧ q.found? = some e ∧ test e = true := by
  cases hplace : d.place p with
  | error f => exact absurd h (holds_ne_of_place_error _ hplace)
  | ok q =>
    obtain ⟨l, found⟩ := q
    simp only [holds, entry, bind, Except.bind, hplace] at h
    cases found with
    | none => cases h
    | some e => exact ⟨_, e, rfl, rfl, Except.ok.inj h⟩

lemma exists_place_of_isPresent (h : d.isPresent p = .ok true) :
    ∃ q e, d.place p = .ok q ∧ q.found? = some e := by
  obtain ⟨q, e, hplace, hfound, -⟩ := exists_place_of_holds h
  exact ⟨q, e, hplace, hfound⟩

lemma exists_place_of_isFile (h : d.isFile p = .ok true) :
    ∃ c, d.place p = .ok ⟨d.destination p, some (.file c)⟩ := by
  obtain ⟨⟨l, found⟩, e, hplace, hfound, htest⟩ := exists_place_of_holds h
  obtain rfl : found = some e := hfound
  obtain rfl : l = d.destination p := location_of_place hplace
  cases e with
  | file c => exact ⟨c, hplace⟩
  | folder => cases htest

lemma isSome_of_isPresent (h : d.isPresent p = .ok true) : (d.find? (d.destination p)).isSome = true := by
  obtain ⟨q, e, hplace, hfound⟩ := exists_place_of_isPresent h
  rw [← location_of_place hplace, ← found?_of_place hplace, hfound]
  rfl

/-! ## Entries that change -/

/-- What may become of the entry at a location. -/
inductive Change (files folders : Location → Prop) (l : Location) :
    Option Entry → Option Entry → Prop where
  | same (e : Option Entry) : Change files folders l e e
  | written {before : Option Entry} {content : Bytes} : files l → before ≠ some .folder →
    Change files folders l before (some (.file content))
  | made : folders l → Change files folders l none (some .folder)

/-- Nothing differs but files at some locations and new folders at others. -/
structure Changes (files folders : Location → Prop) (d d' : Disk) : Prop where
  home : d'.home = d.home
  entry : ∀ l, Change files folders l (d.find? l) (d'.find? l)

namespace Changes

lemma of_find? (hhome : d'.home = d.home) (hfind : ∀ l, d'.find? l = d.find? l) :
    Changes files folders d d' :=
  ⟨hhome, fun l => (hfind l).symm ▸ .same _⟩

lemma refl (d : Disk) : Changes files folders d d := of_find? rfl fun _ => rfl

lemma trans (h : Changes files folders d d') (h' : Changes files folders d' d'') :
    Changes files folders d d'' := by
  refine ⟨h'.home.trans h.home, fun l => ?_⟩
  have hfirst := h.entry l
  have hsecond := h'.entry l
  generalize d.find? l = first at hfirst ⊢
  generalize d'.find? l = second at hfirst hsecond
  generalize d''.find? l = third at hsecond ⊢
  cases hsecond with
  | same => exact hfirst
  | written hfiles hfolder =>
    cases hfirst with
    | same => exact .written hfiles hfolder
    | written _ hbefore => exact .written hfiles hbefore
    | made => exact absurd rfl hfolder
  | made hfolders =>
    cases hfirst with
    | same => exact .made hfolders

lemma mono (h : Changes files folders d d') (hfiles : ∀ l, files l → files' l)
    (hfolders : ∀ l, folders l → folders' l) : Changes files' folders' d d' := by
  refine ⟨h.home, fun l => ?_⟩
  have hentry := h.entry l
  generalize d.find? l = before at hentry ⊢
  generalize d'.find? l = after at hentry ⊢
  cases hentry with
  | same => exact .same _
  | written hl hfolder => exact .written (hfiles l hl) hfolder
  | made hl => exact .made (hfolders l hl)

/-- Folders stay, and so do the files that are not written. -/
lemma leaves (h : Changes files folders d d') : Leaves (fun l => ¬ files l) d d' := by
  refine ⟨h.home, fun l hl => ?_, fun l c hkept hl => ?_⟩
  · have hentry := h.entry l
    rw [hl] at hentry
    generalize d'.find? l = after at hentry
    cases hentry with
    | same => rfl
    | written _ hfolder => exact absurd rfl hfolder
  · have hentry := h.entry l
    rw [hl] at hentry
    generalize d'.find? l = after at hentry
    cases hentry with
    | same => rfl
    | written hfiles _ => exact absurd hfiles hkept

/-- An entry stays an entry. -/
lemma isSome (h : Changes files folders d d') (hl : (d.find? l).isSome) : (d'.find? l).isSome := by
  have hentry := h.entry l
  generalize d.find? l = before at hentry hl
  generalize d'.find? l = after at hentry
  cases hentry with
  | same => exact hl
  | written => rfl
  | made => rfl

/-- A file was there before or is one that was written. -/
lemma file_before (h : Changes files folders d d') (hl : d'.find? l = some (.file content)) :
    files l ∨ d.find? l = some (.file content) := by
  have hentry := h.entry l
  rw [hl] at hentry
  generalize d.find? l = before at hentry
  cases hentry with
  | same => exact .inr rfl
  | written hfiles _ => exact .inl hfiles

/-- A path that leads to an entry leads to one afterwards. -/
lemma isPresent (h : Changes files folders d d') (hp : d.isPresent p = .ok true) :
    d'.isPresent p = .ok true := by
  obtain ⟨q, e, hplace, hfound⟩ := exists_place_of_isPresent hp
  have hplace' := h.leaves.place hplace
  have hsome : (d'.find? q.location).isSome := h.isSome (by rw [← found?_of_place hplace, hfound]; rfl)
  obtain ⟨e', he'⟩ := Option.isSome_iff_exists.1 hsome
  rw [he'] at hplace'
  exact isPresent_of_place hplace'

/-- Where nothing is written and no folder is made, everything is as it was. -/
lemma find?_eq (h : Changes files folders d d') (hfiles : ¬ files l) (hfolders : ¬ folders l) :
    d'.find? l = d.find? l := by
  have hentry := h.entry l
  generalize d.find? l = before at hentry ⊢
  generalize d'.find? l = after at hentry ⊢
  cases hentry with
  | same => rfl
  | written hl => exact absurd hl hfiles
  | made hl => exact absurd hl hfolders

end Changes

/-! ## Making folders -/

/-- The locations on the way of a path, its end included. -/
def OnWay (d : Disk) (p : Path) (l : Location) : Prop :=
  ∃ parts, parts <+: p.parts ∧ l = d.destination ⟨p.anchor, parts⟩

lemma onWay_destination (d : Disk) (p : Path) : OnWay d p (d.destination p) :=
  ⟨p.parts, List.prefix_rfl, rfl⟩

lemma onWay_of_parent (h : OnWay d p.parent l) : OnWay d p l := by
  obtain ⟨parts, hparts, rfl⟩ := h
  exact ⟨parts, hparts.trans (List.dropLast_prefix _), rfl⟩

instance (d : Disk) (p : Path) (l : Location) : Decidable (OnWay d p l) :=
  decidable_of_iff (l ∈ p.parts.inits.map fun parts => d.destination ⟨p.anchor, parts⟩) <| by
    simp only [List.mem_map, List.mem_inits, OnWay, eq_comm]

lemma onWay_of_home (hhome : d'.home = d.home) : OnWay d' p = OnWay d p := by
  funext l
  simp only [OnWay, destination_of_home hhome]

lemma changes_makeFolder (p : Path) (d : Disk) :
    Changes files (OnWay d p) d (d.makeFolder p).2 := by
  obtain ⟨d₁, hsame, ⟨f, h⟩ | ⟨location, hplace, h⟩⟩ := makeFolder_cases p d
  · rw [h]
    exact .of_find? hsame.home hsame.find?
  obtain ⟨hfree, hne⟩ := free_of_place hplace
  have hdestination : location = d.destination p := location_of_place hplace
  rw [h]
  refine ⟨hsame.home, fun l => ?_⟩
  rw [find?_put d₁ _ hne, hsame.find?]
  split
  · rename_i heq
    rw [heq, hfree]
    exact .made (hdestination ▸ onWay_destination d p)
  · exact .same _

/-- Making folders makes some on the way and changes nothing else, whether it succeeds or not. -/
theorem changes_makeFolders (p : Path) (d : Disk) :
    Changes files (OnWay d p) d (d.makeFolders p).2 := by
  refine makeFolders_induction (R := fun d d' => Changes files (OnWay d p) d d') (fun h h' => ?_) p
    (fun parts hparts d => ?_) d
  · -- the way to a path depends on the working folder, which stays
    rw [onWay_of_home h.home] at h'
    exact h.trans h'
  · refine (changes_makeFolder _ d).mono (fun _ hl => hl) ?_
    rintro l ⟨above, habove, rfl⟩
    exact ⟨above, habove.trans hparts, rfl⟩

lemma place_of_isFolder (h : d.isFolder p = .ok true) : ∃ m, d.place p = .ok ⟨m, some .folder⟩ := by
  obtain ⟨⟨m, found⟩, e, hplace, hfound, htest⟩ := exists_place_of_holds h
  obtain rfl : found = some e := hfound
  cases e with
  | file c => cases htest
  | folder => exact ⟨m, hplace⟩

lemma place_of_makeFolder (h : d.makeFolder p = (.ok (), d')) : ∃ m, d'.place p = .ok ⟨m, some .folder⟩ := by
  obtain ⟨d₁, hsame, ⟨f, hfailed⟩ | ⟨location, hplace, hmade⟩⟩ := makeFolder_cases p d
  · cases h.symm.trans hfailed
  · obtain rfl : d₁.put location .folder = d' := (Prod.mk.inj (hmade.symm.trans h)).2
    rw [← hsame.place] at hplace
    obtain ⟨hfree, hne⟩ := free_of_place hplace
    have hleaves : Leaves (fun _ => False) d₁ (d₁.put location .folder) := .put_new .folder hfree
    have hafter := hleaves.place hplace
    rw [find?_put_self d₁ _ hne] at hafter
    exact ⟨location, hafter⟩

lemma place_of_unlessFolder {f : Failure} (h : d.unlessFolder p f = (.ok (), d')) :
    ∃ m, d'.place p = .ok ⟨m, some .folder⟩ := by
  unfold unlessFolder at h
  split at h
  · split at h
    · rename_i hfolder
      cases h
      exact place_of_isFolder hfolder
    · cases h
    · cases h
  · cases h

lemma place_of_keepFolder (h : d.keepFolder p = (.ok (), d')) : ∃ m, d'.place p = .ok ⟨m, some .folder⟩ := by
  unfold keepFolder at h
  split at h
  · cases h
    exact place_of_makeFolder ‹_›
  · split at h
    · cases h
    · exact place_of_unlessFolder h

/-- A folder that was made, or kept, is there. -/
theorem place_of_makeFolders (h : d.makeFolders p = (.ok (), d')) :
    ∃ m, d'.place p = .ok ⟨m, some .folder⟩ := by
  obtain ⟨anchor, parts⟩ := p
  obtain ⟨parts, rfl⟩ : ∃ up, parts = up.reverse := ⟨parts.reverse, (List.reverse_reverse _).symm⟩
  rw [makeFolders, List.reverse_reverse] at h
  cases parts with
  | nil => exact place_of_keepFolder h
  | cons part above =>
    simp only [makeFoldersUp] at h
    split at h
    · cases h
      exact place_of_makeFolder ‹_›
    · split at h
      · split at h
        · exact place_of_keepFolder h
        · rename_i hfailed
          exact (hfailed d' h).elim
      · exact place_of_unlessFolder h

/-! ## Writing a file -/

lemma place_of_createNew (h : d.createNew p = (.ok l, d')) : d.place p = .ok ⟨l, none⟩ := by
  obtain ⟨d₁, -, ⟨f, hfailed⟩ | ⟨location, hplace, hcreated⟩⟩ := createNew_cases p d
  · cases h.symm.trans hfailed
  · obtain rfl : l = location := Except.ok.inj (Prod.mk.inj (h.symm.trans hcreated)).1
    exact hplace

/-- **A write through a temporary file** writes the file of its path and changes nothing else; where it
fails it changes nothing. -/
theorem changes_writeAtomic (p : Path) (content : Bytes) (d : Disk) :
    Changes (· = d.destination p) folders d (d.writeAtomic p content).2 := by
  cases hwrite : d.writeAtomic p content with
  | mk r d' =>
    cases r with
    | ok u =>
      obtain ⟨target, hplace, hfolder, hwrites⟩ := writeAtomic_eq hwrite
      have htarget : target = d.destination p := location_of_place hplace
      refine ⟨hwrites.home, fun l => ?_⟩
      rw [hwrites.find?]
      split
      · rename_i heq
        exact .written (heq.trans htarget) (heq ▸ hfolder)
      · exact .same _
    | error f =>
      have hkeeps := writeAtomic_error hwrite
      exact .of_find? hkeeps.home hkeeps.find?

end Scaffold.Disk
