import Scaffold.Proofs.Disk.Tree
import Scaffold.Proofs.World.Files

/-!
# Saving files again and again

Saving a file makes the folder for it and writes it (`Disk.save`).  `Saved paths d d'` says that `d'`
comes from `d` by any number of saves to some paths.  Then the disk is still a tree, folders are where
they were, and so are all files that no such path leads to, and no others (`Saved.find?_file`).

Where a path leads depends on the names in it alone (`destination`), as long as it leads anywhere; so
"different files" can be said of paths before they exist.
-/

namespace Scaffold.Disk

variable {d d' d'' : Disk} {p r : Path} {l target : Location} {content c : Bytes} {q : Place}
  {paths : Path → Prop}

/-! ## Where paths lead -/

/-- The location that the names of a path spell. -/
def destination (d : Disk) (p : Path) : Location := p.parts.foldl Path.followLexically (d.start p)

lemma location_of_follow {parts : List Text} (h : d.follow l parts = .ok q) :
    q.location = parts.foldl Path.followLexically l := by
  fun_induction Disk.follow d l parts with
  | case1 l =>
    cases h
    rfl
  | case2 l rest ih =>
    rw [ih h, List.foldl_cons, Path.followLexically, if_pos rfl]
  | case3 => cases h
  | case4 l part hdots hlimit next =>
    cases h
    rw [List.foldl_cons, Path.followLexically, if_neg hdots]
    rfl
  | case5 l part hdots hlimit next more rest hfolder ih =>
    have hstep : Path.followLexically l part = next := if_neg hdots
    rw [List.foldl_cons, hstep]
    exact ih h
  | case6 => cases h
  | case7 => cases h

lemma location_of_place (h : d.place p = .ok q) : q.location = d.destination p :=
  location_of_follow (place_eq_ok_iff.1 h).2.2

lemma destination_of_home (h : d'.home = d.home) (p : Path) : d'.destination p = d.destination p := by
  unfold destination start
  rw [h]

/-- The content of the file that a path leads to. -/
def content? (d : Disk) (p : Path) : Option Bytes := (d.read p).toOption

lemma content?_eq_some_iff : d.content? p = some c ↔
    d.place p = .ok ⟨d.destination p, some (.file c)⟩ := by
  constructor
  · intro h
    obtain ⟨location, hplace⟩ := place_of_read (eq_ok_of_toOption h)
    rwa [← location_of_place hplace]
  · intro h
    rw [content?, read_of_place h]
    rfl

lemma isPresent_of_place {e : Entry} (h : d.place p = .ok ⟨l, some e⟩) : d.isPresent p = .ok true := by
  simp only [isPresent, holds, entry, h]
  rfl

/-- Where a path leads to nothing there is no content. -/
lemma content?_of_missing (h : d.isPresent p = .ok false) : d.content? p = none := by
  refine Option.eq_none_iff_forall_ne_some.2 fun c hc => ?_
  rw [isPresent_of_place (content?_eq_some_iff.1 hc)] at h
  cases h

lemma find?_of_content? (h : d.content? p = some c) : d.find? (d.destination p) = some (.file c) :=
  (found?_of_place (content?_eq_some_iff.1 h)).symm

/-- A file that is not touched is read again. -/
lemma Leaves.content? {kept : Location → Prop} (h : Leaves kept d d') (hkept : kept (d.destination p))
    (hc : d.content? p = some c) : d'.content? p = some c := by
  have hplace := h.place (content?_eq_some_iff.1 hc)
  simp only at hplace
  rw [h.file _ c hkept (find?_of_content? hc)] at hplace
  rw [content?_eq_some_iff, destination_of_home h.home]
  exact hplace

/-! ## Saving a file -/

/-- Makes the folder for a file and writes the file. -/
def save (p : Path) (content : Bytes) (d : Disk) : Except Failure Unit × Disk :=
  match d.makeFolders p.parent with
  | (.ok (), d) => d.writeAtomic p content
  | (.error f, d) => (.error f, d)

/-- A path of names. -/
def HasNames (p : Path) : Prop := ∀ part ∈ p.parts, '/' ∉ part

lemma hasNames_parent (h : HasNames p) : HasNames p.parent := fun part hpart =>
  h part ((List.dropLast_sublist _).subset hpart)

/-- What saving a file comes to. -/
structure Saves (p : Path) (content : Bytes) (d d' : Disk) : Prop where
  leaves : Leaves (· ≠ d.destination p) d d'
  content : d'.content? p = some content
  file : ∀ l c, d'.find? l = some (.file c) → l ≠ d.destination p → d.find? l = some (.file c)
  tree : d.IsTree → d'.IsTree
  notFolder : d.find? (d.destination p) ≠ some .folder

/-- **Saving a file** that succeeds. -/
theorem save_ok (hp : HasNames p) (h : d.save p content = (.ok (), d')) : Saves p content d d' := by
  have hextends := extends_makeFolders d (hasNames_parent hp)
  unfold save at h
  split at h
  · rename_i d₀ hmake
    rw [hmake] at hextends
    have hextends : Extends d d₀ := hextends
    obtain ⟨target, hplace, htarget, hwrites⟩ := writeAtomic_eq h
    have hhome : d₀.home = d.home := hextends.leaves.home
    obtain rfl : target = d.destination p := by
      rw [← destination_of_home hhome]
      exact location_of_place hplace
    obtain ⟨hback, hleaves⟩ := place_of_writes hplace htarget hwrites
    refine ⟨(hextends.leaves.mono fun _ _ => trivial).trans hleaves, ?_,
      fun l c hl hne => ?_, fun ht => (hextends.tree ht).writes hp hplace htarget hwrites,
      fun hfolder => htarget (hextends.leaves.folder _ hfolder)⟩
    · rw [content?_eq_some_iff, destination_of_home (hwrites.home.trans hhome)]
      exact hback
    · rw [hwrites.find?, if_neg hne] at hl
      exact hextends.file l c hl
  · cases h

/-- A disk that comes from another one by saving files at some paths. -/
inductive Saved (paths : Path → Prop) : Disk → Disk → Prop where
  | refl (d : Disk) : Saved paths d d
  | step {d d' d'' : Disk} {p : Path} {content : Bytes} : Saved paths d d' → paths p →
    d'.save p content = (.ok (), d'') → Saved paths d d''

/-- A disk on which files can be saved at some paths, again and again, whatever is in them. -/
def AcceptsSaves (paths : Path → Prop) (d : Disk) : Prop :=
  ∀ d', Saved paths d d' → ∀ p, paths p → ∀ content, ∃ d'', d'.save p content = (.ok (), d'')

lemma Saved.trans (h : Saved paths d d') (h' : Saved paths d' d'') : Saved paths d d'' := by
  induction h' with
  | refl => exact h
  | step _ hp hsave ih => exact ih.step hp hsave

lemma Saved.mono {more : Path → Prop} (h : Saved paths d d') (hmore : ∀ p, paths p → more p) :
    Saved more d d' := by
  induction h with
  | refl => exact .refl _
  | step _ hp hsave ih => exact ih.step (hmore _ hp) hsave

lemma AcceptsSaves.saved (h : AcceptsSaves paths d) (hsaved : Saved paths d d') :
    AcceptsSaves paths d' := fun d'' h' => h d'' (hsaved.trans h')

lemma AcceptsSaves.mono {fewer : Path → Prop} (h : AcceptsSaves paths d)
    (hfewer : ∀ p, fewer p → paths p) : AcceptsSaves fewer d :=
  fun d' hsaved p hp => h d' (hsaved.mono hfewer) p (hfewer p hp)

section Names

variable (hnames : ∀ p, paths p → HasNames p)

include hnames

lemma Saved.leaves (h : Saved paths d d') :
    Leaves (fun l => ∀ p, paths p → l ≠ d.destination p) d d' := by
  induction h with
  | refl => exact .refl _ _
  | step _ hp hsave ih =>
    refine ih.trans ((save_ok (hnames _ hp) hsave).leaves.mono fun l hl => ?_)
    rw [destination_of_home ih.home]
    exact hl _ hp

lemma Saved.find?_file (h : Saved paths d d') (hl : ∀ p, paths p → l ≠ d.destination p) :
    d'.find? l = some (.file c) ↔ d.find? l = some (.file c) := by
  refine ⟨fun hc => ?_, (h.leaves hnames).file l c hl⟩
  induction h with
  | refl => exact hc
  | step hsaved hp hsave ih =>
    have hsaves := save_ok (hnames _ hp) hsave
    refine ih (hsaves.file l c hc ?_)
    rw [destination_of_home (hsaved.leaves hnames).home]
    exact hl _ hp

lemma Saved.tree (h : Saved paths d d') (ht : d.IsTree) : d'.IsTree := by
  induction h with
  | refl => exact ht
  | step _ hp hsave ih => exact (save_ok (hnames _ hp) hsave).tree ih

end Names

end Scaffold.Disk
