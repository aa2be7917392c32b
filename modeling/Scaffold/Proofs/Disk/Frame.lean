import Mathlib.Data.List.Basic
import Mathlib.Tactic.Common
import Scaffold.Disk.Basic
import Scaffold.Proofs.Table

/-!
# What a change to the disk leaves in place

A path is followed through folders only, so it leads to the same location as long as no folder on
the way disappears.  No operation of this library removes a folder or puts a file in the place of
one, and that is the frame in which everything about files is stated: `Disk.Leaves kept d d'` says
that the change from `d` to `d'` keeps the working folder, every folder, and the files at the kept
locations.  It is closed under composition, and a path that led somewhere before leads there afterwards
(`Leaves.place`).
-/

namespace Scaffold

namespace Disk

lemma find?_erase_of_ne (d : Disk) {erased location : Location} (h : erased ≠ location) :
    (d.erase erased).find? location = d.find? location := by
  cases location with
  | nil => rfl
  | cons part parts => simp [find?, erase, Table.find?_erase, h]

/-- What a change leaves: the working folder, every folder, and the files at the kept locations. -/
structure Leaves (kept : Location → Prop) (d d' : Disk) : Prop where
  home : d'.home = d.home
  folder : ∀ l, d.find? l = some .folder → d'.find? l = some .folder
  file : ∀ l content, kept l → d.find? l = some (.file content) →
    d'.find? l = some (.file content)

variable {kept : Location → Prop} {d d' d'' : Disk} {p : Path} {location target : Location}
  {content : Bytes}

namespace Leaves

lemma refl (kept : Location → Prop) (d : Disk) : Leaves kept d d :=
  ⟨rfl, fun _ h => h, fun _ _ _ h => h⟩

lemma trans (h : Leaves kept d d') (h' : Leaves kept d' d'') : Leaves kept d d'' :=
  ⟨h'.home.trans h.home, fun l hl => h'.folder l (h.folder l hl),
    fun l c hk hl => h'.file l c hk (h.file l c hk hl)⟩

lemma mono {kept' : Location → Prop} (h : Leaves kept d d') (hk : ∀ l, kept' l → kept l) :
    Leaves kept' d d' :=
  ⟨h.home, h.folder, fun l c hl => h.file l c (hk l hl)⟩

/-- A change of the plan alone changes nothing. -/
lemma of_find? (hhome : d'.home = d.home) (hfind : ∀ l, d'.find? l = d.find? l) :
    Leaves kept d d' :=
  ⟨hhome, fun l h => (hfind l).trans h, fun l _ _ h => (hfind l).trans h⟩

/-- A new entry takes nothing away. -/
lemma put_new (e : Entry) (h : d.find? location = none) : Leaves kept d (d.put location e) := by
  have hne : ∀ l e', d.find? l = some e' → location ≠ l := by
    rintro l e' hl rfl
    rw [h] at hl
    cases hl
  exact ⟨rfl, fun l hl => (find?_put_of_ne d e (hne l _ hl)).trans hl,
    fun l c _ hl => (find?_put_of_ne d e (hne l _ hl)).trans hl⟩

/-- A write where there is no folder leaves the other files. -/
lemma put_file (e : Entry) (h : d.find? location ≠ some .folder) (hk : ¬ kept location) :
    Leaves kept d (d.put location e) := by
  refine ⟨rfl, fun l hl => ?_, fun l c hkept hl => ?_⟩
  · have hne : location ≠ l := fun heq => h (heq ▸ hl)
    exact (find?_put_of_ne d e hne).trans hl
  · have hne : location ≠ l := fun heq => hk (heq ▸ hkept)
    exact (find?_put_of_ne d e hne).trans hl

/-- Removing a file leaves the others. -/
lemma erase (h : d.find? location ≠ some .folder) (hk : ¬ kept location) :
    Leaves kept d (d.erase location) := by
  refine ⟨rfl, fun l hl => ?_, fun l c hkept hl => ?_⟩
  · have hne : location ≠ l := fun heq => h (heq ▸ hl)
    exact (find?_erase_of_ne d hne).trans hl
  · have hne : location ≠ l := fun heq => hk (heq ▸ hkept)
    exact (find?_erase_of_ne d hne).trans hl

end Leaves

/-! ## Paths lead where they led -/

/-- What a path leads to is what is at its location. -/
lemma found?_of_follow {l : Location} {parts : List Text} {q : Place}
    (h : d.follow l parts = .ok q) : q.found? = d.find? q.location := by
  fun_induction follow d l parts with
  | case1 l =>
    cases h
    rfl
  | case2 l rest ih => exact ih h
  | case3 => cases h
  | case4 l part hdots hlimit next =>
    cases h
    rfl
  | case5 l part hdots hlimit next more rest hfolder ih => exact ih h
  | case6 => cases h
  | case7 => cases h

/-- Names lead to the same place on disks that have the same on the way. -/
lemma follow_congr {l : Location} {parts : List Text} (hway : ∀ ps, ps <+: parts →
    d'.find? (ps.foldl Path.followLexically l) = d.find? (ps.foldl Path.followLexically l)) :
    d'.follow l parts = d.follow l parts := by
  -- the rest of the way begins where the first name leads
  have hrest : ∀ {l m : Location} {part : Text} {rest : List Text}, Path.followLexically l part = m →
      (∀ ps, ps <+: part :: rest →
        d'.find? (ps.foldl Path.followLexically l) = d.find? (ps.foldl Path.followLexically l)) →
      ∀ ps, ps <+: rest →
        d'.find? (ps.foldl Path.followLexically m) = d.find? (ps.foldl Path.followLexically m) := by
    rintro l _ part rest rfl h ps hps
    exact h (part :: ps) ((List.prefix_cons_inj _).2 hps)
  fun_induction Disk.follow d l parts with
  | case1 l =>
    have hhere : d'.find? l = d.find? l := hway [] (List.prefix_refl _)
    rw [Disk.follow, hhere]
  | case2 l rest ih =>
    rw [Disk.follow, if_pos rfl]
    exact ih (hrest (if_pos rfl) hway)
  | case3 l part rest hdots hlimit => rw [Disk.follow, if_neg hdots, if_pos hlimit]
  | case4 l part hdots hlimit next =>
    have hnext : d'.find? next = d.find? next := hrest (if_neg hdots) hway [] List.nil_prefix
    rw [Disk.follow, if_neg hdots, if_neg hlimit]
    simp only [hnext, next]
  | case5 l part hdots hlimit next more rest hfolder ih =>
    have hnext : d'.find? next = d.find? next := hrest (if_neg hdots) hway [] List.nil_prefix
    rw [hfolder] at hnext
    rw [Disk.follow, if_neg hdots, if_neg hlimit]
    simp only [hnext, next]
    exact ih (hrest (if_neg hdots) hway)
  | case6 l part hdots hlimit next content more rest hfile =>
    have hnext : d'.find? next = d.find? next := hrest (if_neg hdots) hway [] List.nil_prefix
    rw [hfile] at hnext
    rw [Disk.follow, if_neg hdots, if_neg hlimit]
    simp only [hnext, next]
  | case7 l part hdots hlimit next more rest hnone =>
    have hnext : d'.find? next = d.find? next := hrest (if_neg hdots) hway [] List.nil_prefix
    rw [hnone] at hnext
    rw [Disk.follow, if_neg hdots, if_neg hlimit]
    simp only [hnext, next]

/-- Names are followed through folders, and these stay. -/
lemma Leaves.follow (hl : Leaves kept d d') {l : Location} {parts : List Text} {q : Place}
    (h : d.follow l parts = .ok q) :
    d'.follow l parts = .ok ⟨q.location, d'.find? q.location⟩ := by
  fun_induction Disk.follow d l parts with
  | case1 l =>
    cases h
    rfl
  | case2 l rest ih =>
    rw [Disk.follow, if_pos rfl]
    exact ih h
  | case3 => cases h
  | case4 l part hdots hlimit next =>
    cases h
    rw [Disk.follow, if_neg hdots, if_neg hlimit]
  | case5 l part hdots hlimit next more rest hfolder ih =>
    have hkept : d'.find? (l ++ [part]) = some .folder := hl.folder _ hfolder
    rw [Disk.follow, if_neg hdots, if_neg hlimit]
    simp only [hkept]
    exact ih h
  | case6 => cases h
  | case7 => cases h

lemma place_eq_ok_iff {q : Place} :
    d.place p = .ok q ↔ p.hasTerminator = false ∧ ¬ pathLimit ≤ byteLength p.text ∧
      d.follow (d.start p) p.parts = .ok q := by
  unfold place
  cases p.hasTerminator with
  | true => simp
  | false =>
    by_cases hlimit : pathLimit ≤ byteLength p.text
    · simp [hlimit]
    · simp only [hlimit, if_false]
      cases d.follow (d.start p) p.parts <;> simp

lemma found?_of_place {q : Place} (h : d.place p = .ok q) : q.found? = d.find? q.location :=
  found?_of_follow (place_eq_ok_iff.1 h).2.2

/-- **A path leads where it led** as long as the folders stay. -/
theorem Leaves.place (hl : Leaves kept d d') {q : Place} (h : d.place p = .ok q) :
    d'.place p = .ok ⟨q.location, d'.find? q.location⟩ := by
  have hstart : d'.start p = d.start p := by
    unfold start
    rw [hl.home]
  obtain ⟨hterm, hlimit, hfollow⟩ := place_eq_ok_iff.1 h
  refine place_eq_ok_iff.2 ⟨hterm, hlimit, ?_⟩
  rw [hstart]
  exact hl.follow hfollow

lemma read_of_place (h : d.place p = .ok ⟨location, some (.file content)⟩) :
    d.read p = .ok content := by
  simp only [read, entry, h]
  rfl

lemma isFile_of_place (h : d.place p = .ok ⟨location, some (.file content)⟩) :
    d.isFile p = .ok true := by
  simp only [isFile, holds, entry, h]
  rfl

/-- The file that a path leads to is read again after a change that keeps it. -/
lemma place_of_read (h : d.read p = .ok content) :
    ∃ location, d.place p = .ok ⟨location, some (.file content)⟩ := by
  simp only [read, entry, bind, Except.bind] at h
  cases hp : d.place p with
  | error f => simp [hp] at h
  | ok q =>
    obtain ⟨l, found⟩ := q
    rw [hp] at h
    cases found with
    | none => simp [throw, throwThe, MonadExceptOf.throw] at h
    | some e =>
      cases e with
      | folder => simp [pure, Except.pure, throw, throwThe, MonadExceptOf.throw] at h
      | file c =>
        simp only [pure, Except.pure, Except.ok.injEq] at h
        exact ⟨l, by rw [h]⟩

end Disk

end Scaffold
