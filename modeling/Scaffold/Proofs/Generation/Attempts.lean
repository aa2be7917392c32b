import Scaffold.Proofs.Disk.Outcomes
import Scaffold.Proofs.Generation.Contents

/-!
# Files that are tried one after another

A file of a module that cannot be written is reported, and the next one is tried.  One try either writes
the file and records it, or changes no file and gives a message (`Tried`); in both cases it may make folders
on the way to the file.  Of a run of tries (`Tries`) for files in different places the same holds at its
end: what was recorded is there in full, and what was reported is as it was before, except that a folder
may have been made in its place if that is on the way of one of the files (`Tries.settled`).
-/

namespace Scaffold

namespace Disk

variable {files way way' : Location → Prop} {d d' d'' : Disk} {l : Location}

/-- Nothing is different at a location, unless a folder was made where nothing was. -/
def Untouched (way : Location → Prop) (l : Location) (d d' : Disk) : Prop :=
  d'.find? l = d.find? l ∨ way l ∧ d.find? l = none ∧ d'.find? l = some .folder

lemma Changes.untouched (h : Changes files way d d') (hl : ¬ files l) : Untouched way l d d' := by
  have hentry := h.entry l
  rw [Untouched]
  generalize d.find? l = before at hentry
  generalize d'.find? l = after at hentry
  cases hentry with
  | same => exact .inl rfl
  | written hfiles => exact absurd hfiles hl
  | made hway => exact .inr ⟨hway, rfl, rfl⟩

lemma Untouched.trans (h : Untouched way l d d') (h' : Untouched way l d' d'') : Untouched way l d d'' := by
  rcases h with h | ⟨hway, hbefore, hmade⟩
  · rwa [Untouched, ← h]
  · rcases h' with h' | ⟨-, hfree, -⟩
    · exact .inr ⟨hway, hbefore, h'.trans hmade⟩
    · rw [hmade] at hfree
      cases hfree

lemma Untouched.mono (h : Untouched way l d d') (hway : ∀ l, way l → way' l) : Untouched way' l d d' :=
  h.imp_right fun h => ⟨hway l h.1, h.2⟩

/-- What is there is not touched at all. -/
lemma Untouched.find?_eq (h : Untouched way l d d') (hl : (d.find? l).isSome = true) :
    d'.find? l = d.find? l := by
  rcases h with h | ⟨-, hfree, -⟩
  · exact h
  · rw [hfree] at hl
    cases hl

/-- Saving a file writes it if it succeeds; it makes folders on the way and changes nothing else. -/
lemma changes_save {r : Except Failure Unit} {p : Path} {content : Bytes}
    (h : d.save p content = (r, d')) :
    Changes (fun l => r = .ok () ∧ l = d.destination p) (OnWay d p.parent) d d' := by
  have hmade : Changes (fun l => r = .ok () ∧ l = d.destination p) (OnWay d p.parent) d
      (d.makeFolders p.parent).2 := changes_makeFolders p.parent d
  unfold save at h
  split at h
  · rename_i d₁ hmake
    rw [hmake] at hmade
    refine hmade.trans ?_
    cases r with
    | ok u =>
      have hwrite : Changes (· = d₁.destination p) (OnWay d p.parent) d₁ (d₁.writeAtomic p content).2 :=
        changes_writeAtomic p content d₁
      rw [h, destination_of_home hmade.home] at hwrite
      exact hwrite.mono (fun l hl => ⟨rfl, hl⟩) fun _ hl => hl
    | error f =>
      have hkeeps := writeAtomic_error h
      exact .of_find? hkeeps.home hkeeps.find?
  · rename_i hmake
    obtain ⟨-, rfl⟩ := Prod.mk.inj h
    rwa [hmake] at hmade

end Disk

/-- What a write returns is decided by saving the file. -/
lemma Files.runOn_write_fst (w : World) (p : Path) (t : Text) :
    ((write true p t).runOn w).1 =
      (w.disk.save p (Utf8.encode t)).1.map fun _ => (Utf8.encode t).length := by
  simp only [write, ensureFolder, Disk.save, Act.runOn_bind, Act.runOn_change]
  rcases Disk.makeFolders p.parent w.disk with ⟨r, d₁⟩
  cases r with
  | error f => rfl
  | ok _ =>
    simp only [Act.runOn_say, if_true]
    rcases Disk.writeAtomic p (Utf8.encode t) d₁ with ⟨r, d₂⟩
    cases r <;> rfl

namespace ModuleFolder

/-! ## One file -/

/-- A file to be written: what it is, where it goes, its text, and what is said if it cannot be written. -/
structure Target where
  kind : Text
  path : Path
  text : Text
  complaint : OsError → Text

/-- The record of a file: size, lines and digest are those of its text. -/
def Target.record (t : Target) : FileRecord :=
  ⟨t.kind, t.path.text, (Utf8.encode t.text).length, Text.countLines t.text, Sha256.hex t.text⟩

namespace Outcome

/-- The record of a file that was written. -/
def record? : Outcome → Option FileRecord
  | written r => some r
  | failed _ => none

/-- The message about a file that was not. -/
def message? : Outcome → Option Text
  | written _ => none
  | failed message => some message

end Outcome

variable {t : Target} {ts us : List Target} {o : Outcome} {os ps : List Outcome} {d d' d'' : Disk}
  {way : Location → Prop} {w w' : World}

/-- One try, from one disk to the next. -/
inductive Tried (t : Target) (d d' : Disk) : Outcome → Prop where
  | written : d'.content? t.path = some (Utf8.encode t.text) →
    Disk.Changes (· = d.destination t.path) (Disk.OnWay d t.path.parent) d d' →
    Tried t d d' (.written t.record)
  | failed (e : OsError) : Disk.Changes (fun _ => False) (Disk.OnWay d t.path.parent) d d' →
    Tried t d d' (.failed (t.complaint e))

/-- A file is written in full, or it fails with an outcome of the system and nothing is written. -/
lemma tried_writeFile (hpath : t.path.hasTerminator = false)
    (hhome : ∀ part ∈ w.disk.home, Path.terminator ∉ part) :
    (∃ w', (writeFile true t.kind t.path t.text).runOn w = (.ok t.record, w') ∧
        Tried t w.disk w'.disk (.written t.record)) ∨
      ∃ e w', (writeFile true t.kind t.path t.text).runOn w = (.error (.os e), w') ∧
        Tried t w.disk w'.disk (.failed (t.complaint e)) := by
  -- a write is a save that is told of, so what is known of saves settles both cases
  have houtcome := Files.isOutcome_write hpath hhome t.text
  have hresult := Files.runOn_write_fst w t.path t.text
  have hdisk := Files.disk_write w t.path t.text
  have hfile : (writeFile true t.kind t.path t.text).runOn w =
      (((Files.write true t.path t.text).runOn w).1.map fun size => { t.record with size },
        ((Files.write true t.path t.text).runOn w).2) := Act.runOn_bind_pure _ _ w
  cases hsave : w.disk.save t.path (Utf8.encode t.text) with
  | mk r d' =>
    have hchanges := Disk.changes_save hsave
    rw [hsave] at hresult hdisk
    cases r with
    | ok u =>
      have hrun : (writeFile true t.kind t.path t.text).runOn w =
          (.ok t.record, ((Files.write true t.path t.text).runOn w).2) := by
        rw [hfile, hresult]
        rfl
      refine .inl ⟨_, hrun, .written (content?_writeFile hrun) ?_⟩
      rw [hdisk]
      exact hchanges.mono (fun l hl => hl.2) fun _ hl => hl
    | error f =>
      rw [hresult] at houtcome
      obtain ⟨e, rfl⟩ := houtcome.exists_os
      refine .inr ⟨e, _, by rw [hfile, hresult]; rfl, .failed e ?_⟩
      rw [hdisk]
      exact hchanges.mono (fun l hl => nomatch hl.1) fun _ hl => hl

/-! ## Files one after another -/

/-- Tries in a row, each on the disk that the one before left. -/
inductive Tries : List Target → List Outcome → Disk → Disk → Prop where
  | nil (d : Disk) : Tries [] [] d d
  | cons {t : Target} {ts : List Target} {o : Outcome} {os : List Outcome} {d d' d'' : Disk} :
    Tried t d d' o → Tries ts os d' d'' → Tries (t :: ts) (o :: os) d d''

lemma Tries.append (h : Tries ts os d d') (h' : Tries us ps d' d'') : Tries (ts ++ us) (os ++ ps) d d'' := by
  induction h with
  | nil => exact h'
  | cons hfirst hrest ih => exact .cons hfirst (ih h')

lemma Tries.length_eq (h : Tries ts os d d') : ts.length = os.length := by
  induction h with
  | nil => rfl
  | cons hfirst hrest ih => rw [List.length_cons, List.length_cons, ih]

/-- What has become of a file when all were tried. -/
inductive Settled (way : Location → Prop) (d d' : Disk) (t : Target) : Outcome → Prop where
  | written : d'.content? t.path = some (Utf8.encode t.text) → Settled way d d' t (.written t.record)
  | failed (e : OsError) : Disk.Untouched way (d.destination t.path) d d' →
    Settled way d d' t (.failed (t.complaint e))

/-- The places of the files that were written. -/
def writtenTo (d : Disk) (ts : List Target) (os : List Outcome) (l : Location) : Prop :=
  ∃ e ∈ ts.zip os, e.2.record?.isSome = true ∧ l = d.destination e.1.path

/-- The folders on the way to some files. -/
def wayTo (d : Disk) (ts : List Target) (l : Location) : Prop := ∃ t ∈ ts, Disk.OnWay d t.path.parent l

/-- What went before does not matter for a file that it left alone. -/
lemma Settled.of_before (h : Settled way d' d'' t o) (hbefore : Disk.Untouched way (d.destination t.path) d d')
    (hhome : d'.home = d.home) : Settled way d d'' t o := by
  cases h with
  | written hcontent => exact .written hcontent
  | failed e hafter =>
    rw [Disk.destination_of_home hhome] at hafter
    exact .failed e (hbefore.trans hafter)

lemma Settled.mono {way' : Location → Prop} (h : Settled way d d' t o) (hway : ∀ l, way l → way' l) :
    Settled way' d d' t o := by
  cases h with
  | written hcontent => exact .written hcontent
  | failed e huntouched => exact .failed e (huntouched.mono hway)

/-- What comes later does not matter for a file that it leaves alone. -/
lemma Tried.settled (h : Tried t d d' o) (hlater : Disk.Changes (· ≠ d.destination t.path) way d' d'')
    (hway : ∀ l, Disk.OnWay d t.path.parent l → way l) : Settled way d d'' t o := by
  cases h with
  | written hcontent hchanges =>
    refine .written (hlater.leaves.content? ?_ hcontent)
    rw [Disk.destination_of_home hchanges.home]
    exact fun h => h rfl
  | failed e hchanges =>
    have hfirst : Disk.Untouched way (d.destination t.path) d d' :=
      (hchanges.untouched not_false).mono hway
    exact .failed e (hfirst.trans (hlater.untouched fun h => h rfl))

/-- One try writes its own file if it is recorded, and makes folders on the way. -/
lemma Tried.changes (h : Tried t d d' o) :
    Disk.Changes (fun l => o.record?.isSome = true ∧ l = d.destination t.path)
      (Disk.OnWay d t.path.parent) d d' := by
  cases h with
  | written hcontent hchanges => exact hchanges.mono (fun l hl => ⟨rfl, hl⟩) fun _ hl => hl
  | failed e hchanges => exact hchanges.mono (fun l hl => hl.elim) fun _ hl => hl

lemma mem_of_writtenTo {l : Location} (h : writtenTo d ts os l) : ∃ t ∈ ts, l = d.destination t.path := by
  obtain ⟨⟨t, o⟩, hmem, -, hl⟩ := h
  exact ⟨t, (List.of_mem_zip hmem).1, hl⟩

/-- Tries write the files that are recorded, and make folders on the way. -/
lemma Tries.changes (h : Tries ts os d d') : Disk.Changes (writtenTo d ts os) (wayTo d ts) d d' := by
  induction h with
  | nil => exact .refl _
  | @cons t ts o os d d₁ d' hfirst hrest ih =>
    have hhome := hfirst.changes.home
    have hdestination := fun q => Disk.destination_of_home hhome q
    refine (hfirst.changes.mono (fun l hl => ?_) fun l hl => ?_).trans (ih.mono (fun l hl => ?_) fun l hl => ?_)
    · exact ⟨(t, o), List.mem_cons_self .., hl⟩
    · exact ⟨t, List.mem_cons_self .., hl⟩
    · obtain ⟨e, hmem, hwritten, hl⟩ := hl
      exact ⟨e, List.mem_cons_of_mem _ hmem, hwritten, hl.trans (hdestination _)⟩
    · obtain ⟨u, hmem, hl⟩ := hl
      rw [Disk.onWay_of_home hhome] at hl
      exact ⟨u, List.mem_cons_of_mem _ hmem, hl⟩

/-- **Files in different places**: at the end every file that was tried, in order, is there in full and
recorded, or is reported and as it was. -/
theorem Tries.settled (h : Tries ts os d d')
    (hapart : ts.Pairwise fun t u => d.destination t.path ≠ d.destination u.path) :
    List.Forall₂ (Settled (wayTo d ts) d d') ts os := by
  induction h with
  | nil => exact .nil
  | @cons t ts o os d d₁ d' hfirst hrest ih =>
    obtain ⟨hhead, htail⟩ := List.pairwise_cons.1 hapart
    have hhome := hfirst.changes.home
    have hdestination := fun q => Disk.destination_of_home hhome q
    have hway : ∀ l, wayTo d₁ ts l → wayTo d (t :: ts) l := by
      rintro l ⟨u, hmem, hl⟩
      rw [Disk.onWay_of_home hhome] at hl
      exact ⟨u, List.mem_cons_of_mem _ hmem, hl⟩
    have hlater : Disk.Changes (· ≠ d.destination t.path) (wayTo d (t :: ts)) d₁ d' := by
      refine hrest.changes.mono (fun l hl heq => ?_) hway
      obtain ⟨u, hu, hsame⟩ := mem_of_writtenTo hl
      rw [hdestination] at hsame
      exact hhead u hu (heq.symm.trans hsame)
    refine .cons (hfirst.settled hlater fun l hl => ⟨t, List.mem_cons_self .., hl⟩) ?_
    -- the first file is in another place, so the others find their places as they were
    have hothers : ∀ u ∈ ts, Disk.Untouched (wayTo d (t :: ts)) (d.destination u.path) d d₁ := fun u hu =>
      (hfirst.changes.mono (fun _ hl => hl) fun l hl => ⟨t, List.mem_cons_self .., hl⟩).untouched
        fun hl => hhead u hu hl.2.symm
    exact ((List.forall₂_and_left ..).2 ⟨hothers, ih (by simpa only [hdestination] using htail)⟩).imp
      fun u o h => (h.2.mono hway).of_before h.1 hhome

/-- Tries on a disk where folders were made before, seen from the disk before that. -/
lemma Tries.after {way : Location → Prop} {d' d'' : Disk} {ts : List Target} {os : List Outcome}
    (hbefore : Disk.Changes (fun _ => False) way d d') (htries : Tries ts os d' d'')
    (hapart : ts.Pairwise fun t u => d.destination t.path ≠ d.destination u.path) :
    List.Forall₂ (Settled (fun l => way l ∨ wayTo d ts l) d d'') ts os ∧
      Disk.Changes (writtenTo d ts os) (fun l => way l ∨ wayTo d ts l) d d'' := by
  have hhome := hbefore.home
  have hdestination := fun q => Disk.destination_of_home hhome q
  have hway : ∀ l, wayTo d' ts l → way l ∨ wayTo d ts l := by
    rintro l ⟨t, ht, hl⟩
    rw [Disk.onWay_of_home hhome] at hl
    exact .inr ⟨t, ht, hl⟩
  constructor
  · refine (htries.settled (by simpa only [hdestination] using hapart)).imp fun t o h => ?_
    exact (h.mono hway).of_before ((hbefore.untouched not_false).mono fun _ => .inl) hhome
  · refine (hbefore.mono (fun _ hl => hl.elim) fun _ => .inl).trans (htries.changes.mono ?_ hway)
    rintro l ⟨e, he, hwritten, hl⟩
    exact ⟨e, he, hwritten, hl.trans (hdestination _)⟩

end ModuleFolder

end Scaffold
