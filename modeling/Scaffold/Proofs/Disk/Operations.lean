import Scaffold.Proofs.Disk.Frame

/-!
# What an operation does

An operation takes its planned outcome, and then it fails or changes the entries at one or two locations.
This is said once for each of them, with what was found at the locations (`makeFolder_cases`,
`createNew_cases`, `fill_cases`, `moveTo_cases`), and whatever else is said of folders and files is derived
from it.  Making folders makes some of them one after the other, so what each does to a disk, all do
(`makeFolders_induction`).

A write through a temporary file is three operations (`writeAtomic_cases`).  The temporary name was free,
and the file is moved or removed in the end; so a write that succeeds changes the one file it writes and
nothing else (`writeAtomic_eq`), and one that fails changes nothing (`writeAtomic_error`).
-/

namespace Scaffold.Disk

variable {kept : Location → Prop} {d d' d'' d₁ d₂ : Disk} {p temp : Path} {l location target : Location}
  {content : Bytes} {e e' : Entry} {f : Failure}

/-! ## Entries -/

lemma find?_put (d : Disk) (e : Entry) (hne : location ≠ []) (l : Location) :
    (d.put location e).find? l = if l = location then some e else d.find? l := by
  split
  · rename_i h
    rw [h, find?_put_self d e hne]
  · rename_i h
    exact find?_put_of_ne d e (Ne.symm h)

lemma find?_erase (d : Disk) (hne : location ≠ []) (l : Location) :
    (d.erase location).find? l = if l = location then none else d.find? l := by
  split
  · rename_i h
    obtain ⟨part, parts, rfl⟩ := List.exists_cons_of_ne_nil hne
    rw [h, find?, erase, Table.find?_erase, if_pos rfl]
  · rename_i h
    exact find?_erase_of_ne d (Ne.symm h)

/-- Where a path ends at nothing there is no entry, and this is not the root. -/
lemma free_of_place (h : d.place p = .ok ⟨l, none⟩) : d.find? l = none ∧ l ≠ [] := by
  have hfree : d.find? l = none := (found?_of_place h).symm
  refine ⟨hfree, ?_⟩
  rintro rfl
  cases hfree

/-- The same entries, and no failure is planned where none was. -/
structure SameEntries (d d' : Disk) : Prop where
  home : d'.home = d.home
  entries : d'.entries = d.entries
  plan : d.plan = [] → d'.plan = []

namespace SameEntries

variable (h : SameEntries d d')

include h

lemma find? (l : Location) : d'.find? l = d.find? l := by
  cases l with
  | nil => rfl
  | cons part parts => rw [Disk.find?, Disk.find?, h.entries]

lemma leaves : Leaves kept d d' := .of_find? h.home h.find?

/-- A path leads to the same place, or nowhere for the same reason. -/
lemma place (p : Path) : d'.place p = d.place p := by
  unfold Disk.place Disk.start
  rw [h.home, follow_congr fun _ _ => h.find? _]

end SameEntries

lemma sameEntries_planned (d : Disk) : SameEntries d d.planned.2 := by
  unfold planned
  split
  · exact ⟨rfl, rfl, id⟩
  · rename_i hplan
    exact ⟨rfl, rfl, fun h => by rw [h] at hplan; cases hplan⟩

/-! ## Single operations -/

/-- Making a folder fails, or puts one where nothing is. -/
lemma makeFolder_cases (p : Path) (d : Disk) : ∃ d₁, SameEntries d d₁ ∧
    ((∃ f, d.makeFolder p = (.error f, d₁)) ∨
      ∃ l, d.place p = .ok ⟨l, none⟩ ∧ d.makeFolder p = (.ok (), d₁.put l .folder)) := by
  have hsame := sameEntries_planned d
  refine ⟨d.planned.2, hsame, ?_⟩
  unfold makeFolder
  split
  · rename_i hplanned
    rw [hplanned]
    exact .inl ⟨_, rfl⟩
  · rename_i hplanned
    rw [hplanned] at hsame ⊢
    split
    · exact .inl ⟨_, rfl⟩
    · exact .inl ⟨_, rfl⟩
    · rename_i hplace
      exact .inr ⟨_, (hsame.place p).symm.trans hplace, rfl⟩

/-- Creating a file fails, or puts one where nothing is. -/
lemma createNew_cases (p : Path) (d : Disk) : ∃ d₁, SameEntries d d₁ ∧
    ((∃ f, d.createNew p = (.error f, d₁)) ∨
      ∃ l, d.place p = .ok ⟨l, none⟩ ∧ d.createNew p = (.ok l, d₁.put l (.file []))) := by
  have hsame := sameEntries_planned d
  refine ⟨d.planned.2, hsame, ?_⟩
  unfold createNew
  split
  · rename_i hplanned
    rw [hplanned]
    exact .inl ⟨_, rfl⟩
  · rename_i hplanned
    rw [hplanned] at hsame ⊢
    split
    · exact .inl ⟨_, rfl⟩
    · exact .inl ⟨_, rfl⟩
    · rename_i hplace
      exact .inr ⟨_, (hsame.place p).symm.trans hplace, rfl⟩

lemma fill_cases (l : Location) (content : Bytes) (d : Disk) : ∃ d₁, SameEntries d d₁ ∧
    ((∃ f, d.fill l content = (.error f, d₁)) ∨ d.fill l content = (.ok (), d₁.put l (.file content))) := by
  have hsame := sameEntries_planned d
  refine ⟨d.planned.2, hsame, ?_⟩
  unfold fill
  split
  · rename_i hplanned
    rw [hplanned]
    exact .inl ⟨_, rfl⟩
  · rename_i hplanned
    rw [hplanned]
    exact .inr rfl

/-- Moving a file fails, or takes it from its location and puts it where no folder is. -/
lemma moveTo_cases (l : Location) (temp p : Path) (d : Disk) : ∃ d₁, SameEntries d d₁ ∧
    ((∃ f, d.moveTo l temp p = (.error f, d₁)) ∨
      ∃ target e, d.place p = .ok ⟨target, d.find? target⟩ ∧ d.find? target ≠ some .folder ∧
        d.find? l = some e ∧ d.moveTo l temp p = (.ok (), (d₁.erase l).put target e)) := by
  have hsame := sameEntries_planned d
  refine ⟨d.planned.2, hsame, ?_⟩
  unfold moveTo
  simp only
  split
  · rename_i hplanned
    rw [hplanned]
    exact .inl ⟨_, rfl⟩
  · rename_i d₁ hplanned
    rw [hplanned] at hsame ⊢
    split
    · exact .inl ⟨_, rfl⟩
    · exact .inl ⟨_, rfl⟩
    · exact .inl ⟨_, rfl⟩
    · rename_i target found hnotFolder hplace
      rw [hsame.place p] at hplace
      obtain rfl : found = d.find? target := found?_of_place hplace
      split
      · rename_i e hfound
        exact .inr ⟨target, e, hplace, hnotFolder, (hsame.find? l).symm.trans hfound, rfl⟩
      · exact .inl ⟨_, rfl⟩

/-- Writing in place fails, or puts the file where no folder is. -/
lemma writePlain_cases (p : Path) (content : Bytes) (d : Disk) : ∃ d₁, SameEntries d d₁ ∧
    ((∃ f, d.writePlain p content = (.error f, d₁)) ∨
      ∃ target, d.place p = .ok ⟨target, d.find? target⟩ ∧ d.find? target ≠ some .folder ∧
        d.writePlain p content = (.ok (), d₁.put target (.file content))) := by
  have hsame := sameEntries_planned d
  refine ⟨d.planned.2, hsame, ?_⟩
  unfold writePlain
  split
  · rename_i hplanned
    rw [hplanned]
    exact .inl ⟨_, rfl⟩
  · rename_i d₁ hplanned
    rw [hplanned] at hsame ⊢
    split
    · exact .inl ⟨_, rfl⟩
    · exact .inl ⟨_, rfl⟩
    · rename_i target found hnotFolder hplace
      rw [hsame.place p] at hplace
      obtain rfl : found = d.find? target := found?_of_place hplace
      exact .inr ⟨target, hplace, hnotFolder, rfl⟩

/-! ## Making folders -/

lemma unlessFolder_snd (p : Path) (f : Failure) (d : Disk) : (d.unlessFolder p f).2 = d := by
  unfold unlessFolder
  split
  · split <;> rfl
  · rfl

/-- Looking for the folder that could not be made changes nothing. -/
lemma keepFolder_snd (p : Path) (d : Disk) : (d.keepFolder p).2 = (d.makeFolder p).2 := by
  unfold keepFolder
  split
  · rename_i d₁ h
    rw [h]
  · rename_i f d₁ h
    rw [h]
    split
    · rfl
    · exact unlessFolder_snd p f d₁

section MakeFolders

variable {R : Disk → Disk → Prop} (trans : ∀ {d d' d'' : Disk}, R d d' → R d' d'' → R d d'')

include trans

lemma makeFoldersUp_induction (a : Anchor) (parts : List Text)
    (step : ∀ above, above <:+ parts → ∀ d, R d (d.makeFolder ⟨a, above.reverse⟩).2) (d : Disk) :
    R d (d.makeFoldersUp a parts).2 := by
  induction parts generalizing d with
  | nil =>
    rw [makeFoldersUp, keepFolder_snd]
    exact step [] (List.suffix_refl _) d
  | cons part above ih =>
    have hfolder := step (part :: above) (List.suffix_refl _)
    have hmake := hfolder d
    have habove := ih fun t ht => step t (ht.trans (List.suffix_cons ..))
    simp only [makeFoldersUp]
    split
    · rename_i d₁ h
      rwa [h] at hmake
    · rename_i f d₁ h
      rw [h] at hmake
      split
      · -- the folder above is missing, so it is made first and this one is tried again
        have hup := habove d₁
        split
        · rename_i d₂ h₂
          rw [h₂] at hup
          rw [keepFolder_snd]
          exact trans (trans hmake hup) (hfolder d₂)
        · exact trans hmake hup
      · rwa [unlessFolder_snd]

/-- **What making each folder on the way does** to a disk, making all of them does, whether it succeeds or
not. -/
theorem makeFolders_induction (p : Path)
    (step : ∀ parts, parts <+: p.parts → ∀ d, R d (d.makeFolder ⟨p.anchor, parts⟩).2) (d : Disk) :
    R d (d.makeFolders p).2 := by
  refine makeFoldersUp_induction (R := R) trans p.anchor p.parts.reverse (fun above habove => ?_) d
  refine step above.reverse ?_
  rw [← List.reverse_suffix, List.reverse_reverse]
  exact habove

end MakeFolders

lemma leaves_makeFolder (kept : Location → Prop) (p : Path) (d : Disk) :
    Leaves kept d (d.makeFolder p).2 := by
  obtain ⟨d₁, hsame, ⟨f, h⟩ | ⟨l, hplace, h⟩⟩ := makeFolder_cases p d
  · rw [h]
    exact hsame.leaves
  · rw [h]
    exact hsame.leaves.trans (.put_new _ ((hsame.find? l).trans (free_of_place hplace).1))

/-- Making folders takes nothing away, whether it succeeds or not. -/
theorem leaves_makeFolders (kept : Location → Prop) (p : Path) (d : Disk) :
    Leaves kept d (d.makeFolders p).2 :=
  makeFolders_induction (R := Leaves kept) Leaves.trans p (fun _ _ d => leaves_makeFolder kept _ d) d

/-! ## Writing a file -/

/-- A disk with one file written and nothing else changed. -/
structure Writes (target : Location) (content : Bytes) (d d' : Disk) : Prop where
  home : d'.home = d.home
  find? : ∀ l, d'.find? l = if l = target then some (.file content) else d.find? l
  distinct : (Table.keys d.entries).Nodup → (Table.keys d'.entries).Nodup
  plan : d.plan = [] → d'.plan = []

namespace Writes

/-- A file is put over one or where nothing is. -/
lemma put (hsame : SameEntries d d₁) (hne : target ≠ []) : Writes target content d (d₁.put target (.file content)) where
  home := hsame.home
  find? l := by rw [find?_put d₁ _ hne, hsame.find?]
  distinct hdistinct := Table.nodup_keys_put (hsame.entries ▸ hdistinct) _ _
  plan := hsame.plan

/-- Of two writes to one file the second one counts. -/
lemma trans {content' : Bytes} (h : Writes target content d d') (h' : Writes target content' d' d'') :
    Writes target content' d d'' where
  home := h'.home.trans h.home
  find? l := by
    rw [h'.find?, h.find?]
    split <;> rfl
  distinct := h'.distinct ∘ h.distinct
  plan := h'.plan ∘ h.plan

/-- Where a folder stood there is one, and everywhere but at the target the same files are there. -/
lemma leaves (h : Writes target content d d') (htarget : d.find? target ≠ some .folder) :
    Leaves (· ≠ target) d d' := by
  refine ⟨h.home, fun l hl => ?_, fun l c hne hl => by rw [h.find?, if_neg hne, hl]⟩
  have hne : l ≠ target := by
    rintro rfl
    exact htarget hl
  rw [h.find?, if_neg hne, hl]

end Writes

/-- Nothing changed: the entries are the same ones, in whatever order. -/
structure Keeps (d d' : Disk) : Prop where
  home : d'.home = d.home
  find? : ∀ l, d'.find? l = d.find? l
  distinct : (Table.keys d.entries).Nodup → (Table.keys d'.entries).Nodup
  plan : d.plan = [] → d'.plan = []

/-- Without the file that was written where nothing was, everything is as before. -/
lemma Writes.keeps_erase (h : Writes l content d d') (hsame : SameEntries d' d₁) (hfree : d.find? l = none)
    (hne : l ≠ []) : Keeps d (d₁.erase l) where
  home := hsame.home.trans h.home
  find? k := by
    rw [find?_erase d₁ hne, hsame.find?, h.find?]
    split
    · rename_i heq
      rw [heq, hfree]
    · rfl
  distinct hdistinct := Table.nodup_keys_erase (hsame.entries ▸ h.distinct hdistinct) _
  plan := hsame.plan ∘ h.plan

/-- **A write through a temporary file** succeeds, or everything is as before. -/
theorem writeAtomic_cases (p : Path) (content : Bytes) (d : Disk) :
    (∃ f, (d.writeAtomic p content).1 = .error f ∧ Keeps d (d.writeAtomic p content).2) ∨
      (d.writeAtomic p content).1 = .ok () ∧ (∃ l, d.place (d.temporary p) = .ok ⟨l, none⟩) ∧
        ∃ target, d.place p = .ok ⟨target, d.find? target⟩ ∧ d.find? target ≠ some .folder ∧
          Writes target content d (d.writeAtomic p content).2 := by
  unfold writeAtomic
  simp only
  obtain ⟨d₁, hsame₁, ⟨f, hcreate⟩ | ⟨l, htemporary, hcreate⟩⟩ := createNew_cases (d.temporary p) d
  · rw [hcreate]
    exact .inl ⟨f, rfl, hsame₁.home, hsame₁.find?, fun h => hsame₁.entries ▸ h, hsame₁.plan⟩
  obtain ⟨hfree, hne⟩ := free_of_place htemporary
  have hcreated : Writes l [] d (d₁.put l (.file [])) := .put hsame₁ hne
  obtain ⟨d₂, hsame₂, ⟨f, hfill⟩ | hfill⟩ := fill_cases l content (d₁.put l (.file []))
  · simp only [hcreate, hfill]
    exact .inl ⟨f, rfl, hcreated.keeps_erase hsame₂ hfree hne⟩
  have hfilled : Writes l content d (d₂.put l (.file content)) := hcreated.trans (.put hsame₂ hne)
  obtain ⟨d₃, hsame₃, ⟨f, hmove⟩ | ⟨target, e, hplace, hnotFolder, he, hmove⟩⟩ :=
    moveTo_cases l (d.temporary p) p (d₂.put l (.file content))
  · simp only [hcreate, hfill, hmove]
    exact .inl ⟨f, rfl, hfilled.keeps_erase hsame₃ hfree hne⟩
  simp only [hcreate, hfill, hmove]
  obtain rfl : Entry.file content = e := by
    rw [hfilled.find?, if_pos rfl] at he
    exact Option.some.inj he
  have hkeeps := hfilled.keeps_erase hsame₃ hfree hne
  -- without the temporary file the path leads to the same place
  have hback : Leaves (· ≠ l) (d₂.put l (.file content)) d := by
    refine ⟨hfilled.home.symm, fun k hk => ?_, fun k c hk hc => ?_⟩
    · rw [hfilled.find?] at hk
      split at hk
      · cases hk
      · exact hk
    · rwa [hfilled.find?, if_neg hk] at hc
  have htarget : d.find? target ≠ some .folder := fun hfolder => by
    refine hnotFolder ?_
    rw [hfilled.find?, if_neg (fun heq => by rw [heq, hfree] at hfolder; cases hfolder), hfolder]
  have htargetNe : target ≠ [] := by
    rintro rfl
    exact htarget rfl
  refine .inr ⟨trivial, ⟨l, htemporary⟩, target, hback.place hplace, htarget, hkeeps.home, fun k => ?_,
    fun hdistinct => Table.nodup_keys_put (hkeeps.distinct hdistinct) _ _, hkeeps.plan⟩
  rw [find?_put _ _ htargetNe, hkeeps.find?]

/-- **A write that succeeds** writes the file that the path leads to, and nothing else is changed. -/
theorem writeAtomic_eq (h : d.writeAtomic p content = (.ok (), d')) :
    ∃ target, d.place p = .ok ⟨target, d.find? target⟩ ∧ d.find? target ≠ some .folder ∧
      Writes target content d d' := by
  have hcases := writeAtomic_cases p content d
  rw [h] at hcases
  obtain ⟨f, hf, -⟩ | ⟨-, -, hwrites⟩ := hcases
  · cases hf
  · exact hwrites

/-- A write that fails leaves every entry as it was: the temporary file is removed. -/
lemma writeAtomic_error (h : d.writeAtomic p content = (.error f, d')) : Keeps d d' := by
  have hcases := writeAtomic_cases p content d
  rw [h] at hcases
  obtain ⟨f', -, hkeeps⟩ | ⟨hok, -⟩ := hcases
  · exact hkeeps
  · cases hok

lemma place_of_writes (hplace : d.place p = .ok ⟨target, d.find? target⟩)
    (htarget : d.find? target ≠ some .folder) (h : Writes target content d d') :
    d'.place p = .ok ⟨target, some (.file content)⟩ ∧ Leaves (· ≠ target) d d' := by
  have hleaves := h.leaves htarget
  have hback := hleaves.place hplace
  simp only [h.find?, if_true] at hback
  exact ⟨hback, hleaves⟩

/-- A write that succeeds leaves every file but the one it replaces, and the path leads to the new content. -/
theorem writeAtomic_ok (h : d.writeAtomic p content = (.ok (), d')) :
    ∃ target, d'.place p = .ok ⟨target, some (.file content)⟩ ∧ Leaves (· ≠ target) d d' := by
  obtain ⟨target, hplace, htarget, hwrites⟩ := writeAtomic_eq h
  exact ⟨target, place_of_writes hplace htarget hwrites⟩

/-- A write in place that succeeds does the same. -/
theorem writePlain_ok (h : d.writePlain p content = (.ok (), d')) :
    ∃ target, d'.place p = .ok ⟨target, some (.file content)⟩ ∧ Leaves (· ≠ target) d d' := by
  obtain ⟨d₁, hsame, ⟨f, hfailed⟩ | ⟨target, hplace, htarget, hwritten⟩⟩ := writePlain_cases p content d
  · cases h.symm.trans hfailed
  · obtain rfl : d₁.put target (.file content) = d' := (Prod.mk.inj (hwritten.symm.trans h)).2
    have hne : target ≠ [] := by
      rintro rfl
      exact htarget rfl
    exact ⟨target, place_of_writes hplace htarget (.put hsame hne)⟩

end Scaffold.Disk
