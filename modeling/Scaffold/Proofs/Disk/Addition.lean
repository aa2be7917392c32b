import Scaffold.Proofs.Disk.Descent

/-!
# Two disks that differ in one folder

On two disks that are the same but for one folder, which is on the second disk only, every operation does
the same as long as its path does not lead through the folder (`Alike.place`, `Alike.makeFolders`,
`Alike.writeAtomic`).  Afterwards the disks still differ in the folder alone, and what is in the folder
has not changed.  A path that steps down into the folder and up again is one that leads through it.

The one operation that sees the folder is the listing of the folder it is in (`exists_listed_eq`).
-/

namespace Scaffold.Disk

variable {α : Type} {x : Location} {base d d' : Disk} {p : Path} {l m : Location} {parts : List Text}
  {content : Bytes} {q : Place}

/-- Two disks that differ in one folder, whose content on the second one is as on a third disk. -/
structure Alike (x : Location) (base d d' : Disk) : Prop where
  home : d.home = base.home
  home' : d'.home = base.home
  plan : d'.plan = d.plan
  outside : ∀ l, ¬ x <+: l → d'.find? l = d.find? l
  inside : ∀ l, x <+: l → d'.find? l = base.find? l

/-- Two outcomes that are the same, on disks that differ in one folder. -/
structure SameOutcome (x : Location) (base : Disk) (r r' : Except Failure α × Disk) : Prop where
  result : r'.1 = r.1
  disk : Alike x base r.2 r'.2

lemma SameOutcome.exists_eq {r r' : Except Failure α × Disk} (h : SameOutcome x base r r') :
    ∃ o d₁ d₁', r = (o, d₁) ∧ r' = (o, d₁') ∧ Alike x base d₁ d₁' :=
  ⟨r.1, r.2, r'.2, rfl, Prod.ext h.result rfl, h.disk⟩

/-! ## Paths that lead past the folder -/

lemma not_prefix_foldl (hl : ¬ x <+: l) (hway : ∀ ps, ps <+: parts → x ≠ ps.foldl Path.followLexically l) :
    ¬ x <+: parts.foldl Path.followLexically l := by
  induction parts generalizing l with
  | nil => exact hl
  | cons part parts ih =>
    refine ih (fun hstep => ?_) fun ps hps => hway (part :: ps) ((List.prefix_cons_inj part).2 hps)
    rw [Path.followLexically] at hstep
    split at hstep
    · exact hl (hstep.trans (List.dropLast_prefix l))
    · rename_i hdots
      rcases List.prefix_concat_iff.1 hstep with hx | hx
      · refine hway [part] ((List.prefix_cons_inj part).2 List.nil_prefix) ?_
        rw [List.foldl_cons, Path.followLexically, if_neg hdots]
        exact hx
      · exact hl hx

lemma Alike.follow (h : Alike x base d d') (hl : ¬ x <+: l)
    (hway : ∀ ps, ps <+: parts → x ≠ ps.foldl Path.followLexically l) :
    d'.follow l parts = d.follow l parts :=
  follow_congr fun _ hps => h.outside _ (not_prefix_foldl hl fun qs hqs => hway qs (hqs.trans hps))

section Operations

variable (hx : x ≠ []) (hhome : ¬ x <+: base.home)

include hx hhome

lemma not_prefix_start (p : Path) : ¬ x <+: base.start p := by
  unfold start
  split
  · exact hhome
  · exact fun h => hx (List.prefix_nil.1 h)

lemma not_prefix_destination (hp : ¬ OnWay base p x) : ¬ x <+: base.destination p :=
  not_prefix_foldl (not_prefix_start hx hhome p) fun ps hps h => hp ⟨ps, hps, h⟩

/-- **A path leads to the same place** if it does not lead through the folder. -/
theorem Alike.place (h : Alike x base d d') (hp : ¬ OnWay base p x) : d'.place p = d.place p := by
  have hstart : d.start p = base.start p := by
    unfold start
    rw [h.home]
  have hstart' : d'.start p = base.start p := by
    unfold start
    rw [h.home']
  unfold Disk.place
  rw [hstart, hstart', h.follow (not_prefix_start hx hhome p) fun ps hps hfold => hp ⟨ps, hps, hfold⟩]

lemma Alike.not_prefix (h : Alike x base d d') (hp : ¬ OnWay base p x) (hq : d.place p = .ok q) :
    ¬ x <+: q.location := by
  rw [location_of_place hq, destination_of_home h.home]
  exact not_prefix_destination hx hhome hp

lemma Alike.holds (h : Alike x base d d') (hp : ¬ OnWay base p x) (test : Entry → Bool) :
    d'.holds p test = d.holds p test := by
  unfold Disk.holds Disk.entry
  rw [h.place hx hhome hp]

lemma Alike.readText (h : Alike x base d d') (hp : ¬ OnWay base p x) : d'.readText p = d.readText p := by
  unfold Disk.readText Disk.read Disk.entry
  rw [h.place hx hhome hp]

/-! ## Operations off the folder -/

omit hx hhome in
lemma Alike.planned (h : Alike x base d d') :
    ∃ outcome d₁ d₁', d.planned = (outcome, d₁) ∧ d'.planned = (outcome, d₁') ∧ Alike x base d₁ d₁' := by
  have houtcome : d'.planned.1 = d.planned.1 := by
    rw [Disk.planned, Disk.planned, h.plan]
    split <;> rfl
  refine ⟨d.planned.1, d.planned.2, d'.planned.2, rfl, Prod.ext houtcome rfl, ?_⟩
  refine ⟨?_, ?_, ?_, fun l hl => ?_, fun l hl => ?_⟩
  · rw [(sameEntries_planned d).home, h.home]
  · rw [(sameEntries_planned d').home, h.home']
  · rw [Disk.planned, Disk.planned, h.plan]
    split
    · exact h.plan
    · rfl
  · rw [(sameEntries_planned d').find?, (sameEntries_planned d).find?, h.outside l hl]
  · rw [(sameEntries_planned d').find?, h.inside l hl]

omit hx hhome in
lemma Alike.put (h : Alike x base d d') (hl : ¬ x <+: l) (e : Entry) :
    Alike x base (d.put l e) (d'.put l e) := by
  refine ⟨h.home, h.home', h.plan, fun l' hl' => ?_, fun l' hl' => ?_⟩
  · by_cases hsame : l = l'
    · subst hsame
      cases l with
      | nil => rfl
      | cons part parts => rw [find?_put_self _ _ (List.cons_ne_nil _ _), find?_put_self _ _ (List.cons_ne_nil _ _)]
    · rw [find?_put_of_ne _ _ hsame, find?_put_of_ne _ _ hsame, h.outside l' hl']
  · have hne : l ≠ l' := fun hsame => hl (hsame ▸ hl')
    rw [find?_put_of_ne _ _ hne, h.inside l' hl']

omit hx hhome in
lemma Alike.erase (h : Alike x base d d') (hl : ¬ x <+: l) : Alike x base (d.erase l) (d'.erase l) := by
  refine ⟨h.home, h.home', h.plan, fun l' hl' => ?_, fun l' hl' => ?_⟩
  · by_cases hsame : l = l'
    · subst hsame
      rcases eq_or_ne l [] with rfl | hne
      · rfl
      · rw [find?_erase _ hne, find?_erase _ hne, if_pos rfl, if_pos rfl]
    · rw [find?_erase_of_ne _ hsame, find?_erase_of_ne _ hsame, h.outside l' hl']
  · have hne : l ≠ l' := fun hsame => hl (hsame ▸ hl')
    rw [find?_erase_of_ne _ hne, h.inside l' hl']

lemma Alike.makeFolder (h : Alike x base d d') (hp : ¬ OnWay base p x) :
    SameOutcome x base (d.makeFolder p) (d'.makeFolder p) := by
  obtain ⟨outcome, d₁, d₁', hd, hd', hplanned⟩ := h.planned
  rw [Disk.makeFolder, Disk.makeFolder, hd, hd']
  cases outcome with
  | some e => exact ⟨rfl, hplanned⟩
  | none =>
    simp only [hplanned.place hx hhome hp]
    cases hplace : d₁.place p with
    | error f => exact ⟨rfl, hplanned⟩
    | ok q =>
      obtain ⟨l, found⟩ := q
      cases found with
      | some e => exact ⟨rfl, hplanned⟩
      | none => exact ⟨rfl, hplanned.put (hplanned.not_prefix hx hhome hp hplace) _⟩

lemma Alike.unlessFolder (h : Alike x base d d') (hp : ¬ OnWay base p x) (f : Failure) :
    SameOutcome x base (d.unlessFolder p f) (d'.unlessFolder p f) := by
  refine ⟨?_, ?_⟩
  · have hfolder : d'.isFolder p = d.isFolder p := h.holds hx hhome hp _
    unfold Disk.unlessFolder
    rw [hfolder]
    split
    · split <;> rfl
    · rfl
  · rw [unlessFolder_snd, unlessFolder_snd]
    exact h

lemma Alike.keepFolder (h : Alike x base d d') (hp : ¬ OnWay base p x) :
    SameOutcome x base (d.keepFolder p) (d'.keepFolder p) := by
  obtain ⟨r, d₁, d₁', hmake, hmake', hdisk⟩ := (h.makeFolder hx hhome hp).exists_eq
  rw [Disk.keepFolder, Disk.keepFolder, hmake, hmake']
  cases r with
  | ok _ => exact ⟨rfl, hdisk⟩
  | error f =>
    simp only
    split
    · exact ⟨rfl, hdisk⟩
    · exact hdisk.unlessFolder hx hhome hp f

lemma Alike.makeFoldersUp (h : Alike x base d d') {a : Anchor} (hp : ¬ OnWay base ⟨a, parts.reverse⟩ x) :
    SameOutcome x base (d.makeFoldersUp a parts) (d'.makeFoldersUp a parts) := by
  induction parts generalizing d d' with
  | nil => exact h.keepFolder hx hhome hp
  | cons part above ih =>
    have habove : ¬ OnWay base ⟨a, above.reverse⟩ x := by
      rw [List.reverse_cons] at hp
      exact fun hway => hp (onWay_of_append hway)
    obtain ⟨r, d₁, d₁', hmake, hmake', hdisk⟩ := (h.makeFolder hx hhome hp).exists_eq
    simp only [Disk.makeFoldersUp, hmake, hmake']
    cases r with
    | ok _ => exact ⟨rfl, hdisk⟩
    | error f =>
      simp only
      split
      · obtain ⟨r₁, d₂, d₂', hup, hup', hdisk₁⟩ := (ih hdisk habove).exists_eq
        rw [hup, hup']
        cases r₁ with
        | ok _ => exact Alike.keepFolder hx hhome hdisk₁ hp
        | error f => exact ⟨rfl, hdisk₁⟩
      · exact hdisk.unlessFolder hx hhome hp f

/-- **Folders are made alike.** -/
theorem Alike.makeFolders (h : Alike x base d d') (hp : ¬ OnWay base p x) :
    SameOutcome x base (d.makeFolders p) (d'.makeFolders p) := by
  refine h.makeFoldersUp hx hhome ?_
  rw [List.reverse_reverse]
  exact hp

omit hx hhome in
lemma Alike.temporary (h : Alike x base d d') (p : Path) :
    d.temporary p = base.temporary p ∧ d'.temporary p = base.temporary p := by
  unfold Disk.temporary
  rw [h.home, h.home']
  exact ⟨rfl, rfl⟩

lemma Alike.createNew (h : Alike x base d d') (hp : ¬ OnWay base p x) :
    SameOutcome x base (d.createNew p) (d'.createNew p) := by
  obtain ⟨outcome, d₁, d₁', hd, hd', hplanned⟩ := h.planned
  rw [Disk.createNew, Disk.createNew, hd, hd']
  cases outcome with
  | some e => exact ⟨rfl, hplanned⟩
  | none =>
    simp only [hplanned.place hx hhome hp]
    cases hplace : d₁.place p with
    | error f => exact ⟨rfl, hplanned⟩
    | ok q =>
      obtain ⟨l, found⟩ := q
      cases found with
      | some e => exact ⟨rfl, hplanned⟩
      | none => exact ⟨rfl, hplanned.put (hplanned.not_prefix hx hhome hp hplace) _⟩

omit hx hhome in
lemma Alike.fill (h : Alike x base d d') (hl : ¬ x <+: l) (content : Bytes) :
    SameOutcome x base (d.fill l content) (d'.fill l content) := by
  obtain ⟨outcome, d₁, d₁', hd, hd', hplanned⟩ := h.planned
  rw [Disk.fill, Disk.fill, hd, hd']
  cases outcome with
  | some e => exact ⟨rfl, hplanned⟩
  | none => exact ⟨rfl, hplanned.put hl _⟩

lemma Alike.moveTo (h : Alike x base d d') (hl : ¬ x <+: l) (hp : ¬ OnWay base p x) (temp : Path) :
    SameOutcome x base (d.moveTo l temp p) (d'.moveTo l temp p) := by
  obtain ⟨outcome, d₁, d₁', hd, hd', hplanned⟩ := h.planned
  rw [Disk.moveTo, Disk.moveTo, hd, hd']
  cases outcome with
  | some e => exact ⟨rfl, hplanned⟩
  | none =>
    simp only [hplanned.place hx hhome hp, hplanned.outside l hl]
    cases hplace : d₁.place p with
    | error f => cases f <;> exact ⟨rfl, hplanned⟩
    | ok q =>
      obtain ⟨target, found⟩ := q
      have htarget := hplanned.not_prefix hx hhome hp hplace
      cases d₁.find? l with
      | none =>
        cases found with
        | none => exact ⟨rfl, hplanned⟩
        | some entry => cases entry <;> exact ⟨rfl, hplanned⟩
      | some e =>
        have hmoved := (hplanned.erase hl).put htarget e
        cases found with
        | none => exact ⟨rfl, hmoved⟩
        | some entry =>
          cases entry with
          | folder => exact ⟨rfl, hplanned⟩
          | file c => exact ⟨rfl, hmoved⟩

/-- **Files are written alike.** -/
theorem Alike.writeAtomic (h : Alike x base d d') (hp : ¬ OnWay base p x)
    (htemporary : ¬ OnWay base (base.temporary p) x) (content : Bytes) :
    SameOutcome x base (d.writeAtomic p content) (d'.writeAtomic p content) := by
  obtain ⟨htemp, htemp'⟩ := h.temporary p
  obtain ⟨r, d₁, d₁', hcreate, hcreate', hdisk₁⟩ := (h.createNew hx hhome htemporary).exists_eq
  unfold Disk.writeAtomic
  simp only [htemp, htemp', hcreate, hcreate']
  cases r with
  | error f => exact ⟨rfl, hdisk₁⟩
  | ok l =>
    have hl : ¬ x <+: l := by
      have hplace := place_of_createNew hcreate
      exact h.not_prefix hx hhome htemporary hplace
    obtain ⟨r, d₂, d₂', hfill, hfill', hdisk₂⟩ := (hdisk₁.fill hl content).exists_eq
    simp only [hfill, hfill']
    cases r with
    | error f => exact ⟨rfl, hdisk₂.erase hl⟩
    | ok _ =>
      obtain ⟨r, d₃, d₃', hmove, hmove', hdisk₃⟩ :=
        (hdisk₂.moveTo hx hhome hl hp (base.temporary p)).exists_eq
      simp only [hmove, hmove']
      cases r with
      | error f => exact ⟨rfl, hdisk₃.erase hl⟩
      | ok _ => exact ⟨rfl, hdisk₃⟩

end Operations

/-! ## The folder in a listing -/

/-- **A listing** has the folder in between the others. -/
theorem exists_listed_eq {name : Text} (htree : d.IsTree) (htree' : d'.IsTree)
    (hnone : d.find? (m ++ [name]) = none) (hfolder : d'.find? (m ++ [name]) = some .folder)
    (hsame : ∀ l, ¬ m ++ [name] <+: l → d'.find? l = d.find? l) :
    ∃ before after, d'.listed m = before ++ name :: after ∧ d.listed m = before ++ after := by
  have hother : ∀ n, n ≠ name → d'.find? (m ++ [n]) = d.find? (m ++ [n]) := by
    refine fun n hne => hsame _ fun hprefix => hne ?_
    have heq := hprefix.eq_of_length (by simp)
    exact (List.singleton_inj.1 (List.append_cancel_left heq)).symm
  -- a listing is in order and names nothing twice, so less the folder the two are equal
  have hrest : (d'.listed m).filter (fun n => n ≠ name) = (d.listed m).filter fun _ => true := by
    refine listed_filter_eq htree htree' fun n => ?_
    simp only [mem_listed, decide_eq_true_eq, and_true]
    constructor
    · rintro ⟨hn, hne⟩
      rwa [← hother n hne]
    · intro hn
      have hne : n ≠ name := by
        rintro rfl
        rw [hnone] at hn
        cases hn
      exact ⟨(hother n hne).trans hn, hne⟩
  obtain ⟨before, after, hlisted⟩ := List.append_of_mem (mem_listed.2 hfolder)
  have hnodup := htree'.nodup_listed m
  rw [hlisted, List.nodup_middle, List.nodup_cons, List.mem_append, not_or] at hnodup
  refine ⟨before, after, hlisted, ?_⟩
  have hkept : ∀ names : List Text, name ∉ names → names.filter (fun n => n ≠ name) = names := by
    refine fun names hnames => List.filter_eq_self.2 fun n hn => decide_eq_true ?_
    rintro rfl
    exact hnames hn
  rw [List.filter_true, hlisted, List.filter_append, List.filter_cons_of_neg (by simp), hkept _ hnodup.1.1,
    hkept _ hnodup.1.2] at hrest
  exact hrest.symm

end Scaffold.Disk
