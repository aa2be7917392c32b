import Scaffold.Proofs.Disk.Changes
import Scaffold.Proofs.Disk.Writable
import Scaffold.Proofs.World.Documents

/-!
# Paths that go down from a folder that is there

A path whose steps up are all taken through folders that are there goes down from one of them
(`Descends`); a path without two dots always does.  The folders of such a path are made if its names are
short enough and no file is in its way, and only then (`exists_makeFolders`, `of_makeFolders`), and
nothing that is beside them is touched (`find?_makeFolders`).
-/

namespace Scaffold.Disk

variable {d d' : Disk} {p : Path} {a : Anchor} {l m : Location} {ps qs above below parts : List Text}
  {part : Text} {q : Place} {f : Failure}

/-! ## Paths that are short enough -/

/-- A path that the system takes: it does not hold the character that ends paths, and neither it nor any
of its names is too long. -/
structure Fits (p : Path) : Prop where
  terminator : p.hasTerminator = false
  length : ¬ pathLimit ≤ byteLength p.text
  names : ∀ part ∈ p.parts, part ≠ ['.', '.'] → ¬ nameLimit < byteLength part

lemma fits_of_place (h : d.place p = .ok q) : Fits p := by
  obtain ⟨hterminator, hlength, hfollow⟩ := place_eq_ok_iff.1 h
  exact ⟨hterminator, hlength, length_of_follow hfollow⟩

lemma Fits.of_append (h : Fits ⟨a, ps ++ qs⟩) : Fits ⟨a, ps⟩ := by
  refine ⟨?_, not_long_of_append h.length, fun part hpart => h.names part (List.mem_append_left _ hpart)⟩
  have hterminator := h.terminator
  simp only [Path.hasTerminator, List.any_append, Bool.or_eq_false_iff] at hterminator
  exact hterminator.1

lemma fits_nil (a : Anchor) : Fits ⟨a, []⟩ :=
  ⟨rfl, by cases a <;> decide, fun _ h => absurd h List.not_mem_nil⟩

/-- The end of a path in a folder that is there. -/
lemma place_child (h : d.place ⟨a, ps⟩ = .ok ⟨m, some .folder⟩) (hdots : part ≠ ['.', '.'])
    (hfits : Fits ⟨a, ps ++ [part]⟩) :
    d.place ⟨a, ps ++ [part]⟩ = .ok ⟨m ++ [part], d.find? (m ++ [part])⟩ := by
  have hlimit := hfits.names part (by simp) hdots
  refine place_eq_ok_iff.2 ⟨hfits.terminator, hfits.length, ?_⟩
  have hstart : d.start ⟨a, ps ++ [part]⟩ = d.start ⟨a, ps⟩ := rfl
  rw [hstart, follow_append (place_eq_ok_iff.1 h).2.2 (List.cons_ne_nil _ _), Disk.follow, if_neg hdots,
    if_neg hlimit]

/-! ## Files in the way -/

/-- No file is in the way of a path. -/
def IsClear (d : Disk) (p : Path) : Prop := ∀ l, OnWay d p l → ∀ c, d.find? l ≠ some (.file c)

lemma onWay_of_append (h : OnWay d ⟨a, ps⟩ l) : OnWay d ⟨a, ps ++ qs⟩ l := by
  obtain ⟨parts, hparts, rfl⟩ := h
  exact ⟨parts, hparts.trans (List.prefix_append _ _), rfl⟩

lemma IsClear.of_append (h : IsClear d ⟨a, ps ++ qs⟩) : IsClear d ⟨a, ps⟩ :=
  fun l hl => h l (onWay_of_append hl)

/-- A path that does not lead on meets a file. -/
lemma exists_file_of_follow (h : d.follow l parts = .error .notDirectory) :
    ∃ ps, ps <+: parts ∧ ∃ c, d.find? (ps.foldl Path.followLexically l) = some (.file c) := by
  fun_induction Disk.follow d l parts with
  | case1 => cases h
  | case2 l rest ih =>
    obtain ⟨ps, hps, c, hc⟩ := ih h
    refine ⟨['.', '.'] :: ps, (List.prefix_cons_inj _).2 hps, c, ?_⟩
    rwa [List.foldl_cons, Path.followLexically, if_pos rfl]
  | case3 => cases h
  | case4 => cases h
  | case5 l part hdots hlimit next more rest hfolder ih =>
    obtain ⟨ps, hps, c, hc⟩ := ih h
    refine ⟨part :: ps, (List.prefix_cons_inj _).2 hps, c, ?_⟩
    rwa [List.foldl_cons, Path.followLexically, if_neg hdots]
  | case6 l part hdots hlimit next c more rest hfile =>
    refine ⟨[part], (List.prefix_cons_inj _).2 (List.nil_prefix), c, ?_⟩
    rwa [List.foldl_cons, Path.followLexically, if_neg hdots]
  | case7 => cases h

/-- A path with nothing in its way can only lead nowhere because a folder is missing. -/
lemma failure_of_clear (hfits : Fits p) (hclear : IsClear d p) (h : d.place p = .error f) :
    f = failure .noEntry p := by
  rw [place, hfits.terminator, if_neg Bool.false_ne_true, if_neg hfits.length] at h
  split at h
  · cases h
  · rename_i e hfollow
    obtain rfl := (Except.error.inj h).symm
    rcases errno_of_follow hfits.names hfollow with rfl | rfl
    · rfl
    · obtain ⟨ps, hps, c, hc⟩ := exists_file_of_follow hfollow
      exact absurd hc (hclear _ ⟨ps, hps, rfl⟩ c)

/-! ## Making the folders -/

lemma makeFolder_of_free (hplan : d.plan = []) (h : d.place p = .ok ⟨l, none⟩) :
    d.makeFolder p = (.ok (), d.put l .folder) := by
  rw [makeFolder, planned_of_plan hplan]
  simp only [h]

/-- A folder is made, or is there already. -/
lemma exists_keepFolder {found : Option Entry} (hplan : d.plan = []) (h : d.place p = .ok ⟨l, found⟩)
    (hfile : ∀ c, found ≠ some (.file c)) : ∃ d', d.keepFolder p = (.ok (), d') ∧ d'.plan = [] := by
  cases found with
  | none =>
    refine ⟨d.put l .folder, ?_, hplan⟩
    rw [keepFolder, makeFolder_of_free hplan h]
  | some e =>
    cases e with
    | file c => exact absurd rfl (hfile c)
    | folder =>
      refine ⟨d, ?_, hplan⟩
      rw [keepFolder, makeFolder_of_folder hplan h]
      simp only [unlessFolder, failure, isFolder_of_place h]
      rfl

/-- No folder above is made where the path leads on. -/
lemma makeFoldersUp_of_place (hplan : d.plan = [])
    (h : d.place ⟨a, (part :: above).reverse⟩ = .ok q) :
    d.makeFoldersUp a (part :: above) = d.keepFolder ⟨a, (part :: above).reverse⟩ := by
  obtain ⟨l, found⟩ := q
  simp only [makeFoldersUp, keepFolder]
  cases found with
  | none => simp only [makeFolder_of_free hplan h]
  | some e =>
    have hexists : d.makeFolder ⟨a, (part :: above).reverse⟩ =
        (.error (failure .fileExists ⟨a, (part :: above).reverse⟩), d) := by
      rw [makeFolder, planned_of_plan hplan]
      simp only [h]
    simp only [hexists]
    rfl

/-- **Folders are made** below one that is there, if nothing is in the way. -/
theorem exists_makeFolders (hplan : d.plan = []) (habove : d.place ⟨a, above⟩ = .ok ⟨m, some .folder⟩)
    (hdots : ['.', '.'] ∉ below) (hfits : Fits ⟨a, above ++ below⟩) (hclear : IsClear d ⟨a, above ++ below⟩) :
    ∃ d', d.makeFolders ⟨a, above ++ below⟩ = (.ok (), d') ∧ d'.plan = [] := by
  induction below using List.reverseRecOn with
  | nil =>
    rw [List.append_nil]
    exact ⟨d, makeFolders_of_folder hplan habove, hplan⟩
  | append_singleton below part ih =>
    rw [← List.append_assoc] at hfits hclear ⊢
    simp only [List.mem_append, List.mem_singleton, not_or] at hdots
    have hup : (above ++ below ++ [part]).reverse = part :: (above ++ below).reverse := by simp
    have hdown : (part :: (above ++ below).reverse).reverse = above ++ below ++ [part] := by simp
    have hend : ∀ c, d.find? (d.destination ⟨a, above ++ below ++ [part]⟩) ≠ some (.file c) :=
      hclear _ (onWay_destination d _)
    rw [makeFolders, hup]
    cases hplace : d.place ⟨a, above ++ below ++ [part]⟩ with
    | ok place =>
      obtain ⟨l, found⟩ := place
      have hfound : found = d.find? (d.destination ⟨a, above ++ below ++ [part]⟩) :=
        location_of_place hplace ▸ found?_of_place hplace
      rw [makeFoldersUp_of_place hplan (hdown ▸ hplace), hdown]
      exact exists_keepFolder hplan hplace (hfound ▸ hend)
    | error f =>
      obtain rfl := failure_of_clear hfits hclear hplace
      have hmissing : d.makeFolder ⟨a, above ++ below ++ [part]⟩ =
          (.error (failure .noEntry ⟨a, above ++ below ++ [part]⟩), d) := by
        rw [makeFolder, planned_of_plan hplan]
        simp only [hplace]
      -- the folder above is made first, and then there is still no file at the end
      obtain ⟨d₁, hmake, hplan₁⟩ := ih hdots.1 hfits.of_append hclear.of_append
      have hchanges : Changes (fun _ => False) (OnWay d ⟨a, above ++ below⟩) d d₁ := by
        have hmade : Changes (fun _ => False) (OnWay d ⟨a, above ++ below⟩) d
            (d.makeFolders ⟨a, above ++ below⟩).2 := changes_makeFolders _ d
        rwa [hmake] at hmade
      obtain ⟨m₁, hfolder⟩ := place_of_makeFolders hmake
      have hplace₁ := place_child hfolder (Ne.symm hdots.2) hfits
      have hfile : ∀ c, d₁.find? (m₁ ++ [part]) ≠ some (.file c) := by
        intro c hc
        have hdestination : m₁ ++ [part] = d.destination ⟨a, above ++ below ++ [part]⟩ :=
          (location_of_place hplace₁).trans (destination_of_home hchanges.home _)
        exact hend c (hdestination ▸ (hchanges.file_before hc).resolve_left not_false)
      obtain ⟨d₂, hkeep, hplan₂⟩ := exists_keepFolder hplan₁ hplace₁ hfile
      rw [makeFolders] at hmake
      refine ⟨d₂, ?_, hplan₂⟩
      simp only [makeFoldersUp, hdown, hmissing, failure, Failure.isNoEntry, beq_self_eq_true, if_true,
        hmake, hkeep]

/-- Folders that were made had nothing in their way. -/
theorem of_makeFolders (htree : d.IsTree) (hnames : HasNames p) (h : d.makeFolders p = (.ok (), d')) :
    Fits p ∧ IsClear d p := by
  obtain ⟨m, hplace⟩ := place_of_makeFolders h
  have hextends := extends_makeFolders d hnames
  rw [h] at hextends
  refine ⟨fits_of_place hplace, ?_⟩
  rintro l ⟨ps, ⟨qs, hqs⟩, rfl⟩ c hc
  have hfile : d'.find? (d.destination ⟨p.anchor, ps⟩) = some (.file c) := hextends.leaves.file _ c trivial hc
  -- the way leads through folders
  have hfolder : ∃ m, d'.place ⟨p.anchor, ps⟩ = .ok ⟨m, some .folder⟩ := by
    cases qs with
    | nil =>
      rw [List.append_nil] at hqs
      rw [hqs]
      exact ⟨m, hplace⟩
    | cons part qs =>
      refine exists_place_of_append (hextends.tree htree) (List.cons_ne_nil part qs) (q := ⟨m, some .folder⟩) ?_
      rw [hqs]
      exact hplace
  obtain ⟨m', hm'⟩ := hfolder
  have hlocation : m' = d.destination ⟨p.anchor, ps⟩ :=
    (location_of_place hm').trans (destination_of_home hextends.leaves.home _)
  have hfound : some Entry.folder = d'.find? m' := found?_of_place hm'
  rw [hlocation, hfile] at hfound
  cases hfound

/-! ## Paths that go down -/

lemma foldl_followLexically (h : ['.', '.'] ∉ parts) (l : Location) :
    parts.foldl Path.followLexically l = l ++ parts := by
  induction parts generalizing l with
  | nil => exact (List.append_nil l).symm
  | cons part parts ih =>
    rw [List.mem_cons, not_or] at h
    rw [List.foldl_cons, Path.followLexically, if_neg (Ne.symm h.1), ih h.2, List.append_assoc]
    rfl

lemma destination_below (h : ['.', '.'] ∉ below) :
    d.destination ⟨a, above ++ below⟩ = d.destination ⟨a, above⟩ ++ below := by
  rw [destination, List.foldl_append, foldl_followLexically h]
  rfl

lemma destination_child {part : Text} (h : part ≠ ['.', '.']) :
    d.destination ⟨a, parts ++ [part]⟩ = d.destination ⟨a, parts⟩ ++ [part] :=
  destination_below fun hmem => h (List.mem_singleton.1 hmem).symm

/-- A path that goes down from a folder that is there: no step up comes later. -/
def Descends (d : Disk) (p : Path) : Prop :=
  ∃ above below, p.parts = above ++ below ∧ ['.', '.'] ∉ below ∧
    ∃ m, d.place ⟨p.anchor, above⟩ = .ok ⟨m, some .folder⟩

lemma IsTree.descends (htree : d.IsTree) (h : ['.', '.'] ∉ p.parts) : d.Descends p := by
  refine ⟨[], p.parts, rfl, h, d.start p, place_eq_ok_iff.2 ⟨rfl, (fits_nil p.anchor).length, ?_⟩⟩
  have hstart : d.start ⟨p.anchor, []⟩ = d.start p := rfl
  rw [hstart, Disk.follow, htree.start p]

/-- A path that goes down ends at the folder it starts from, or with a step down. -/
lemma Descends.cases (h : d.Descends p) : d.find? (d.destination p) = some .folder ∨
    ∃ above below part m, p = ⟨p.anchor, above ++ below ++ [part]⟩ ∧ p.parent = ⟨p.anchor, above ++ below⟩ ∧
      ['.', '.'] ∉ below ∧ part ≠ ['.', '.'] ∧ d.place ⟨p.anchor, above⟩ = .ok ⟨m, some .folder⟩ := by
  obtain ⟨above, below, hparts, hdots, m, habove⟩ := h
  obtain ⟨a, parts⟩ := p
  obtain rfl : parts = above ++ below := hparts
  rcases List.eq_nil_or_concat' below with rfl | ⟨below, part, rfl⟩
  · rw [List.append_nil]
    exact .inl (location_of_place habove ▸ (found?_of_place habove).symm)
  · rw [List.mem_append, List.mem_singleton, not_or] at hdots
    have hparent : (⟨a, above ++ (below ++ [part])⟩ : Path).parent = ⟨a, above ++ below⟩ := by
      rw [Path.parent, ← List.append_assoc, List.dropLast_concat]
    exact .inr ⟨above, below, part, m, by rw [List.append_assoc], hparent, hdots.1, Ne.symm hdots.2, habove⟩

lemma Descends.of_leaves {kept : Location → Prop} (h : d.Descends p) (hleaves : Leaves kept d d') :
    d'.Descends p := by
  obtain ⟨above, below, hparts, hdots, m, hplace⟩ := h
  have hplace' := hleaves.place hplace
  simp only [hleaves.folder m (found?_of_place hplace).symm] at hplace'
  exact ⟨above, below, hparts, hdots, m, hplace'⟩

/-- What a path goes through is on the disk, or is above its end. -/
lemma folder_of_onWay (htree : d.IsTree) (habove : d.place ⟨a, above⟩ = .ok ⟨m, some .folder⟩)
    (hdots : ['.', '.'] ∉ below) (hl : OnWay d ⟨a, above ++ below⟩ l)
    (hlength : (d.destination ⟨a, above ++ below⟩).length < l.length) : d.find? l = some .folder := by
  obtain ⟨ps, hps, rfl⟩ := hl
  rcases List.prefix_or_prefix_of_prefix hps (List.prefix_append above below) with ⟨qs, hqs⟩ | ⟨qs, rfl⟩
  · have hfolder : ∃ m', d.place ⟨a, ps⟩ = .ok ⟨m', some .folder⟩ := by
      cases qs with
      | nil =>
        rw [List.append_nil] at hqs
        exact ⟨m, hqs ▸ habove⟩
      | cons part qs => exact exists_place_of_append htree (List.cons_ne_nil part qs) (hqs ▸ habove)
    obtain ⟨m', hm'⟩ := hfolder
    exact location_of_place hm' ▸ (found?_of_place hm').symm
  · have hbelow : qs <+: below := (List.prefix_append_right_inj above).1 hps
    rw [destination_below hdots, destination_below fun h => hdots (hbelow.subset h), List.length_append,
      List.length_append] at hlength
    exact absurd hlength (Nat.not_lt.2 (Nat.add_le_add_left hbelow.length_le _))

/-- Making the folders for a file leaves what is beside them. -/
lemma find?_makeFolders (htree : d.IsTree) (habove : d.place ⟨a, above⟩ = .ok ⟨m, some .folder⟩)
    (hdots : ['.', '.'] ∉ below) (part : Text) :
    (d.makeFolders ⟨a, above ++ below⟩).2.find? (d.destination ⟨a, above ++ below⟩ ++ [part]) =
      d.find? (d.destination ⟨a, above ++ below⟩ ++ [part]) := by
  have hchanges : Changes (fun _ => False) (OnWay d ⟨a, above ++ below⟩) d
      (d.makeFolders ⟨a, above ++ below⟩).2 := changes_makeFolders _ d
  have hentry := hchanges.entry (d.destination ⟨a, above ++ below⟩ ++ [part])
  have hfolder := folder_of_onWay (l := d.destination ⟨a, above ++ below⟩ ++ [part]) htree habove hdots
  generalize d.find? (d.destination ⟨a, above ++ below⟩ ++ [part]) = before at hentry hfolder ⊢
  generalize (d.makeFolders ⟨a, above ++ below⟩).2.find? _ = after at hentry ⊢
  cases hentry with
  | same => rfl
  | written hfile _ => exact hfile.elim
  | made hway => cases hfolder hway (by simp)

/-- A path with a folder to start from leads to what is at its end. -/
lemma place_of_entry {e : Entry} (htree : d.IsTree) (habove : d.place ⟨a, above⟩ = .ok ⟨m, some .folder⟩)
    (hdots : ['.', '.'] ∉ below) (hfits : Fits ⟨a, above ++ below⟩)
    (he : d.find? (d.destination ⟨a, above ++ below⟩) = some e) :
    d.place ⟨a, above ++ below⟩ = .ok ⟨d.destination ⟨a, above ++ below⟩, some e⟩ := by
  induction below using List.reverseRecOn generalizing e with
  | nil =>
    rw [List.append_nil] at he ⊢
    have hm : m = d.destination ⟨a, above⟩ := location_of_place habove
    have hfolder : some Entry.folder = d.find? m := found?_of_place habove
    rw [habove, ← he, ← hm, ← hfolder]
  | append_singleton below part ih =>
    rw [← List.append_assoc] at hfits he ⊢
    simp only [List.mem_append, List.mem_singleton, not_or] at hdots
    rw [destination_child (Ne.symm hdots.2)] at he ⊢
    have hfolder := ih hdots.1 hfits.of_append (htree.parent _ _ _ he)
    rw [place_child hfolder (Ne.symm hdots.2) hfits, he]

end Scaffold.Disk
