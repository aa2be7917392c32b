import Scaffold.Proofs.Generation.Attempts

/-!
# Every file of a module is accounted for

Writing the folder of a module goes on whatever fails, and says in the end what became of each file.  The
plan of the disk lets any of its operations fail, so the account holds for every way in which the folders,
the temporary files, their contents and the renamings can fail together (`write_accounts`): nothing happens
where there is a folder already, a folder that cannot be made is the only error, and otherwise there is one
outcome for each file, in order.  On the disk nothing differs from before but the files that are recorded
and the folders on the way to files, so no temporary file is left.

The account needs the files to be in different places.  They are, whatever the module is called
(`eq_of_destination_artifactPath`), but the folders on the way may be in the place of a file if its path
leads through that place and back (`not_untouched_on_the_way`).

Whether a folder or a helper is there is asked by following its path, and a path that steps out of a missing
folder leads to nothing until that folder is made (`Disk.IsHidden`).  Nothing is said about a folder or a
helper that is hidden in this way.
-/

namespace Scaffold

/-! ## Where the files of a module are -/

/-- A text without separators belongs to the last piece of the text before it. -/
lemma Text.exists_splitOn_append (c : Char) (t : Text) :
    ∃ pieces last, Text.splitOn c t = pieces ++ [last] ∧
      ∀ rest, c ∉ rest → Text.splitOn c (t ++ rest) = pieces ++ [last ++ rest] := by
  induction t with
  | nil => exact ⟨[], [], rfl, fun rest hrest => Text.splitOn_of_not_mem hrest⟩
  | cons d t ih =>
    obtain ⟨pieces, last, hsplit, happend⟩ := ih
    by_cases hd : d = c
    · refine ⟨[] :: pieces, last, ?_, fun rest hrest => ?_⟩
      · rw [Text.splitOn, if_pos hd, hsplit, List.cons_append]
      · rw [List.cons_append, Text.splitOn, if_pos hd, happend rest hrest, List.cons_append]
    · cases pieces with
      | nil =>
        refine ⟨[], d :: last, ?_, fun rest hrest => ?_⟩
        · rw [Text.splitOn, if_neg hd, hsplit]
          rfl
        · rw [List.cons_append, Text.splitOn, if_neg hd, happend rest hrest]
          rfl
      | cons piece pieces =>
        refine ⟨(d :: piece) :: pieces, last, ?_, fun rest hrest => ?_⟩
        · rw [Text.splitOn, if_neg hd, hsplit]
          rfl
        · rw [List.cons_append, Text.splitOn, if_neg hd, happend rest hrest]
          rfl

namespace Path

/-- Where a text starts is decided before its first dot. -/
lemma anchorOf_append (t rest : Text) : anchorOf (t ++ '.' :: rest) = anchorOf (t ++ ['.']) := by
  unfold anchorOf
  match t with
  | [] => rfl
  | [c] => by_cases hc : c = '/' <;> simp [hc]
  | [c, d] => by_cases hc : c = '/' <;> by_cases hd : d = '/' <;> simp [hc, hd]
  | c :: d :: e :: t =>
    by_cases hc : c = '/' <;> by_cases hd : d = '/' <;> by_cases he : e = '/' <;> simp [hc, hd, he]

/-- The pieces of a text that are no parts of its path are empty or a dot. -/
lemma terminator_not_mem_of_isPart {piece : Text} (h : isPart piece = true → terminator ∉ piece) :
    terminator ∉ piece := by
  cases hpart : isPart piece with
  | true => exact h hpart
  | false =>
    rw [isPart, Bool.and_eq_false_iff, Bool.not_eq_false', List.isEmpty_iff, bne_eq_false_iff_eq] at hpart
    obtain rfl | rfl := hpart <;> decide

lemma join_eq (p q : Path) : p.join q =
    ⟨if q.anchor = .here then p.anchor else q.anchor, (if q.anchor = .here then p.parts else []) ++ q.parts⟩ := by
  obtain ⟨anchor, parts⟩ := q
  cases anchor <;> rfl

end Path

/-- There is something in the place that a path spells, but the path leads to nothing: it steps out of a folder
that is missing. -/
def Disk.IsHidden (d : Disk) (p : Path) : Prop :=
  d.isPresent p = .ok false ∧ (d.find? (d.destination p)).isSome = true

lemma Disk.find?_eq_none_of_not_isHidden {d : Disk} {p : Path} (h : d.isPresent p = .ok false)
    (hplain : ¬ d.IsHidden p) : d.find? (d.destination p) = none := by
  rw [← Option.not_isSome_iff_eq_none]
  exact fun hthere => hplain ⟨h, hthere⟩

namespace ModuleFolder

variable {s : Settings} {n : Names} {files : List (Artifact × Text)} {upload : Bool} {w w' w₁ : World}
  {r : FolderResult} {d : Disk} {a b : Artifact}

/-- The names of the files of a module differ in their last piece. -/
lemma exists_ofText_fileName (n : Names) : ∃ pieces last,
    (Path.ofText n.folder).parts = (pieces ++ [last]).filter Path.isPart ∧
      ∀ a, Path.ofText (n.fileName a) = ⟨Path.anchorOf (n.folder ++ ['.']),
        pieces.filter Path.isPart ++ [Rebuild.sourceName last a.name]⟩ := by
  obtain ⟨pieces, last, hsplit, happend⟩ := Text.exists_splitOn_append '/' n.folder
  refine ⟨pieces, last, by rw [Path.ofText, hsplit], fun a => ?_⟩
  have hslash : '/' ∉ '.' :: a.name ++ (".ts" : Text) := by cases a <;> decide
  have hpart : Path.isPart (Rebuild.sourceName last a.name) = true :=
    Rebuild.isPart_of_length (Nat.lt_of_succ_lt (Rebuild.length_sourceName _ _))
  have hname : n.fileName a = n.folder ++ ('.' :: a.name ++ ".ts") := by
    rw [fileName_eq, Rebuild.sourceName, List.append_assoc]
  have hlast : last ++ ('.' :: a.name ++ ".ts") = Rebuild.sourceName last a.name := by
    rw [Rebuild.sourceName, List.append_assoc]
  rw [Path.ofText, hname, happend _ hslash, List.cons_append, Path.anchorOf_append, List.filter_append,
    ← List.cons_append, hlast, List.filter_cons_of_pos hpart, List.filter_nil]

/-- The files of a module are in one folder, and the last part of their names is that of their kind.  This
holds for all names: with slashes in it, the folder of the files is not that of the module. -/
lemma exists_artifactPath (s : Settings) (n : Names) : ∃ anchor above last,
    (∀ a, artifactPath s n a = ⟨anchor, above ++ [Rebuild.sourceName last a.name]⟩) ∧
      ((path s n).hasTerminator = false →
        (∀ part ∈ above, Path.terminator ∉ part) ∧ Path.terminator ∉ last) := by
  obtain ⟨pieces, last, hfolder, hfile⟩ := exists_ofText_fileName n
  have hpath : ∀ a, artifactPath s n a =
      ⟨if Path.anchorOf (n.folder ++ ['.']) = .here then (path s n).anchor
        else Path.anchorOf (n.folder ++ ['.']),
        ((if Path.anchorOf (n.folder ++ ['.']) = .here then (path s n).parts else []) ++
          pieces.filter Path.isPart) ++ [Rebuild.sourceName last a.name]⟩ := fun a => by
    rw [artifactPath, Path.child, hfile, Path.join_eq, List.append_assoc]
  refine ⟨_, _, last, hpath, fun hterm => ?_⟩
  have hparts := Disk.hasTerminator_eq_false_iff.1 hterm
  have hpieces : ∀ part ∈ (pieces ++ [last]).filter Path.isPart, Path.terminator ∉ part := by
    intro part hpart
    apply hparts part
    rw [path, Path.child, Path.join_eq, hfolder]
    exact List.mem_append_right _ hpart
  rw [List.filter_append] at hpieces
  constructor
  · intro part hpart
    rcases List.mem_append.1 hpart with hpart | hpart
    · split at hpart
      · exact hparts part hpart
      · cases hpart
    · exact hpieces part (List.mem_append_left _ hpart)
  · exact Path.terminator_not_mem_of_isPart fun hlast =>
      hpieces last (List.mem_append_right _ (List.mem_filter.2 ⟨List.mem_singleton_self last, hlast⟩))

lemma hasTerminator_artifactPath (h : (path s n).hasTerminator = false) (a : Artifact) :
    (artifactPath s n a).hasTerminator = false := by
  obtain ⟨anchor, above, last, hpath, hterm⟩ := exists_artifactPath s n
  obtain ⟨habove, hlast⟩ := hterm h
  have hkind : Path.terminator ∉ '.' :: a.name ++ (".ts" : Text) := by cases a <;> decide
  rw [hpath, Disk.hasTerminator_eq_false_iff]
  intro part hpart
  rcases List.mem_append.1 hpart with hpart | hpart
  · exact habove part hpart
  · rw [List.mem_singleton.1 hpart, Rebuild.sourceName, List.append_assoc, List.mem_append, not_or]
    exact ⟨hlast, hkind⟩

lemma sourceName_ne_dots (last : Text) (a : Artifact) : Rebuild.sourceName last a.name ≠ ['.', '.'] := by
  intro hdots
  have hlength := Rebuild.length_sourceName last a.name
  rw [hdots] at hlength
  exact absurd hlength (Nat.lt_irrefl 2)

/-- Different files of a module are in different places, whatever its name is. -/
lemma eq_of_destination_artifactPath (h : d.destination (artifactPath s n a) = d.destination (artifactPath s n b)) :
    a = b := by
  obtain ⟨anchor, above, last, hpath, -⟩ := exists_artifactPath s n
  rw [hpath, hpath, Disk.destination_child (sourceName_ne_dots last a),
    Disk.destination_child (sourceName_ne_dots last b)] at h
  have hname : Rebuild.sourceName last a.name = Rebuild.sourceName last b.name := by simpa using h
  rw [Rebuild.sourceName, Rebuild.sourceName] at hname
  exact Artifact.name_injective
    (List.cons.inj (List.append_cancel_left (List.append_cancel_right hname))).2

/-- The helper is not in the place of a file of a module: its name has one dot less. -/
lemma destination_artifactPath_ne_helperPath (s : Settings) (n : Names) (a : Artifact) (d : Disk) :
    d.destination (artifactPath s n a) ≠ d.destination (helperPath s) := by
  intro h
  obtain ⟨anchor, above, last, hpath, -⟩ := exists_artifactPath s n
  have hhelper : helperPath s = ⟨s.helpersPath.anchor, s.helpersPath.parts ++ [helperName]⟩ := rfl
  rw [hpath, hhelper, Disk.destination_child (sourceName_ne_dots last a), Disk.destination_child (by decide)] at h
  have hname : Rebuild.sourceName last a.name = helperName :=
    List.singleton_inj.1 (List.append_inj_right' h rfl)
  have hends : last ++ '.' :: a.name ++ ".ts".toList = "fileHelper".toList ++ ".ts".toList := hname
  have hstem : last ++ '.' :: a.name = "fileHelper".toList := List.append_cancel_right hends
  have hdot : '.' ∈ "fileHelper".toList := by
    rw [← hstem]
    simp
  exact absurd hdot (by decide)

/-! ## The files that are tried -/

/-- A file of a module. -/
def artifactTarget (s : Settings) (n : Names) (a : Artifact × Text) : Target where
  kind := a.1.name
  path := artifactPath s n a.1
  text := a.2
  complaint e := "Failed to write " ++ (artifactPath s n a.1).name ++ ": " ++ e.errno.category ++ ": " ++ e.message

/-- The upload helper. -/
def helperTarget (s : Settings) : Target where
  kind := "file_helper"
  path := helperPath s
  text := UploadHelper.file
  complaint e := "Failed to write " ++ (helperPath s).text ++ ": " ++ e.message

/-- The files of a module, and the helper if it is among those that are tried. -/
def targets (s : Settings) (n : Names) (files : List (Artifact × Text)) (withHelper : Bool) : List Target :=
  files.map (artifactTarget s n) ++ if withHelper then [helperTarget s] else []

lemma targets_false (s : Settings) (n : Names) (files : List (Artifact × Text)) :
    targets s n files false = files.map (artifactTarget s n) := List.append_nil _

lemma pairwise_targets (hfiles : (files.map Prod.fst).Nodup) (withHelper : Bool) (d : Disk) :
    (targets s n files withHelper).Pairwise fun t u => d.destination t.path ≠ d.destination u.path := by
  have hartifacts : (files.map (artifactTarget s n)).Pairwise fun t u =>
      d.destination t.path ≠ d.destination u.path := by
    rw [List.Nodup, List.pairwise_map] at hfiles
    rw [List.pairwise_map]
    exact hfiles.imp fun hne hsame => hne (eq_of_destination_artifactPath hsame)
  rw [targets, List.pairwise_append]
  refine ⟨hartifacts, by cases withHelper <;> simp, fun t ht u hu => ?_⟩
  obtain ⟨a, -, rfl⟩ := List.mem_map.1 ht
  cases withHelper with
  | false => cases hu
  | true =>
    obtain rfl := List.mem_singleton.1 hu
    exact destination_artifactPath_ne_helperPath s n a.1 d

variable (hterm : (path s n).hasTerminator = false) (hhome : ∀ part ∈ w.disk.home, Path.terminator ∉ part)

include hterm hhome in
/-- One file of a module is tried. -/
lemma runOn_writeArtifact (a : Artifact × Text) :
    ∃ o w', (writeArtifact true (path s n) n a.1 a.2).runOn w = (.ok o, w') ∧
      Tried (artifactTarget s n a) w.disk w'.disk o := by
  have hpath : (artifactTarget s n a).path.hasTerminator = false := hasTerminator_artifactPath hterm a.1
  have hfile : artifactPath s n a.1 = (path s n).child (n.fileName a.1) := rfl
  rw [writeArtifact, ← hfile, Act.runOn_bind, Act.runOn_attempt]
  rcases tried_writeFile hpath hhome with ⟨w₁, hrun, htried⟩ | ⟨e, w₁, hrun, htried⟩
  · have hrun : (writeFile true a.1.name (artifactPath s n a.1) a.2).runOn w = _ := hrun
    rw [hrun]
    exact ⟨_, _, rfl, htried⟩
  · have hrun : (writeFile true a.1.name (artifactPath s n a.1) a.2).runOn w = _ := hrun
    rw [hrun]
    exact ⟨_, _, rfl, htried⟩

include hterm hhome in
/-- All files of a module are tried, one after another. -/
lemma runOn_writeArtifacts (files : List (Artifact × Text)) (r : FolderResult) :
    ∃ os w', (writeArtifacts true (path s n) n r files).runOn w = (.ok (os.foldl FolderResult.add r), w') ∧
      Tries (files.map (artifactTarget s n)) os w.disk w'.disk := by
  induction files generalizing r w with
  | nil => exact ⟨[], w, rfl, .nil _⟩
  | cons a files ih =>
    obtain ⟨o, w₁, hfirst, htried⟩ := runOn_writeArtifact hterm hhome a
    have hhome₁ : ∀ part ∈ w₁.disk.home, Path.terminator ∉ part := htried.changes.home ▸ hhome
    obtain ⟨os, w₂, hrest, htries⟩ := ih hhome₁ (FolderResult.add r o)
    refine ⟨o :: os, w₂, ?_, .cons htried htries⟩
    rw [writeArtifacts, Act.runOn_bind, hfirst]
    exact hrest

include hhome in
/-- The helper is tried if there is nothing in its place. -/
lemma runOn_writeHelper (hfits : Disk.Fits (helperPath s)) (r : FolderResult) :
    (w.disk.isPresent (helperPath s) = .ok true ∧
      ∃ w', (writeHelper true s r).runOn w = (.ok r, w') ∧ w'.disk = w.disk) ∨
    w.disk.isPresent (helperPath s) = .ok false ∧
      ∃ o w', (writeHelper true s r).runOn w = (.ok (FolderResult.add r o), w') ∧
        Tried (helperTarget s) w.disk w'.disk o := by
  obtain ⟨present, hpresent⟩ := Disk.exists_isPresent hfits w.disk
  rw [hpresent, writeHelper, Act.runOn_bind, Act.runOn_look, hpresent]
  cases present with
  | true => exact .inl ⟨rfl, _, rfl, rfl⟩
  | false =>
    refine .inr ⟨rfl, ?_⟩
    simp only [Bool.false_eq_true, if_false]
    rw [Act.runOn_bind, Act.runOn_attempt]
    rcases tried_writeFile (t := helperTarget s) hfits.terminator hhome with
      ⟨w₁, hrun, htried⟩ | ⟨e, w₁, hrun, htried⟩
    · have hrun : (writeFile true "file_helper" (helperPath s) UploadHelper.file).runOn w = _ := hrun
      rw [hrun]
      exact ⟨_, _, rfl, htried⟩
    · have hrun : (writeFile true "file_helper" (helperPath s) UploadHelper.file).runOn w = _ := hrun
      rw [hrun]
      exact ⟨_, _, rfl, htried⟩

lemma foldl_add (os : List Outcome) (r : FolderResult) :
    (os.foldl FolderResult.add r).files = r.files ++ os.filterMap Outcome.record? ∧
      (os.foldl FolderResult.add r).errors = r.errors ++ os.filterMap Outcome.message? := by
  induction os generalizing r with
  | nil => simp
  | cons o os ih =>
    obtain ⟨hfiles, herrors⟩ := ih (FolderResult.add r o)
    rw [List.foldl_cons, hfiles, herrors]
    cases o <;> simp [FolderResult.add, List.filterMap_cons, Outcome.record?, Outcome.message?]

include hterm hhome in
/-- What goes into a folder that was made: its files, and the helper if it is wanted and missing after
them. -/
lemma runOn_content (hfits : upload = true → Disk.Fits (helperPath s)) (files : List (Artifact × Text)) :
    ∃ os, ∃ helper : Option Outcome, ∃ w', (content true s n files upload).runOn w = (.ok ((os ++ helper.toList).foldl FolderResult.add
        { folder := (path s n).text, created := true }), w') ∧
      os.length = files.length ∧ Tries (targets s n files helper.isSome) (os ++ helper.toList) w.disk w'.disk ∧
        (helper.isSome = true ↔ upload = true ∧
          ((content true s n files false).runOn w).2.disk.isPresent (helperPath s) = .ok false) := by
  obtain ⟨os, w₁, hrun, htries⟩ := runOn_writeArtifacts hterm hhome files
    { folder := (path s n).text, created := true }
  have hwithout : (content true s n files false).runOn w = (.ok (os.foldl FolderResult.add
      { folder := (path s n).text, created := true }), w₁) := by
    rw [content, Act.runOn_bind, hrun]
    rfl
  have hlength : os.length = files.length := by rw [← htries.length_eq, List.length_map]
  have hnone : os ++ (none : Option Outcome).toList = os := List.append_nil os
  rw [hwithout]
  cases upload with
  | false =>
    refine ⟨os, none, w₁, by rw [hwithout, hnone], hlength, ?_, by simp⟩
    rw [Option.isSome_none, targets_false, hnone]
    exact htries
  | true =>
    have hhome₁ : ∀ part ∈ w₁.disk.home, Path.terminator ∉ part := htries.changes.home ▸ hhome
    rw [content, Act.runOn_bind, hrun]
    -- the helper is looked for when the files of the module are written
    rcases runOn_writeHelper hhome₁ (hfits rfl) (os.foldl FolderResult.add
      { folder := (path s n).text, created := true }) with
      ⟨hpresent, w₂, hhelper, hdisk⟩ | ⟨hmissing, o, w₂, hhelper, htried⟩
    · refine ⟨os, none, w₂, by rw [hnone]; exact hhelper, hlength, ?_, by simp [hpresent]⟩
      rw [Option.isSome_none, targets_false, hnone, hdisk]
      exact htries
    · refine ⟨os, some o, w₂, ?_, hlength, htries.append (.cons htried (.nil _)), by simp [hmissing]⟩
      rw [List.foldl_append]
      exact hhelper

/-! ## The account of a folder -/

/-- The folders that are made on the way to the folder of a module and to its files. -/
def wayInto (s : Settings) (n : Names) (d : Disk) (ts : List Target) (l : Location) : Prop :=
  Disk.OnWay d (path s n) l ∨ wayTo d ts l

/-- What becomes of the folder of a module, from one world to another. -/
inductive IsAccounted (s : Settings) (n : Names) (files : List (Artifact × Text)) (upload : Bool) (w w' : World)
    (r : FolderResult) : Prop where
  /-- There is something in the place of the folder, and nothing happens. -/
  | existed : w.disk.isPresent (path s n) = .ok true → w.OnlyLogs w' → r.files = [] → r.errors = [] →
    IsAccounted s n files upload w w' r
  /-- There is nothing in the place of the folder, and it cannot be made; no file is written, and there is one
  error. -/
  | notMade (e : OsError) : w.disk.isPresent (path s n) = .ok false →
    w.disk.find? (w.disk.destination (path s n)) = none →
    (w.disk.makeFolders (path s n)).1 = .error (.os e) → r.files = [] → r.errors = [notMade s n e] →
    Disk.Changes (fun _ => False) (Disk.OnWay w.disk (path s n)) w.disk w'.disk →
    IsAccounted s n files upload w w' r
  /-- The folder is made, and each file is tried once, in order.  A helper that is there is left alone.  The
  helper is tried only if it is wanted; unless it is hidden, it is tried if it would be missing without it, and
  what became of it is told like that of a file. -/
  | filled (os : List Outcome) (helper : Option Outcome) : w.disk.isPresent (path s n) = .ok false →
    w.disk.find? (w.disk.destination (path s n)) = none →
    (w.disk.makeFolders (path s n)).1 = .ok () →
    List.Forall₂ (Settled (wayInto s n w.disk (targets s n files helper.isSome)) w.disk w'.disk)
      (files.map (artifactTarget s n)) os →
    (w.disk.isPresent (helperPath s) = .ok true → helper = none ∧
      w'.disk.find? (w.disk.destination (helperPath s)) = w.disk.find? (w.disk.destination (helperPath s))) →
    (helper.isSome = true → upload = true) →
    (¬ w.disk.IsHidden (helperPath s) →
      (helper.isSome = true ↔ upload = true ∧
        ((write true s n files false).runOn w).2.disk.isPresent (helperPath s) = .ok false) ∧
      ∀ o ∈ helper, Settled (wayInto s n w.disk (targets s n files helper.isSome)) w.disk w'.disk
        (helperTarget s) o) →
    r.files = (os ++ helper.toList).filterMap Outcome.record? →
    r.errors = (os ++ helper.toList).filterMap Outcome.message? →
    Disk.Changes (fun l => writtenTo w.disk (files.map (artifactTarget s n)) os l ∨
        helper.isSome = true ∧ l = w.disk.destination (helperPath s))
      (wayInto s n w.disk (targets s n files helper.isSome)) w.disk w'.disk →
    IsAccounted s n files upload w w' r

/-- A folder that was made is filled, and nothing else happens on the disk. -/
lemma runOn_write_of_made (hmissing : w.disk.isPresent (path s n) = .ok false)
    (hmade : (Files.ensureFolder (path s n)).runOn w = (.ok (), w₁)) {x : Except Failure FolderResult}
    (hcontent : (content true s n files upload).runOn w₁ = (x, w')) :
    ((write true s n files upload).runOn w).1 = x ∧
      ((write true s n files upload).runOn w).2.disk = w'.disk := by
  have hfill : (fill true s n files upload).runOn w = (x.map fun r => (r, true), w') := by
    rw [runOn_fill, hmade]
    simp only [hcontent]
  rw [runOn_write_of_missing hmissing, hfill]
  cases x <;> exact ⟨rfl, rfl⟩

/-- A helper that is there before the folder is made is there when its files were written, so it is not
tried. -/
lemma helper_eq_none (hthere : w.disk.isPresent (helperPath s) = .ok true)
    (hway : Disk.Changes (fun _ => False) (Disk.OnWay w.disk (path s n)) w.disk w₁.disk) {helper : Option Outcome}
    (hwith : helper.isSome = true ↔ upload = true ∧
      ((content true s n files false).runOn w₁).2.disk.isPresent (helperPath s) = .ok false) :
    helper = none := by
  have hkept : Disk.Changes (fun _ => True) (fun _ => True) w.disk
      ((content true s n files false).runOn w₁).2.disk :=
    (hway.mono (fun _ _ => trivial) fun _ _ => trivial).trans
      ((stays_content_anywhere s n files false).run rfl (.refl _))
  rw [hkept.isPresent hthere] at hwith
  cases helper with
  | none => rfl
  | some o => cases (hwith.1 rfl).2

/-- What holds of the files and the helper together holds of the files, and of the helper if it was tried. -/
lemma forall₂_targets {R : Target → Outcome → Prop} {os : List Outcome} {helper : Option Outcome}
    (hlength : os.length = files.length)
    (h : List.Forall₂ R (targets s n files helper.isSome) (os ++ helper.toList)) :
    List.Forall₂ R (files.map (artifactTarget s n)) os ∧ ∀ o ∈ helper, R (helperTarget s) o := by
  have hmap : os.length = (files.map (artifactTarget s n)).length := by rw [hlength, List.length_map]
  have hfiles := List.forall₂_take_append _ _ _ h
  have hhelper := List.forall₂_drop_append _ _ _ h
  rw [targets, hmap, List.take_left] at hfiles
  rw [targets, hmap, List.drop_left] at hhelper
  refine ⟨hfiles, fun o ho => ?_⟩
  obtain rfl : helper = some o := ho
  exact (List.forall₂_cons.1 hhelper).1

/-- The places that are written are those of files, and that of the helper if it was tried. -/
lemma writtenTo_targets {os : List Outcome} {helper : Option Outcome} (hlength : os.length = files.length)
    {l : Location} (h : writtenTo d (targets s n files helper.isSome) (os ++ helper.toList) l) :
    writtenTo d (files.map (artifactTarget s n)) os l ∨ helper.isSome = true ∧ l = d.destination (helperPath s) := by
  obtain ⟨e, hmem, hwritten, hl⟩ := h
  rw [targets, List.zip_append (by rw [hlength, List.length_map]), List.mem_append] at hmem
  rcases hmem with hmem | hmem
  · exact .inl ⟨e, hmem, hwritten, hl⟩
  · cases helper with
    | none => cases hmem
    | some o =>
      obtain rfl := List.mem_singleton.1 hmem
      exact .inr ⟨rfl, hl⟩

include hterm hhome in
/-- A folder that was made is filled, and every file is accounted for. -/
lemma isAccounted_of_made (hfiles : (files.map Prod.fst).Nodup)
    (hhelper : upload = true → Disk.Fits (helperPath s)) (hmissing : w.disk.isPresent (path s n) = .ok false)
    (hnothing : w.disk.find? (w.disk.destination (path s n)) = none)
    (hfolders : (w.disk.makeFolders (path s n)).1 = .ok ())
    (hway : Disk.Changes (fun _ => False) (Disk.OnWay w.disk (path s n)) w.disk w₁.disk)
    (hmade : (Files.ensureFolder (path s n)).runOn w = (.ok (), w₁)) :
    ∃ r, ((write true s n files upload).runOn w).1 = .ok r ∧
      IsAccounted s n files upload w ((write true s n files upload).runOn w).2 r := by
  have hhome₁ : ∀ part ∈ w₁.disk.home, Path.terminator ∉ part := hway.home ▸ hhome
  obtain ⟨os, helper, w₂, hcontent, hlength, htries, hwith⟩ := runOn_content hterm hhome₁ hhelper files
  obtain ⟨hresult, hdisk⟩ := runOn_write_of_made hmissing hmade hcontent
  have hwithout : ((write true s n files false).runOn w).2.disk =
      ((content true s n files false).runOn w₁).2.disk := (runOn_write_of_made hmissing hmade rfl).2
  obtain ⟨hsettled, hchanges⟩ := htries.after hway (pairwise_targets hfiles helper.isSome w.disk)
  obtain ⟨hrecords, hmessages⟩ := foldl_add (os ++ helper.toList) { folder := (path s n).text, created := true }
  rw [← hdisk] at hsettled hchanges
  obtain ⟨hartifacts, htried⟩ := forall₂_targets hlength hsettled
  have hwritten := hchanges.mono (fun l hl => writtenTo_targets hlength hl) fun _ hl => hl
  refine ⟨_, hresult, .filled os helper hmissing hnothing hfolders hartifacts (fun hthere => ?_)
    (fun hsome => (hwith.1 hsome).1) (fun _ => ⟨by rw [hwithout]; exact hwith, htried⟩) hrecords hmessages hwritten⟩
  obtain rfl := helper_eq_none hthere hway hwith
  refine ⟨rfl, (hwritten.untouched fun hl => ?_).find?_eq (Disk.isSome_of_isPresent hthere)⟩
  rcases hl with hl | ⟨hsome, -⟩
  · obtain ⟨t, ht, hsame⟩ := mem_of_writtenTo hl
    obtain ⟨a, -, rfl⟩ := List.mem_map.1 ht
    exact destination_artifactPath_ne_helperPath s n a.1 w.disk hsame.symm
  · cases hsome

/-- **Every file is accounted for**: whatever fails while the folder of a module is made and filled, there is
a result, and it says what became of each file.  The folder is not hidden, and the texts, which are sequences
of Unicode scalar values, can be encoded. -/
theorem write_accounts (hfiles : (files.map Prod.fst).Nodup) (hfolder : Disk.Fits (path s n))
    (hplain : ¬ w.disk.IsHidden (path s n)) (hhelper : upload = true → Disk.Fits (helperPath s))
    (hhome : ∀ part ∈ w.disk.home, Path.terminator ∉ part) :
    ∃ r, ((write true s n files upload).runOn w).1 = .ok r ∧
      IsAccounted s n files upload w ((write true s n files upload).runOn w).2 r := by
  obtain ⟨present, hpresent⟩ := Disk.exists_isPresent hfolder w.disk
  cases present with
  | true =>
    refine ⟨_, by rw [write, Act.runOn_bind, Act.runOn_look, hpresent]; rfl, .existed hpresent ?_ rfl rfl⟩
    rw [write, Act.runOn_bind, Act.runOn_look, hpresent]
    exact ⟨_, rfl⟩
  | false =>
    have hnothing := Disk.find?_eq_none_of_not_isHidden hpresent hplain
    have houtcome := Files.isOutcome_ensureFolder hfolder.terminator w
    have hfolders : ((Files.ensureFolder (path s n)).runOn w).1 = (w.disk.makeFolders (path s n)).1 := by
      rw [Files.ensureFolder, Act.runOn_bind, Act.runOn_change]
      cases (w.disk.makeFolders (path s n)).1 <;> rfl
    have hway : Disk.Changes (fun _ => False) (Disk.OnWay w.disk (path s n)) w.disk
        ((Files.ensureFolder (path s n)).runOn w).2.disk :=
      Files.stays_ensureFolder (fun _ hl => hl) w (.refl _)
    cases hmake : (Files.ensureFolder (path s n)).runOn w with
    | mk x w₁ =>
      rw [hmake] at houtcome hfolders hway
      cases houtcome with
      | ok u =>
        exact isAccounted_of_made hfolder.terminator hhome hfiles hhelper hpresent hnothing hfolders.symm hway hmake
      | os e =>
        have hrun : (fill true s n files upload).runOn w =
            (.ok ({ folder := (path s n).text, errors := [notMade s n e] }, false),
              w₁.logged [⟨.error, .moduleFolder, notMade s n e⟩]) := by
          rw [runOn_fill, hmake]
        rw [runOn_write_of_missing hpresent, hrun]
        exact ⟨_, rfl, .notMade e hpresent hnothing hfolders.symm rfl rfl hway⟩

/-- An empty project on a disk that is full after some operations. -/
def fullWorld : World := { Generator.emptyWorld with
  disk := { Generator.emptyWorld.disk with plan := List.replicate 12 none ++ [some .noSpace] } }

/-- Two files of a module. -/
def sampleFiles : List (Artifact × Text) := [(.interface, "export interface IUser {}"), (.model, "export {}")]

/-- Two files and the helper, on the disk that is full before all of them are written. -/
theorem write_accounts_user :
    (sampleFiles.map Prod.fst).Nodup ∧ Disk.Fits (path Generator.emptyProject.settings Generator.userNames) ∧
      ¬ fullWorld.disk.IsHidden (path Generator.emptyProject.settings Generator.userNames) ∧
      Disk.Fits (helperPath Generator.emptyProject.settings) ∧
      ∃ r, ((write true Generator.emptyProject.settings Generator.userNames sampleFiles true).runOn
          fullWorld).1 = .ok r ∧
        IsAccounted Generator.emptyProject.settings Generator.userNames sampleFiles true fullWorld
          ((write true Generator.emptyProject.settings Generator.userNames sampleFiles true).runOn
            fullWorld).2 r := by
  have hfiles : (sampleFiles.map Prod.fst).Nodup := by decide
  have hfolder : Disk.Fits (path Generator.emptyProject.settings Generator.userNames) :=
    ⟨by decide +kernel, by decide +kernel, by decide +kernel⟩
  have hhelper : Disk.Fits (helperPath Generator.emptyProject.settings) :=
    ⟨by decide +kernel, by decide +kernel, by decide +kernel⟩
  have hnothing : fullWorld.disk.find?
      (fullWorld.disk.destination (path Generator.emptyProject.settings Generator.userNames)) = none := by
    decide +kernel
  have hplain : ¬ fullWorld.disk.IsHidden (path Generator.emptyProject.settings Generator.userNames) := by
    rintro ⟨-, hthere⟩
    rw [hnothing] at hthere
    cases hthere
  exact ⟨hfiles, hfolder, hplain, hhelper,
    write_accounts hfiles hfolder hplain (fun _ => hhelper) (by decide)⟩

/-- Settings whose folder of modules is reached through the place of a file. -/
def detourSettings : Settings :=
  { Generator.emptyProject.settings with modulesFolder := "src/user/user.interface.ts/../.." }

/-- The file is reported, and yet its place is not as it was: a folder was made there on the way. -/
theorem not_untouched_on_the_way :
    let target := artifactPath detourSettings Generator.userNames .interface
    let run := (write true detourSettings Generator.userNames [(.interface, "export {}")] false).runOn
      Generator.emptyWorld
    (run.1.toOption.map fun r => (r.files, r.errors.length)) = some ([], 1) ∧
      Generator.emptyWorld.disk.find? (Generator.emptyWorld.disk.destination target) = none ∧
      run.2.disk.find? (Generator.emptyWorld.disk.destination target) = some .folder := by
  decide +kernel

end ModuleFolder

end Scaffold
