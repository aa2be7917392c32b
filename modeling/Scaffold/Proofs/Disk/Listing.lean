import Mathlib.Data.List.Nodup
import Mathlib.Data.List.Sort
import Scaffold.Proofs.Disk.Saving

/-!
# The folders in a folder, and the files in them

The folders in a folder are listed by name, and the order of names is one in which a list without
repetitions is determined by what is in it (`listed_filter_eq`).  Where the path of a file in such a
folder leads is decided by the names alone (`exists_place_eq`), so whether it is a file, and what is
read from it, changes only with the file itself (`isFile_congr`, `readText_congr`).  A path that leads
anywhere goes through folders (`exists_place_of_append`).
-/

namespace Scaffold

namespace Text

variable {s t u : Text} {a b : Char}

lemma notAfter_cons_iff :
    notAfter (a :: s) (b :: t) = true ↔ a.toNat < b.toNat ∨ a = b ∧ notAfter s t = true := by
  rw [notAfter]
  split
  · rename_i h
    subst h
    simp
  · rename_i h
    simp [h]

lemma notAfter_trans (hst : notAfter s t = true) (htu : notAfter t u = true) : notAfter s u = true := by
  induction s generalizing t u with
  | nil => rfl
  | cons a s ih =>
    cases t with
    | nil => cases hst
    | cons b t =>
      cases u with
      | nil => cases htu
      | cons c u =>
        rw [notAfter_cons_iff] at hst htu ⊢
        rcases hst with hab | ⟨rfl, hst⟩
        · rcases htu with hbc | ⟨rfl, -⟩
          · exact .inl (hab.trans hbc)
          · exact .inl hab
        · rcases htu with hbc | ⟨rfl, htu⟩
          · exact .inl hbc
          · exact .inr ⟨rfl, ih hst htu⟩

lemma notAfter_antisymm (hst : notAfter s t = true) (hts : notAfter t s = true) : s = t := by
  induction s generalizing t with
  | nil =>
    cases t with
    | nil => rfl
    | cons b t => cases hts
  | cons a s ih =>
    cases t with
    | nil => cases hst
    | cons b t =>
      rw [notAfter_cons_iff] at hst hts
      rcases hst with hab | ⟨rfl, hst⟩
      · rcases hts with hba | ⟨rfl, -⟩
        · exact absurd hba (Nat.lt_asymm hab)
        · exact absurd hab (Nat.lt_irrefl _)
      · rcases hts with haa | ⟨-, hts⟩
        · exact absurd haa (Nat.lt_irrefl _)
        · rw [ih hst hts]

lemma notAfter_total (s t : Text) : notAfter s t = true ∨ notAfter t s = true := by
  induction s generalizing t with
  | nil => exact .inl rfl
  | cons a s ih =>
    cases t with
    | nil => exact .inr rfl
    | cons b t =>
      rw [notAfter_cons_iff, notAfter_cons_iff]
      rcases Nat.lt_trichotomy a.toNat b.toNat with hab | hab | hba
      · exact .inl (.inl hab)
      · have hab : a = b := Char.toNat_inj.1 hab
        exact (ih t).imp (fun h => .inr ⟨hab, h⟩) fun h => .inr ⟨hab.symm, h⟩
      · exact .inr (.inl hba)

lemma join_prefix (separator : Text) (ps qs : List Text) :
    join separator ps <+: join separator (ps ++ qs) := by
  induction ps with
  | nil => exact List.nil_prefix
  | cons p ps ih =>
    cases ps with
    | nil =>
      cases qs with
      | nil => exact List.prefix_rfl
      | cons q qs => exact ⟨separator ++ join separator (q :: qs), (List.append_assoc ..).symm⟩
    | cons p' ps => exact (List.prefix_append_right_inj _).2 ih

end Text

namespace Disk

variable {d d' : Disk} {p : Path} {l m : Location} {ps qs : List Text} {n file : Text} {c : Bytes}
  {q : Place}

/-! ## Listings -/

/-- The names of the folders in a folder, in order. -/
def listed (d : Disk) (m : Location) : List Text :=
  ((d.namesIn m).filter fun n => d.find? (m ++ [n]) == some .folder).mergeSort Text.notAfter

lemma subfolders_eq {found : Option Entry} (h : d.place p = .ok ⟨m, found⟩) :
    d.subfolders p = .ok ((listed d m).map fun n => ⟨p.anchor, p.parts ++ [n]⟩) := by
  simp only [subfolders, h]
  rfl

lemma namesIn_eq (d : Disk) (m : Location) :
    d.namesIn m = (Table.keys d.entries).filterMap fun l =>
      if l.length = m.length + 1 ∧ l.dropLast = m then l.getLast? else none := by
  rw [Table.keys, List.filterMap_map]
  rfl

lemma getLast?_eq_some_iff {l : Location} :
    (if l.length = m.length + 1 ∧ l.dropLast = m then l.getLast? else none) = some n ↔ l = m ++ [n] := by
  constructor
  · intro h
    split at h
    · rename_i hl
      rw [← hl.2]
      exact (List.dropLast_append_getLast? n h).symm
    · cases h
  · rintro rfl
    simp

lemma mem_listed : n ∈ listed d m ↔ d.find? (m ++ [n]) = some .folder := by
  rw [listed, (List.mergeSort_perm _ _).mem_iff, List.mem_filter, beq_iff_eq, and_iff_right_iff_imp]
  intro h
  rw [namesIn_eq, List.mem_filterMap]
  exact ⟨m ++ [n], List.mem_map_of_mem (mem_entries_of_find? h), getLast?_eq_some_iff.2 rfl⟩

lemma IsTree.nodup_listed (h : d.IsTree) (m : Location) : (listed d m).Nodup := by
  rw [listed, (List.mergeSort_perm _ _).nodup_iff]
  refine List.Nodup.filter _ ?_
  rw [namesIn_eq]
  refine h.distinct.filterMap fun l l' n hl hl' => ?_
  rw [getLast?_eq_some_iff.1 hl, getLast?_eq_some_iff.1 hl']

lemma pairwise_listed (d : Disk) (m : Location) :
    (listed d m).Pairwise fun n n' => Text.notAfter n n' = true := by
  have htrans : ∀ n n' n'' : Text, Text.notAfter n n' = true → Text.notAfter n' n'' = true →
      Text.notAfter n n'' = true := fun _ _ _ => Text.notAfter_trans
  have htotal : ∀ n n' : Text, (Text.notAfter n n' || Text.notAfter n' n) = true := by
    intro n n'
    rw [Bool.or_eq_true]
    exact Text.notAfter_total n n'
  exact List.pairwise_mergeSort htrans htotal _

/-- **A part of a listing** is determined by what is in it. -/
theorem listed_filter_eq {f f' : Text → Bool} (h : d.IsTree) (h' : d'.IsTree)
    (hsame : ∀ n, n ∈ listed d' m ∧ f' n = true ↔ n ∈ listed d m ∧ f n = true) :
    (listed d' m).filter f' = (listed d m).filter f := by
  have hperm : ((listed d' m).filter f').Perm ((listed d m).filter f) := by
    refine (List.perm_ext_iff_of_nodup ((h'.nodup_listed m).filter _) ((h.nodup_listed m).filter _)).2 ?_
    intro n
    rw [List.mem_filter, List.mem_filter]
    exact hsame n
  exact hperm.eq_of_pairwise (fun _ _ _ _ => Text.notAfter_antisymm) ((pairwise_listed d' m).filter _)
    ((pairwise_listed d m).filter _)

/-! ## Files in listed folders -/

lemma follow_append (h : d.follow l ps = .ok ⟨m, some .folder⟩) (hqs : qs ≠ []) :
    d.follow l (ps ++ qs) = d.follow m qs := by
  obtain ⟨part, rest, rfl⟩ := List.exists_cons_of_ne_nil hqs
  fun_induction Disk.follow d l ps with
  | case1 l =>
    rw [← (Place.mk.inj (Except.ok.inj h)).1]
    rfl
  | case2 l more ih =>
    rw [List.cons_append, Disk.follow, if_pos rfl]
    exact ih h
  | case3 => cases h
  | case4 l name hdots hlimit next =>
    have hfolder : d.find? (l ++ [name]) = some .folder := (Place.mk.inj (Except.ok.inj h)).2
    have hnext : l ++ [name] = m := (Place.mk.inj (Except.ok.inj h)).1
    rw [List.singleton_append, Disk.follow, if_neg hdots, if_neg hlimit]
    simp only [hfolder]
    rw [hnext]
  | case5 l name hdots hlimit next more rest' hfolder ih =>
    have hfolder' : d.find? (l ++ [name]) = some .folder := hfolder
    rw [List.cons_append, Disk.follow, if_neg hdots, if_neg hlimit]
    simp only [hfolder', List.cons_append]
    exact ih h
  | case6 => cases h
  | case7 => cases h

/-- What a path goes through are folders. -/
lemma follow_of_append (ht : d.IsTree) (hl : d.find? l = some .folder) (hqs : qs ≠ [])
    (h : d.follow l (ps ++ qs) = .ok q) : ∃ m, d.follow l ps = .ok ⟨m, some .folder⟩ := by
  induction ps generalizing l with
  | nil => exact ⟨l, by rw [Disk.follow, hl]⟩
  | cons part ps ih =>
    rw [List.cons_append, Disk.follow.eq_def] at h
    rw [Disk.follow.eq_def]
    simp only at h ⊢
    by_cases hdots : part = ['.', '.']
    · rw [if_pos hdots] at h ⊢
      refine ih ?_ h
      -- on a tree the folder above a folder is a folder
      rcases List.eq_nil_or_concat l with rfl | ⟨above, name, rfl⟩
      · exact hl
      · rw [List.concat_eq_append] at hl ⊢
        rw [List.dropLast_concat]
        exact ht.parent _ _ _ hl
    · rw [if_neg hdots] at h ⊢
      by_cases hlimit : nameLimit < byteLength part
      · rw [if_pos hlimit] at h
        cases h
      · rw [if_neg hlimit] at h ⊢
        obtain ⟨more, rest, hrest⟩ := List.exists_cons_of_ne_nil (List.append_ne_nil_of_right_ne_nil ps hqs)
        rw [hrest] at h
        cases hfound : d.find? (l ++ [part]) with
        | none =>
          rw [hfound] at h
          cases h
        | some e =>
          rw [hfound] at h
          cases e with
          | file c => cases h
          | folder =>
            rw [← hrest] at h
            obtain ⟨m, hm⟩ := ih hfound (by simpa [hrest] using h)
            cases ps with
            | nil => exact ⟨_, rfl⟩
            | cons part' ps => exact ⟨m, hm⟩

lemma byteLength_mono {t u : Text} (h : t <+: u) : byteLength t ≤ byteLength u := by
  obtain ⟨rest, rfl⟩ := h
  rw [byteLength, byteLength, Utf8.encode, Utf8.encode, List.flatMap_append, List.length_append]
  exact Nat.le_add_right ..

/-- The beginning of a path that is not too long is not too long. -/
lemma not_long_of_append {a : Anchor} (h : ¬ pathLimit ≤ byteLength (⟨a, ps ++ qs⟩ : Path).text) :
    ¬ pathLimit ≤ byteLength (⟨a, ps⟩ : Path).text := by
  have htext : ∀ parts : List Text, parts ≠ [] →
      (⟨a, parts⟩ : Path).text = Path.slashes a ++ Text.join ['/'] parts := by
    intro parts hparts
    cases a <;> cases parts <;> first | rfl | exact absurd rfl hparts
  intro hlong
  cases ps with
  | nil =>
    have hshort : byteLength (⟨a, []⟩ : Path).text < pathLimit := by cases a <;> decide
    exact absurd hlong (Nat.not_le.2 hshort)
  | cons part ps =>
    refine h (hlong.trans (byteLength_mono ?_))
    rw [htext _ (List.cons_ne_nil _ _), List.cons_append, htext _ (List.cons_ne_nil _ _), ← List.cons_append]
    exact (List.prefix_append_right_inj _).2 (Text.join_prefix _ _ _)

/-- **What a path goes through** is a folder. -/
theorem exists_place_of_append (ht : d.IsTree) {a : Anchor} (hqs : qs ≠ [])
    (h : d.place ⟨a, ps ++ qs⟩ = .ok q) : ∃ m, d.place ⟨a, ps⟩ = .ok ⟨m, some .folder⟩ := by
  obtain ⟨hterm, hlimit, hfollow⟩ := place_eq_ok_iff.1 h
  have hstart : d.find? (d.start ⟨a, ps ++ qs⟩) = some .folder := by
    unfold start
    cases a with
    | here => exact ht.home
    | root => rfl
    | doubleRoot => rfl
  obtain ⟨m, hm⟩ := follow_of_append ht hstart hqs hfollow
  refine ⟨m, place_eq_ok_iff.2 ⟨?_, not_long_of_append hlimit, hm⟩⟩
  simp only [Path.hasTerminator, List.any_append, Bool.or_eq_false_iff] at hterm
  exact hterm.1

lemma destination_append (h : d.place p = .ok ⟨m, some .folder⟩) (hn : n ≠ ['.', '.'])
    (hfile : file ≠ ['.', '.']) :
    d.destination ⟨p.anchor, p.parts ++ [n, file]⟩ = m ++ [n, file] := by
  have hm : p.parts.foldl Path.followLexically (d.start p) = m := (location_of_place h).symm
  have hstart : d.start ⟨p.anchor, p.parts ++ [n, file]⟩ = d.start p := rfl
  rw [destination, hstart, List.foldl_append, hm]
  simp [Path.followLexically, hn, hfile]

/-- **A file in a folder that is listed**: where its path leads does not depend on what else is on the
disk. -/
theorem exists_place_eq (h : d.place p = .ok ⟨m, some .folder⟩) (hn : d.find? (m ++ [n]) = some .folder)
    (hdots : n ≠ ['.', '.']) (hfile : file ≠ ['.', '.']) :
    ∃ x : Except Failure Unit, ∀ d', Leaves (fun _ => False) d d' →
      d'.place ⟨p.anchor, p.parts ++ [n, file]⟩ =
        x.map fun _ => ⟨m ++ [n, file], d'.find? (m ++ [n, file])⟩ := by
  -- both folders stay, so all that decides is whether the names are short enough
  have hfollow : ∀ d', Leaves (fun _ => False) d d' →
      d'.follow (d'.start p) (p.parts ++ [n, file]) =
        if nameLimit < byteLength n ∨ nameLimit < byteLength file then .error .nameTooLong
        else .ok ⟨m ++ [n, file], d'.find? (m ++ [n, file])⟩ := by
    intro d' hleaves
    have hroot : d'.find? m = some .folder := hleaves.folder m (found?_of_place h).symm
    have hplace := hleaves.place h
    rw [hroot] at hplace
    have hn' := hleaves.folder _ hn
    rw [follow_append (place_eq_ok_iff.1 hplace).2.2 (by simp), Disk.follow, if_neg hdots]
    by_cases hlong : nameLimit < byteLength n
    · rw [if_pos hlong, if_pos (.inl hlong)]
    · rw [if_neg hlong]
      simp only [hn']
      rw [Disk.follow, if_neg hfile]
      by_cases hlong' : nameLimit < byteLength file
      · rw [if_pos hlong', if_pos (.inr hlong')]
      · rw [if_neg hlong', if_neg (by simp [hlong, hlong'])]
        simp
  let q : Path := ⟨p.anchor, p.parts ++ [n, file]⟩
  refine ⟨if q.hasTerminator then .error .nullInPath
    else if pathLimit ≤ byteLength q.text then .error (failure .nameTooLong q)
    else if nameLimit < byteLength n ∨ nameLimit < byteLength file then .error (failure .nameTooLong q)
    else .ok (), fun d' hleaves => ?_⟩
  have hstart : d'.start q = d'.start p := rfl
  rw [place, hstart, hfollow d' hleaves]
  split
  · rfl
  · split
    · rfl
    · by_cases hlong : nameLimit < byteLength n ∨ nameLimit < byteLength file
      · simp only [if_pos hlong]
        rfl
      · simp only [if_neg hlong]
        rfl

/-- Whether an entry that may not be there is a file. -/
def isFileEntry : Option Entry → Bool
  | some (.file _) => true
  | _ => false

lemma isFileEntry_iff {e : Option Entry} : isFileEntry e = true ↔ ∃ c, e = some (.file c) := by
  cases e with
  | none => simp [isFileEntry]
  | some e => cases e <;> simp [isFileEntry]

lemma isFile_of_place_eq (h : d.place p = .ok ⟨l, d.find? l⟩) :
    d.isFile p = .ok (isFileEntry (d.find? l)) := by
  simp only [isFile, holds, entry, h, bind, Except.bind]
  cases d.find? l with
  | none => rfl
  | some e => cases e <;> rfl

lemma holds_ne_of_place_error {f : Failure} (test : Entry → Bool) (h : d.place p = .error f) :
    d.holds p test ≠ .ok true := by
  simp only [holds, entry, h, bind, Except.bind]
  split
  · rename_i heq
    cases heq
  · split <;> simp
  · simp
  · simp

section Congr

variable {x : Except Failure Unit} (hplace : d.place p = x.map fun _ => ⟨l, d.find? l⟩)
  (hplace' : d'.place p = x.map fun _ => ⟨l, d'.find? l⟩)
  (hsame : ∀ c, d'.find? l = some (.file c) ↔ d.find? l = some (.file c))

include hplace hplace' hsame

/-- Whether a path leads to a file changes with the file only. -/
lemma isFile_congr : d'.isFile p = d.isFile p := by
  cases x with
  | error f =>
    simp only [Except.map] at hplace hplace'
    simp only [isFile, holds, entry, hplace, hplace', bind, Except.bind]
  | ok _ =>
    have hentry : isFileEntry (d'.find? l) = isFileEntry (d.find? l) := by
      rw [Bool.eq_iff_iff, isFileEntry_iff, isFileEntry_iff]
      exact exists_congr hsame
    rw [isFile_of_place_eq hplace, isFile_of_place_eq hplace', hentry]

/-- So does what is read from it. -/
lemma readText_congr (h : d.isFile p = .ok true) : d'.readText p = d.readText p := by
  cases x with
  | error f =>
    simp only [Except.map] at hplace hplace'
    simp only [readText, read, entry, hplace, hplace', bind, Except.bind]
  | ok _ =>
    rw [isFile_of_place_eq hplace] at h
    obtain ⟨c, hl⟩ := isFileEntry_iff.1 (Except.ok.inj h)
    simp only [Except.map, hl, (hsame c).2 hl] at hplace hplace'
    simp only [readText, read_of_place hplace, read_of_place hplace']

end Congr

end Disk

end Scaffold
