import Scaffold.Proofs.Disk.Operations

/-!
# Disks that are trees

A disk is a table of entries, and nothing in its type makes it a tree.  Real disks are: every entry
stands in a folder, and its name is one that a path can hold (`IsTree`).  Making folders keeps a disk
a tree and adds no file (`Extends`), and so does a write for all files but the one it writes
(`IsTree.writes`).  Both together are what saving a file is (`save_ok`).

Following a path is where the tree is needed: a step to the parent folder leads to a folder, so the
place a path leads to is a folder or stands in one (`IsTree.place`).
-/

namespace Scaffold.Disk

variable {d d' d'' : Disk} {p : Path} {l location target : Location} {content : Bytes} {part : Text}
  {parts : List Text} {q : Place} {e : Entry}

/-! ## Trees -/

/-- A name that an entry can have. -/
def IsName (part : Text) : Prop := '/' ∉ part ∧ part ≠ ['.', '.']

instance (part : Text) : Decidable (IsName part) := inferInstanceAs (Decidable (_ ∧ _))

/-- A disk whose entries stand in folders. -/
structure IsTree (d : Disk) : Prop where
  distinct : (Table.keys d.entries).Nodup
  home : d.find? d.home = some .folder
  parent : ∀ l part e, d.find? (l ++ [part]) = some e → d.find? l = some .folder
  name : ∀ l part e, d.find? (l ++ [part]) = some e → IsName part

lemma mem_entries_of_find? (h : d.find? (l ++ [part]) = some e) : (l ++ [part], e) ∈ d.entries := by
  have hfind : Table.find? (l ++ [part]) d.entries = some e := by
    cases l <;> exact h
  exact Table.mem_of_find? hfind

namespace IsTree

/-- A disk with finitely many entries, each of them in a folder and with a name. -/
lemma of_entries (hdistinct : (Table.keys d.entries).Nodup) (hhome : d.find? d.home = some .folder)
    (hentries : ∀ e ∈ d.entries, d.find? e.1.dropLast = some .folder ∧ ∀ part ∈ e.1.getLast?, IsName part) :
    d.IsTree := by
  refine ⟨hdistinct, hhome, fun l part e h => ?_, fun l part e h => ?_⟩
  · have hfolder := (hentries _ (mem_entries_of_find? h)).1
    rwa [List.dropLast_concat] at hfolder
  · exact (hentries _ (mem_entries_of_find? h)).2 part (by simp)

lemma dropLast (h : d.IsTree) (hl : d.find? l = some .folder) : d.find? l.dropLast = some .folder := by
  rcases List.eq_nil_or_concat l with rfl | ⟨m, part, rfl⟩
  · exact hl
  · rw [List.concat_eq_append] at hl ⊢
    rw [List.dropLast_concat]
    exact h.parent m part _ hl

lemma start (h : d.IsTree) (p : Path) : d.find? (d.start p) = some .folder := by
  unfold Disk.start
  split
  · exact h.home
  · rfl

/-- What names lead to from a folder is a folder or stands in one. -/
lemma follow (h : d.IsTree) (hl : d.find? l = some .folder) (hq : d.follow l parts = .ok q) :
    d.find? q.location = some .folder ∨ ∃ parent part, q.location = parent ++ [part] ∧
      d.find? parent = some .folder ∧ part ∈ parts ∧ part ≠ ['.', '.'] := by
  fun_induction Disk.follow d l parts with
  | case1 l =>
    cases hq
    exact .inl hl
  | case2 l rest ih =>
    refine (ih (h.dropLast hl) hq).imp_right ?_
    rintro ⟨parent, part, hlocation, hparent, hmem, hdots⟩
    exact ⟨parent, part, hlocation, hparent, List.mem_cons_of_mem _ hmem, hdots⟩
  | case3 => cases hq
  | case4 l part hdots hlimit next =>
    cases hq
    exact .inr ⟨l, part, rfl, hl, List.mem_cons_self .., hdots⟩
  | case5 l part hdots hlimit next more rest hfolder ih =>
    refine (ih hfolder hq).imp_right ?_
    rintro ⟨parent, part, hlocation, hparent, hmem, hdots⟩
    exact ⟨parent, part, hlocation, hparent, List.mem_cons_of_mem _ hmem, hdots⟩
  | case6 => cases hq
  | case7 => cases hq

/-- **What a path leads to** is a folder or stands in one. -/
lemma place (h : d.IsTree) (hq : d.place p = .ok q) :
    d.find? q.location = some .folder ∨ ∃ parent part, q.location = parent ++ [part] ∧
      d.find? parent = some .folder ∧ part ∈ p.parts ∧ part ≠ ['.', '.'] :=
  h.follow (h.start p) (place_eq_ok_iff.1 hq).2.2

lemma congr (h : d.IsTree) (hsame : SameEntries d d') : d'.IsTree := by
  have hfind := hsame.find?
  constructor
  · rw [hsame.entries]
    exact h.distinct
  · rw [hsame.home, hfind]
    exact h.home
  · intro l part e
    rw [hfind, hfind]
    exact h.parent l part e
  · intro l part e
    rw [hfind]
    exact h.name l part e

/-- An entry is added to a folder. -/
lemma put_new (h : d.IsTree) {parent : Location} (hparent : d.find? parent = some .folder)
    (hfree : d.find? (parent ++ [part]) = none) (hname : IsName part) (e : Entry) :
    (d.put (parent ++ [part]) e).IsTree := by
  have hne : parent ++ [part] ≠ [] := by simp
  have hfolder : ∀ l, d.find? l = some .folder → (d.put (parent ++ [part]) e).find? l = some .folder := by
    intro l hl
    rw [find?_put d e hne, if_neg (fun heq => by rw [heq, hfree] at hl; cases hl), hl]
  constructor
  · exact Table.nodup_keys_put h.distinct _ _
  · exact hfolder _ h.home
  · intro l part' e' he
    rw [find?_put d e hne] at he
    split at he
    · rename_i heq
      rw [(List.append_inj' heq rfl).1]
      exact hfolder _ hparent
    · exact hfolder _ (h.parent l part' e' he)
  · intro l part' e' he
    rw [find?_put d e hne] at he
    split at he
    · rename_i heq
      rw [List.singleton_inj.1 (List.append_inj' heq rfl).2]
      exact hname
    · exact h.name l part' e' he

/-- The content of a file is replaced. -/
lemma put_file (h : d.IsTree) {old : Bytes} (hfile : d.find? location = some (.file old))
    (content : Bytes) : (d.put location (.file content)).IsTree := by
  have hne : location ≠ [] := by
    rintro rfl
    cases hfile
  have hfolder : ∀ l, d.find? l = some .folder →
      (d.put location (.file content)).find? l = some .folder := by
    intro l hl
    rw [find?_put d _ hne, if_neg (fun heq => by rw [heq, hfile] at hl; cases hl), hl]
  constructor
  · exact Table.nodup_keys_put h.distinct _ _
  · exact hfolder _ h.home
  · intro l part' e' he
    rw [find?_put d _ hne] at he
    split at he
    · rename_i heq
      exact hfolder _ (h.parent l part' _ (heq ▸ hfile))
    · exact hfolder _ (h.parent l part' e' he)
  · intro l part' e' he
    rw [find?_put d _ hne] at he
    split at he
    · rename_i heq
      exact h.name l part' _ (heq ▸ hfile)
    · exact h.name l part' e' he

end IsTree

/-! ## Making folders -/

/-- More folders and nothing else, in a tree as in the tree before. -/
structure Extends (d d' : Disk) : Prop where
  leaves : Leaves (fun _ => True) d d'
  file : ∀ l content, d'.find? l = some (.file content) → d.find? l = some (.file content)
  tree : d.IsTree → d'.IsTree

lemma Extends.trans (h : Extends d d') (h' : Extends d' d'') : Extends d d'' :=
  ⟨h.leaves.trans h'.leaves, fun l c hl => h.file l c (h'.file l c hl), fun ht => h'.tree (h.tree ht)⟩

lemma SameEntries.extends (h : SameEntries d d') : Extends d d' :=
  ⟨h.leaves, fun l _ hl => (h.find? l).symm.trans hl, fun ht => ht.congr h⟩

lemma extends_makeFolder (d : Disk) (hp : ∀ part ∈ p.parts, '/' ∉ part) :
    Extends d (d.makeFolder p).2 := by
  obtain ⟨d₁, hsame, ⟨f, h⟩ | ⟨l, hplace, h⟩⟩ := makeFolder_cases p d
  · rw [h]
    exact hsame.extends
  obtain ⟨hfree, hne⟩ := free_of_place hplace
  rw [← hsame.find?] at hfree
  rw [h]
  refine ⟨hsame.leaves.trans (.put_new _ hfree), fun k c hk => ?_, fun ht => ?_⟩
  · rw [find?_put d₁ _ hne] at hk
    split at hk
    · cases hk
    · rwa [hsame.find?] at hk
  · have htree := ht.congr hsame
    rw [← hsame.place] at hplace
    rcases htree.place hplace with hfolder | ⟨parent, part, rfl, hparent, hmem, hdots⟩
    · exact absurd (hfree.symm.trans hfolder) (by simp)
    · exact htree.put_new hparent hfree ⟨hp part hmem, hdots⟩ _

theorem extends_makeFolders (d : Disk) (hp : ∀ part ∈ p.parts, '/' ∉ part) :
    Extends d (d.makeFolders p).2 :=
  makeFolders_induction (R := Extends) Extends.trans p
    (fun _ hparts d => extends_makeFolder d fun part h => hp part (hparts.subset h)) d

/-! ## Writing a file -/

/-- A write keeps a disk a tree. -/
lemma IsTree.writes (ht : d.IsTree) (hp : ∀ part ∈ p.parts, '/' ∉ part)
    (hplace : d.place p = .ok ⟨target, d.find? target⟩) (htarget : d.find? target ≠ some .folder)
    (h : Writes target content d d') : d'.IsTree := by
  obtain ⟨parent, part, rfl, hparent, hmem, hdots⟩ :=
    (ht.place hplace).resolve_left htarget
  have hne : parent ++ [part] ≠ [] := by simp
  have hfind : ∀ l, d'.find? l = (d.put (parent ++ [part]) (.file content)).find? l := by
    intro l
    rw [h.find?, find?_put d _ hne]
  have hput : (d.put (parent ++ [part]) (.file content)).IsTree := by
    cases hfound : d.find? (parent ++ [part]) with
    | none => exact ht.put_new hparent hfound ⟨hp part hmem, hdots⟩ _
    | some e =>
      cases e with
      | file old => exact ht.put_file hfound content
      | folder => exact absurd hfound htarget
  constructor
  · exact h.distinct ht.distinct
  · rw [h.home, hfind]
    exact hput.home
  · intro l part e
    rw [hfind, hfind]
    exact hput.parent l part e
  · intro l part e
    rw [hfind]
    exact hput.name l part e

end Scaffold.Disk
