import Scaffold.Proofs.Disk.Descent
import Scaffold.Proofs.World.Footprint

/-!
# How operations end

An operation on a path fails with an outcome of the system, whichever of its steps is struck, unless the
path holds the character that ends paths (`IsOutcome`).  A path that the system takes can also be looked up
on every disk (`exists_isPresent`).
-/

namespace Scaffold

namespace Disk

variable {d : Disk} {p : Path} {a : Anchor} {l : Location} {content : Bytes}

/-! ## The character that ends paths -/

lemma hasTerminator_eq_false_iff : p.hasTerminator = false ↔ ∀ part ∈ p.parts, Path.terminator ∉ part := by
  simp [Path.hasTerminator]

lemma hasTerminator_of_subset {q : Path} (h : q.parts ⊆ p.parts) (hp : p.hasTerminator = false) :
    q.hasTerminator = false :=
  hasTerminator_eq_false_iff.2 fun part hpart => hasTerminator_eq_false_iff.1 hp part (h hpart)

lemma mem_of_mem_foldl_followLexically {parts : List Text} {part : Text}
    (h : part ∈ parts.foldl Path.followLexically l) : part ∈ l ∨ part ∈ parts := by
  induction parts generalizing l with
  | nil => exact .inl h
  | cons next parts ih =>
    rcases ih h with h | h
    · rw [Path.followLexically] at h
      split at h
      · exact .inl (List.dropLast_subset l h)
      · rcases List.mem_append.1 h with h | h
        · exact .inl h
        · exact .inr (List.mem_cons.2 (.inl (List.mem_singleton.1 h)))
    · exact .inr (List.mem_cons_of_mem _ h)

/-- The temporary file beside a file is named after the file and the folders around it. -/
lemma hasTerminator_temporary (hp : p.hasTerminator = false)
    (hhome : ∀ part ∈ d.home, Path.terminator ∉ part) : (d.temporary p).hasTerminator = false := by
  rw [hasTerminator_eq_false_iff] at hp ⊢
  have hparent : ∀ part ∈ p.parent.parts, Path.terminator ∉ part := fun part hpart =>
    hp part (List.dropLast_subset _ hpart)
  have hfolder : ∀ part ∈ (p.parent.absolute d.home).parts, Path.terminator ∉ part := by
    intro part hpart
    unfold Path.absolute at hpart
    split at hpart
    · rcases mem_of_mem_foldl_followLexically hpart with h | h
      · cases h
      · exact (List.mem_append.1 h).elim (hhome part) (hparent part)
    · rcases mem_of_mem_foldl_followLexically hpart with h | h
      · cases h
      · exact hparent part h
  have hname : Path.terminator ∉ p.name := by
    rw [Path.name]
    cases hlast : p.parts.getLast? with
    | none => exact List.not_mem_nil
    | some last => exact hp last (List.mem_of_getLast? hlast)
  have hunique : Path.terminator ∉ uniquePart := by decide
  have hsuffix : Path.terminator ∉ (".tmp" : Text) := by decide
  have hdot : Path.terminator ≠ '.' := by decide
  intro part hpart
  rcases List.mem_append.1 hpart with hpart | hpart
  · exact hfolder part hpart
  · rw [List.mem_singleton.1 hpart, List.mem_append, List.mem_append, List.mem_cons, List.mem_cons]
    rintro (((h | h) | h | h) | h)
    exacts [hdot h, hname h, hdot h, hunique h, hsuffix h]

/-! ## Outcomes -/

/-- A result, or an outcome of the system in its place. -/
inductive IsOutcome {α : Type} : Except Failure α → Prop where
  | ok (x : α) : IsOutcome (.ok x)
  | os (e : OsError) : IsOutcome (.error (.os e))

lemma IsOutcome.exists_os {α : Type} {f : Failure} (h : IsOutcome (.error f : Except Failure α)) :
    ∃ e, f = .os e := by
  cases h
  exact ⟨_, rfl⟩

/-- The failure of a step is the one of the operation. -/
lemma IsOutcome.failure {α β : Type} {r : Except Failure α} {f : Failure} (h : IsOutcome r)
    (hr : r = .error f) : IsOutcome (.error f : Except Failure β) := by
  subst hr
  cases h
  exact .os _

lemma isOutcome_place (hp : p.hasTerminator = false) (d : Disk) : IsOutcome (d.place p) := by
  rw [place, hp, if_neg Bool.false_ne_true]
  split
  · exact .os _
  · split
    · exact .ok _
    · exact .os _

lemma isOutcome_entry (hp : p.hasTerminator = false) (d : Disk) : IsOutcome (d.entry p) := by
  have hplace := isOutcome_place hp d
  simp only [entry, bind, Except.bind]
  generalize d.place p = r at hplace
  cases hplace with
  | ok q =>
    simp only
    cases q.found? with
    | none => exact .os _
    | some e => exact .ok _
  | os e => exact .os _

lemma isOutcome_holds (hp : p.hasTerminator = false) (d : Disk) (test : Entry → Bool) :
    IsOutcome (d.holds p test) := by
  have hentry := isOutcome_entry hp d
  unfold holds
  generalize d.entry p = r at hentry
  cases hentry with
  | ok e => exact .ok _
  | os e =>
    simp only
    split
    · exact .ok _
    · exact .os _

lemma isOutcome_makeFolder (hp : p.hasTerminator = false) (d : Disk) : IsOutcome (d.makeFolder p).1 := by
  unfold makeFolder
  split
  · exact .os _
  · rename_i d₁ _
    have hplace := isOutcome_place hp d₁
    split
    · exact hplace.failure ‹_›
    · exact .os _
    · exact .ok _

lemma isOutcome_unlessFolder (hp : p.hasTerminator = false) (e : OsError) (d : Disk) :
    IsOutcome (d.unlessFolder p (.os e)).1 := by
  have hfolder : IsOutcome (d.isFolder p) := isOutcome_holds hp d _
  unfold unlessFolder
  simp only
  split
  · exact .ok _
  · exact .os _
  · exact hfolder.failure ‹_›

lemma isOutcome_keepFolder (hp : p.hasTerminator = false) (d : Disk) : IsOutcome (d.keepFolder p).1 := by
  have hmake := isOutcome_makeFolder hp d
  unfold keepFolder
  split
  · exact .ok _
  · rename_i f d₁ hf
    rw [hf] at hmake
    obtain ⟨e, rfl⟩ := hmake.exists_os
    split
    · exact .os _
    · exact isOutcome_unlessFolder hp e d₁

lemma isOutcome_makeFoldersUp {parts : List Text} (hp : Path.hasTerminator ⟨a, parts.reverse⟩ = false)
    (d : Disk) : IsOutcome (d.makeFoldersUp a parts).1 := by
  induction parts generalizing d with
  | nil => exact isOutcome_keepFolder hp d
  | cons part above ih =>
    have hmake := isOutcome_makeFolder hp d
    have habove : Path.hasTerminator ⟨a, above.reverse⟩ = false := hasTerminator_of_subset (by simp) hp
    simp only [makeFoldersUp]
    split
    · exact .ok _
    · rename_i f d₁ hf
      rw [hf] at hmake
      obtain ⟨e, rfl⟩ := hmake.exists_os
      split
      · split
        · exact isOutcome_keepFolder hp _
        · exact ih habove d₁
      · exact isOutcome_unlessFolder hp e d₁

/-- **Making folders** succeeds or fails with an outcome of the system. -/
theorem isOutcome_makeFolders (hp : p.hasTerminator = false) (d : Disk) : IsOutcome (d.makeFolders p).1 :=
  isOutcome_makeFoldersUp (by rwa [List.reverse_reverse]) d

lemma isOutcome_createNew (hp : p.hasTerminator = false) (d : Disk) : IsOutcome (d.createNew p).1 := by
  unfold createNew
  split
  · exact .os _
  · rename_i d₁ _
    have hplace := isOutcome_place hp d₁
    split
    · exact hplace.failure ‹_›
    · exact .os _
    · exact .ok _

lemma isOutcome_fill (l : Location) (content : Bytes) (d : Disk) : IsOutcome (d.fill l content).1 := by
  unfold fill
  split
  · exact .os _
  · exact .ok _

lemma isOutcome_moveTo (l : Location) (temp : Path) (hp : p.hasTerminator = false) (d : Disk) :
    IsOutcome (d.moveTo l temp p).1 := by
  unfold moveTo
  simp only
  split
  · exact .os _
  · rename_i d₁ _
    have hplace := isOutcome_place hp d₁
    split
    · exact .os _
    · exact hplace.failure ‹_›
    · exact .os _
    · split
      · exact .ok _
      · exact .os _

/-- **A write through a temporary file** succeeds or fails with an outcome of the system. -/
theorem isOutcome_writeAtomic (hp : p.hasTerminator = false)
    (hhome : ∀ part ∈ d.home, Path.terminator ∉ part) (content : Bytes) :
    IsOutcome (d.writeAtomic p content).1 := by
  have hcreate := isOutcome_createNew (hasTerminator_temporary hp hhome) d
  unfold writeAtomic
  simp only
  split
  · exact hcreate.failure (congrArg Prod.fst ‹_›)
  · rename_i location d₁ _
    have hfill := isOutcome_fill location content d₁
    split
    · exact hfill.failure (congrArg Prod.fst ‹_›)
    · rename_i d₂ _
      have hmove := isOutcome_moveTo location (d.temporary p) hp d₂
      split
      · exact hmove.failure (congrArg Prod.fst ‹_›)
      · exact .ok _

/-! ## Looking -/

/-- Whether there is something at a path that the system takes can be told on every disk. -/
theorem exists_isPresent (hp : Fits p) (d : Disk) : ∃ b, d.isPresent p = .ok b := by
  simp only [isPresent, holds, entry, place, hp.terminator, if_neg hp.length, bind, Except.bind]
  cases hfollow : d.follow (d.start p) p.parts with
  | ok q =>
    cases hfound : q.found? with
    | none => exact ⟨false, by simp [hfound, failure, throw, throwThe, MonadExceptOf.throw]⟩
    | some e => exact ⟨true, by simp [hfound, pure, Except.pure]⟩
  | error e =>
    have he := errno_of_follow hp.names hfollow
    exact ⟨false, by simp [failure, he]⟩

end Disk

namespace Files

variable {w : World} {p : Path}

lemma isOutcome_ensureFolder (hp : p.hasTerminator = false) (w : World) :
    Disk.IsOutcome ((ensureFolder p).runOn w).1 := by
  rw [ensureFolder, Act.runOn_bind, Act.runOn_change]
  split
  · exact .ok _
  · rename_i hfailed
    exact (Disk.isOutcome_makeFolders hp w.disk).failure (congrArg Prod.fst hfailed)

/-- **A write** succeeds or fails with an outcome of the system. -/
theorem isOutcome_write (hp : p.hasTerminator = false)
    (hhome : ∀ part ∈ w.disk.home, Path.terminator ∉ part) (t : Text) :
    Disk.IsOutcome ((write true p t).runOn w).1 := by
  have hparent : p.parent.hasTerminator = false :=
    Disk.hasTerminator_of_subset (List.dropLast_subset p.parts) hp
  have hkept : Disk.Changes (fun _ => True) (fun _ => True) w.disk ((ensureFolder p.parent).runOn w).2.disk :=
    stays_ensureFolder (fun _ _ => trivial) w (.refl _)
  rw [write, Act.runOn_bind]
  split
  · rename_i w₁ hmade
    rw [hmade] at hkept
    have hhome₁ : ∀ part ∈ w₁.disk.home, Path.terminator ∉ part := hkept.home ▸ hhome
    simp only [if_true, Act.runOn_bind, Act.runOn_change]
    split
    · exact .ok _
    · rename_i hfailed
      exact (Disk.isOutcome_writeAtomic hp hhome₁ (Utf8.encode t)).failure (congrArg Prod.fst hfailed)
  · rename_i hfailed
    exact (isOutcome_ensureFolder hparent w).failure (congrArg Prod.fst hfailed)

end Files

end Scaffold
