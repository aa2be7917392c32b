import Scaffold.Proofs.Disk.Saving

/-!
# Keeping files up to date

Keeping a file up to date means to read what is in it and to write something made from that, or to
leave it alone (`Upkeep`).  A run of many upkeeps, several of which may be of one file, changes
nothing when it is run a second time, provided that this is so for the contents of each file alone
(`Lawful`); that is `performAll_performAll`.

The contents that a run finds are not those that are on the disk: a path through a folder that does
not exist yet leads nowhere, even if the file it spells is there, and the run itself may make that
folder.  So what a run makes of a file is described from some first content
(`exists_content?_performAll`): the one that the first upkeep of the file finds.  For the second run
the file is there from the start.
-/

namespace Scaffold

open Disk

/-- What keeps one file up to date: the file, and what is written into it in place of what is there,
if anything. -/
structure Upkeep where
  path : Path
  next : Option Bytes → Option Bytes

namespace Upkeep

/-- The content of the file afterwards. -/
def after (a : Upkeep) (c : Option Bytes) : Option Bytes := (a.next c).or c

/-- The disk afterwards. -/
def perform (a : Upkeep) (d : Disk) : Disk :=
  match a.next (d.content? a.path) with
  | some content => (d.save a.path content).2
  | none => d

/-- Whether the file is written. -/
def accepts (a : Upkeep) (d : Disk) : Bool := (a.next (d.content? a.path)).isSome

/-- The disk after several upkeeps. -/
def performAll (as : List Upkeep) (d : Disk) : Disk := as.foldl (fun d a => a.perform d) d

/-- Whether each of several upkeeps writes its file. -/
def allAccept : List Upkeep → Disk → Bool
  | [], _ => true
  | a :: as, d => a.accepts d && allAccept as (a.perform d)

/-- How many groups of upkeeps write all their files. -/
def countAccepted : List (List Upkeep) → Disk → Nat
  | [], _ => 0
  | g :: gs, d => (if allAccept g d then 1 else 0) + countAccepted gs (performAll g d)

/-- The content of a file after those of several upkeeps that are of this file. -/
def contentAfter (p : Path) (as : List Upkeep) (c : Option Bytes) : Option Bytes :=
  (as.filter fun a => a.path = p).foldl (fun c a => a.after c) c

/-- Upkeeps that have the same effect when they are repeated, on contents that are good. -/
structure Lawful (all : List Upkeep) (good : Path → Option Bytes → Prop) : Prop where
  fresh : ∀ a ∈ all, (a.next none).isSome = true
  good_none : ∀ p, good p none
  good_after : ∀ a ∈ all, ∀ c, good a.path c → good a.path (a.after c)
  isSome_next : ∀ a ∈ all, ∀ b ∈ all, a.path = b.path → ∀ c, good a.path c →
    (b.next (a.after c)).isSome = (b.next c).isSome
  again : ∀ p c, good p c → contentAfter p all (contentAfter p all c) = contentAfter p all c

/-- The files of upkeeps. -/
def paths (all : List Upkeep) (p : Path) : Prop := ∃ a ∈ all, a.path = p

/-- A disk on which upkeeps can be performed. -/
structure IsReady (all : List Upkeep) (good : Path → Option Bytes → Prop) (d : Disk) : Prop where
  names : ∀ p, paths all p → HasNames p
  apart : ∀ p r, paths all p → paths all r → p ≠ r → d.destination p ≠ d.destination r
  saves : AcceptsSaves (paths all) d
  good : ∀ p, paths all p → ∀ c, d.find? (d.destination p) = some (.file c) → good p (some c)

variable {all as bs : List Upkeep} {a b : Upkeep} {good : Path → Option Bytes → Prop} {d : Disk} {p : Path}
  {c : Bytes} {content : Option Bytes}

lemma performAll_append (as bs : List Upkeep) (d : Disk) :
    performAll (as ++ bs) d = performAll bs (performAll as d) := List.foldl_append

lemma allAccept_append (as bs : List Upkeep) (d : Disk) :
    allAccept (as ++ bs) d = (allAccept as d && allAccept bs (performAll as d)) := by
  induction as generalizing d with
  | nil => rfl
  | cons a as ih =>
    rw [List.cons_append, allAccept, ih, allAccept, Bool.and_assoc]
    rfl

lemma contentAfter_cons (p : Path) (a : Upkeep) (as : List Upkeep) (c : Option Bytes) :
    contentAfter p (a :: as) c = contentAfter p as (if a.path = p then a.after c else c) := by
  unfold contentAfter
  rw [List.filter_cons]
  by_cases h : a.path = p
  · simp [h]
  · simp [h]

lemma contentAfter_of_not_mem (h : ¬ paths as p) (c : Option Bytes) : contentAfter p as c = c := by
  unfold contentAfter
  rw [List.filter_eq_nil_iff.2 fun a ha hp => h ⟨a, ha, of_decide_eq_true hp⟩]
  rfl

section Laws

variable (hlaws : Lawful all good)

include hlaws

lemma exists_after (ha : a ∈ all) (content : Option Bytes) : ∃ c, a.after content = some c := by
  rw [← Option.isSome_iff_exists, after, Option.isSome_or, Bool.or_eq_true]
  cases content with
  | none => exact .inl (hlaws.fresh a ha)
  | some c => exact .inr rfl

lemma isSome_next_contentAfter (ha : a ∈ all) (hbs : ∀ b ∈ bs, b ∈ all) (hc : good a.path content) :
    (a.next (contentAfter a.path bs content)).isSome = (a.next content).isSome := by
  induction bs generalizing content with
  | nil => rfl
  | cons b bs ih =>
    have hb := hbs b (List.mem_cons_self ..)
    have hbs' : ∀ x ∈ bs, x ∈ all := fun x hx => hbs x (List.mem_cons_of_mem _ hx)
    rw [contentAfter_cons]
    split
    · rename_i hp
      rw [ih hbs' (hp ▸ hlaws.good_after b hb content (hp ▸ hc)),
        hlaws.isSome_next b hb a ha hp content (hp ▸ hc)]
    · exact ih hbs' hc

lemma exists_contentAfter (hbs : ∀ b ∈ bs, b ∈ all) (hp : paths bs p) (content : Option Bytes) :
    ∃ c, contentAfter p bs content = some c := by
  induction bs generalizing content with
  | nil =>
    obtain ⟨b, hb, -⟩ := hp
    cases hb
  | cons b bs ih =>
    have hbs' : ∀ x ∈ bs, x ∈ all := fun x hx => hbs x (List.mem_cons_of_mem _ hx)
    rw [contentAfter_cons]
    by_cases hmem : paths bs p
    · exact ih hbs' hmem _
    · obtain ⟨x, hx, hxp⟩ := hp
      obtain rfl : x = b := (List.mem_cons.1 hx).resolve_right fun hx => hmem ⟨x, hx, hxp⟩
      rw [contentAfter_of_not_mem hmem, if_pos hxp]
      exact exists_after hlaws (hbs x hx) content

end Laws

/-! ## One upkeep -/

/-- An upkeep is a save or nothing. -/
lemma saved_perform {files : Path → Prop} (hsaves : AcceptsSaves files d) (ha : files a.path) :
    Saved files d (a.perform d) := by
  unfold perform
  split
  · rename_i content _
    obtain ⟨d', hsave⟩ := hsaves d (.refl d) a.path ha content
    rw [hsave]
    exact (Saved.refl d).step ha hsave
  · exact .refl d

lemma saved_performAll {files : Path → Prop} (hsaves : AcceptsSaves files d)
    (has : ∀ a ∈ as, files a.path) : Saved files d (performAll as d) := by
  induction as generalizing d with
  | nil => exact .refl d
  | cons a as ih =>
    have hfirst := saved_perform hsaves (has a (List.mem_cons_self ..))
    exact hfirst.trans (ih (hsaves.saved hfirst) fun b hb => has b (List.mem_cons_of_mem _ hb))

section Ready

variable (hready : IsReady all good d)

include hready

lemma IsReady.exists_save (ha : a ∈ all) (content : Bytes) :
    ∃ d', d.save a.path content = (.ok (), d') :=
  hready.saves d (.refl d) a.path ⟨a, ha, rfl⟩ content

lemma IsReady.saved_perform (ha : a ∈ all) : Saved (paths all) d (a.perform d) :=
  Upkeep.saved_perform hready.saves ⟨a, ha, rfl⟩

lemma IsReady.content?_perform (ha : a ∈ all) :
    (a.perform d).content? a.path = a.after (d.content? a.path) := by
  unfold perform after
  cases hnext : a.next (d.content? a.path) with
  | some content =>
    obtain ⟨d', hsave⟩ := hready.exists_save ha content
    simp only [hsave]
    exact (save_ok (hready.names _ ⟨a, ha, rfl⟩) hsave).content
  | none => rfl

/-- An upkeep leaves the other files. -/
lemma IsReady.find?_perform (ha : a ∈ all) {l : Location} (hl : l ≠ d.destination a.path) :
    (a.perform d).find? l = some (.file c) ↔ d.find? l = some (.file c) := by
  unfold perform
  split
  · rename_i content _
    obtain ⟨d', hsave⟩ := hready.exists_save ha content
    have hsaves := save_ok (hready.names _ ⟨a, ha, rfl⟩) hsave
    rw [hsave]
    exact ⟨fun h => hsaves.file l c h hl, hsaves.leaves.file l c hl⟩
  · rfl

lemma IsReady.home_perform (ha : a ∈ all) : (a.perform d).home = d.home :=
  ((hready.saved_perform ha).leaves hready.names).home

lemma IsReady.content?_perform_of_ne (ha : a ∈ all) (hp : paths all p) (hne : a.path ≠ p)
    (hc : d.content? p = some c) : (a.perform d).content? p = some c := by
  have hdestination := hready.apart a.path p ⟨a, ha, rfl⟩ hp hne
  unfold perform
  split
  · rename_i content _
    obtain ⟨d', hsave⟩ := hready.exists_save ha content
    rw [hsave]
    exact (save_ok (hready.names _ ⟨a, ha, rfl⟩) hsave).leaves.content? (Ne.symm hdestination) hc
  · exact hc

lemma IsReady.good_content? (hlaws : Lawful all good) (hp : paths all p) : good p (d.content? p) := by
  cases hc : d.content? p with
  | none => exact hlaws.good_none p
  | some c => exact hready.good p hp c (find?_of_content? hc)

lemma IsReady.perform (hlaws : Lawful all good) (ha : a ∈ all) : IsReady all good (a.perform d) := by
  have hhome := hready.home_perform ha
  refine ⟨hready.names, ?_, hready.saves.saved (hready.saved_perform ha), ?_⟩
  · intro p r hp hr hne
    rw [destination_of_home hhome, destination_of_home hhome]
    exact hready.apart p r hp hr hne
  · intro p hp c hfile
    rw [destination_of_home hhome] at hfile
    by_cases hne : a.path = p
    · obtain rfl := hne
      obtain ⟨c', hc'⟩ := exists_after hlaws ha (d.content? a.path)
      have hcontent := hready.content?_perform ha
      rw [hc'] at hcontent
      have hfile' := find?_of_content? hcontent
      rw [destination_of_home hhome, hfile] at hfile'
      obtain rfl : c = c' := by simpa using hfile'
      rw [← hc']
      exact hlaws.good_after a ha _ (hready.good_content? hlaws hp)
    · have hdestination := hready.apart a.path p ⟨a, ha, rfl⟩ hp hne
      rw [hready.find?_perform ha (Ne.symm hdestination)] at hfile
      exact hready.good p hp c hfile

end Ready

/-! ## Many upkeeps -/

section Run

variable (hlaws : Lawful all good)

include hlaws

lemma IsReady.performAll (hready : IsReady all good d) (hbs : ∀ b ∈ bs, b ∈ all) :
    IsReady all good (performAll bs d) ∧ Saved (paths all) d (Upkeep.performAll bs d) := by
  induction bs generalizing d with
  | nil => exact ⟨hready, .refl d⟩
  | cons b bs ih =>
    have hb := hbs b (List.mem_cons_self ..)
    obtain ⟨hfinal, hsaved⟩ := ih (hready.perform hlaws hb) fun x hx => hbs x (List.mem_cons_of_mem _ hx)
    exact ⟨hfinal, (hready.saved_perform hb).trans hsaved⟩

lemma IsReady.destination_performAll (hready : IsReady all good d) (hbs : ∀ b ∈ bs, b ∈ all)
    (p : Path) : (Upkeep.performAll bs d).destination p = d.destination p :=
  destination_of_home ((hready.performAll hlaws hbs).2.leaves hready.names).home p

/-- A file that is there keeps all contents in view. -/
lemma IsReady.content?_performAll (hready : IsReady all good d) (hbs : ∀ b ∈ bs, b ∈ all)
    (hp : paths all p) (hc : d.content? p = some c) :
    (Upkeep.performAll bs d).content? p = contentAfter p bs (some c) := by
  induction bs generalizing d c with
  | nil => exact hc
  | cons b bs ih =>
    have hb := hbs b (List.mem_cons_self ..)
    have hbs' : ∀ x ∈ bs, x ∈ all := fun x hx => hbs x (List.mem_cons_of_mem _ hx)
    rw [contentAfter_cons]
    by_cases hne : b.path = p
    · obtain rfl := hne
      obtain ⟨c', hc'⟩ := exists_after hlaws hb (some c)
      have hcontent := hready.content?_perform hb
      rw [hc, hc'] at hcontent
      rw [if_pos rfl, hc']
      exact ih (hready.perform hlaws hb) hbs' hcontent
    · rw [if_neg hne]
      exact ih (hready.perform hlaws hb) hbs' (hready.content?_perform_of_ne hb hp hne hc)

/-- The first upkeep of a run finds what is there. -/
lemma IsReady.content?_performAll_cons (hready : IsReady all good d) (hb : b ∈ all)
    (hbs : ∀ b ∈ bs, b ∈ all) :
    (Upkeep.performAll (b :: bs) d).content? b.path =
      contentAfter b.path (b :: bs) (d.content? b.path) := by
  obtain ⟨c, hc⟩ := exists_after hlaws hb (d.content? b.path)
  have hcontent := hready.content?_perform hb
  rw [hc] at hcontent
  rw [contentAfter_cons, if_pos rfl, hc]
  exact (hready.perform hlaws hb).content?_performAll hlaws hbs ⟨b, hb, rfl⟩ hcontent

/-- What a run makes of a file, from the content that its first upkeep finds. -/
lemma IsReady.exists_content?_performAll (hready : IsReady all good d) (hbs : ∀ b ∈ bs, b ∈ all)
    (hp : paths bs p) :
    ∃ content, good p content ∧
      (Upkeep.performAll bs d).content? p = contentAfter p bs content := by
  induction bs generalizing d with
  | nil =>
    obtain ⟨b, hb, -⟩ := hp
    cases hb
  | cons b bs ih =>
    have hb := hbs b (List.mem_cons_self ..)
    have hbs' : ∀ x ∈ bs, x ∈ all := fun x hx => hbs x (List.mem_cons_of_mem _ hx)
    by_cases hne : b.path = p
    · obtain rfl := hne
      exact ⟨_, hready.good_content? hlaws ⟨b, hb, rfl⟩, hready.content?_performAll_cons hlaws hb hbs'⟩
    · obtain ⟨x, hx, hxp⟩ := hp
      have hxbs : x ∈ bs := (List.mem_cons.1 hx).resolve_left fun heq => hne (heq ▸ hxp)
      obtain ⟨content, hgood, hfinal⟩ := ih (hready.perform hlaws hb) hbs' ⟨x, hxbs, hxp⟩
      refine ⟨content, hgood, ?_⟩
      rw [contentAfter_cons, if_neg hne]
      exact hfinal

/-- After a run each of its files is there, and a second run makes the same of it. -/
lemma IsReady.content?_twice (hready : IsReady all good d) (hp : paths all p) :
    ∃ c, (Upkeep.performAll all d).content? p = some c ∧
      (Upkeep.performAll all (Upkeep.performAll all d)).content? p = some c := by
  have hall : ∀ b ∈ all, b ∈ all := fun _ h => h
  obtain ⟨content, hgood, hfirst⟩ := hready.exists_content?_performAll hlaws hall hp
  obtain ⟨c, hc⟩ := exists_contentAfter hlaws hall hp content
  have hfirst' := hfirst.trans hc
  refine ⟨c, hfirst', ?_⟩
  rw [(hready.performAll hlaws hall).1.content?_performAll hlaws hall hp hfirst', ← hc,
    hlaws.again p content hgood]

/-- **A second run changes no file.** -/
theorem IsReady.find?_performAll_twice (hready : IsReady all good d) (l : Location) (c : Bytes) :
    (Upkeep.performAll all (Upkeep.performAll all d)).find? l = some (.file c) ↔
      (Upkeep.performAll all d).find? l = some (.file c) := by
  have hall : ∀ b ∈ all, b ∈ all := fun _ h => h
  obtain ⟨hready', -⟩ := hready.performAll hlaws hall
  by_cases hl : ∃ p, paths all p ∧ l = (Upkeep.performAll all d).destination p
  · obtain ⟨p, hp, rfl⟩ := hl
    obtain ⟨c', hfirst, hsecond⟩ := hready.content?_twice hlaws hp
    have hsecond' := find?_of_content? hsecond
    rw [hready'.destination_performAll hlaws hall] at hsecond'
    rw [hsecond', find?_of_content? hfirst]
  · exact (hready'.performAll hlaws hall).2.find?_file hready'.names fun p hp hlp => hl ⟨p, hp, hlp⟩

/-- Whether upkeeps write their files shows at the end of the run. -/
lemma IsReady.allAccept_eq (hready : IsReady all good d) (has : ∀ a ∈ as, a ∈ all)
    (hbs : ∀ b ∈ bs, b ∈ all) :
    allAccept as d = as.all fun a => a.accepts (Upkeep.performAll (as ++ bs) d) := by
  induction as generalizing d with
  | nil => rfl
  | cons a as ih =>
    have ha := has a (List.mem_cons_self ..)
    have has' : ∀ x ∈ as, x ∈ all := fun x hx => has x (List.mem_cons_of_mem _ hx)
    have hrest : ∀ x ∈ as ++ bs, x ∈ all := fun x hx =>
      (List.mem_append.1 hx).elim (has' x) (hbs x)
    have hfinal := hready.content?_performAll_cons hlaws ha hrest
    have haccepts : a.accepts d = a.accepts (Upkeep.performAll (a :: as ++ bs) d) := by
      unfold accepts
      rw [List.cons_append, hfinal]
      refine (isSome_next_contentAfter hlaws ha ?_ (hready.good_content? hlaws ⟨a, ha, rfl⟩)).symm
      exact List.forall_mem_cons.2 ⟨ha, hrest⟩
    rw [allAccept, List.all_cons, haccepts, ih (hready.perform hlaws ha) has']
    rfl

lemma IsReady.countAccepted_eq (hready : IsReady all good d) {gs : List (List Upkeep)}
    (hgs : ∀ b ∈ gs.flatten, b ∈ all) :
    countAccepted gs d =
      gs.countP fun g => g.all fun a => a.accepts (Upkeep.performAll gs.flatten d) := by
  induction gs generalizing d with
  | nil => rfl
  | cons g gs ih =>
    rw [List.flatten_cons] at hgs ⊢
    have hg : ∀ b ∈ g, b ∈ all := fun b hb => hgs b (List.mem_append_left _ hb)
    have hrest : ∀ b ∈ gs.flatten, b ∈ all := fun b hb => hgs b (List.mem_append_right _ hb)
    rw [countAccepted, ih (hready.performAll hlaws hg).1 hrest, hready.allAccept_eq hlaws hg hrest,
      performAll_append, List.countP_cons, Nat.add_comm]

/-- **A second run counts the same.** -/
theorem IsReady.countAccepted_twice {gs : List (List Upkeep)} (hall : gs.flatten = all)
    (hready : IsReady all good d) :
    countAccepted gs (Upkeep.performAll all d) = countAccepted gs d := by
  have hgs : ∀ b ∈ gs.flatten, b ∈ all := fun b hb => hall ▸ hb
  rw [(hready.performAll hlaws fun _ h => h).1.countAccepted_eq hlaws hgs,
    hready.countAccepted_eq hlaws hgs, hall]
  refine List.countP_congr fun g hg => ?_
  have hsame : ∀ a ∈ g, a.accepts (Upkeep.performAll all (Upkeep.performAll all d)) =
      a.accepts (Upkeep.performAll all d) := by
    intro a ha
    have hmem : a ∈ all := hgs a (List.mem_flatten.2 ⟨g, hg, ha⟩)
    obtain ⟨c, hfirst, hsecond⟩ := hready.content?_twice hlaws ⟨a, hmem, rfl⟩
    rw [accepts, accepts, hfirst, hsecond]
  rw [List.all_eq_true, List.all_eq_true]
  exact ⟨fun h a ha => (hsame a ha) ▸ h a ha, fun h a ha => (hsame a ha).symm ▸ h a ha⟩

end Run

end Upkeep

end Scaffold
