import Scaffold.Proofs.Generation.Contents
import Scaffold.Proofs.Generation.Upkeeps

/-!
# What a generation leaves in the documentation

Documenting a module is reported as successful only if both of its files were written, and each of them
was made from what was in it (`update_ok`).  Between the beginning of a generation and this step other
files were written, but none in the place of the API document, so what the step finds there is what the
generation found (`Creation.documented`).
-/

namespace Scaffold

open Act

lemma Timing.timed_ok {α : Type} {label : Text} {a : Act α} {w w' : World} {x : α}
    (h : (timed label a).runOn w = (.ok x, w')) :
    ∃ w₁, a.runOn w = (.ok x, w₁) ∧ w' = w₁.logged [record label] := by
  rw [runOn_timed] at h
  obtain ⟨hresult, rfl⟩ := Prod.mk.inj h
  exact ⟨_, Prod.ext hresult rfl, rfl⟩

/-- An upkeep that found its file on one disk and wrote what is in it on another one. -/
def Upkeep.Left (a : Upkeep) (before after : Disk) : Prop :=
  ∃ c, a.next (before.content? a.path) = some c ∧ after.content? a.path = some c

lemma Upkeep.Left.after_eq {a : Upkeep} {before after : Disk} (h : a.Left before after) :
    after.content? a.path = a.after (before.content? a.path) := by
  obtain ⟨c, hnext, hcontent⟩ := h
  rw [hcontent, Upkeep.after, hnext, Option.some_or]

namespace Documentation

variable {s : Settings} {n : Names} {fields : List Field} {client : Option Client} {w w' : World}
  {r r' : DocumentationResult} {x : Path}

/-! ## The two files -/

/-- What was prepared and written is in its file. -/
lemma Prepares.left {act : Act Path} {a : Upkeep} (h : Prepares act a w) (hok : act.runOn w = (.ok x, w')) :
    a.Left w.disk w'.disk := by
  cases h with
  | unseen _ hrun =>
    rw [hrun] at hok
    cases hok
  | @prepared r w₁ records _ hnext hrun =>
    rw [hrun, written] at hok
    obtain ⟨v, w₂, hprepared, hok⟩ := bind_ok hok
    obtain ⟨rfl, rfl⟩ := Prod.mk.inj hprepared
    obtain ⟨m, w₃, hwrite, hok⟩ := bind_ok hok
    obtain ⟨target, hplace, -⟩ := Files.write_ok hwrite
    cases hok
    refine ⟨Utf8.encode v.fileText, hnext.symm, ?_⟩
    rw [Disk.content?, Disk.read_of_place hplace]
    rfl

/-- **A request collection that was saved** was made from what was in its file. -/
theorem left_saveCollection
    (h : (saveCollection s n (Collection.ofModule n fields s.apiPrefix)).runOn w = (.ok x, w')) :
    (collectionUpkeep s (n, fields)).Left w.disk w'.disk :=
  (prepares_saveCollection s n fields w).left h

/-- **An API document that was saved** was made from what was in its file. -/
theorem left_saveDocument (h : (saveDocument s n fields).runOn w = (.ok x, w')) :
    (documentUpkeep s (n, fields)).Left w.disk w'.disk :=
  (prepares_saveDocument s n fields w).left h

/-! ## Both files -/

/-- A step that succeeds after what succeeded before it. -/
lemma updateCollection_ok (hremote : s.isRemote = false)
    (h : (updateCollection s n fields client r).runOn w = (.ok r', w')) (hsuccess : r'.success = true) :
    r.success = true ∧ (collectionUpkeep s (n, fields)).Left w.disk w'.disk := by
  obtain ⟨saved, w₁, hattempt, h⟩ := bind_ok h
  rw [runOn_attempt] at hattempt
  cases hsave : (saveCollection s n (Collection.ofModule n fields s.apiPrefix)).runOn w with
  | mk y w₂ =>
    rw [hsave] at hattempt
    cases hattempt
    cases y with
    | error f =>
      obtain ⟨r'', w₃, hrun, -, hfailed⟩ := runOn_failed r "Postman collection" f w₂
      obtain ⟨hr, -⟩ := Prod.mk.inj (hrun.symm.trans h)
      obtain rfl := Except.ok.inj hr
      exact absurd (hfailed.symm.trans hsuccess) Bool.false_ne_true
    | ok p =>
      simp only [hremote, Bool.false_eq_true, if_false] at h
      cases h
      exact ⟨hsuccess, left_saveCollection hsave⟩

lemma updateDocument_ok (h : (updateDocument s n fields r).runOn w = (.ok r', w'))
    (hsuccess : r'.success = true) :
    r.success = true ∧ (documentUpkeep s (n, fields)).Left w.disk w'.disk := by
  obtain ⟨saved, w₁, hattempt, h⟩ := bind_ok h
  rw [runOn_attempt] at hattempt
  cases hsave : (saveDocument s n fields).runOn w with
  | mk y w₂ =>
    rw [hsave] at hattempt
    cases hattempt
    cases y with
    | error f =>
      obtain ⟨r'', w₃, hrun, -, hfailed⟩ := runOn_failed r "Swagger documentation" f w₂
      obtain ⟨hr, -⟩ := Prod.mk.inj (hrun.symm.trans h)
      obtain rfl := Except.ok.inj hr
      exact absurd (hfailed.symm.trans hsuccess) Bool.false_ne_true
    | ok p =>
      cases h
      exact ⟨hsuccess, left_saveDocument hsave⟩

/-- **Documenting a module successfully** leaves both files that are wanted, the API document made from
what was in it when at most the request collection had been written. -/
theorem update_ok (hremote : s.isRemote = false)
    (hapart : w.disk.destination (collectionFile s n) ≠ w.disk.destination s.documentPath)
    (h : (update s n fields client).runOn w = (.ok r, w')) (hsuccess : r.success = true) :
    (s.updateCollection = true → (collectionUpkeep s (n, fields)).Left w.disk w'.disk) ∧
      (s.updateDocument = true → ∃ d, Disk.Changes (w.disk.destination (collectionFile s n) = ·)
        (fun _ => True) w.disk d ∧ (documentUpkeep s (n, fields)).Left d w'.disk) := by
  rw [update_eq] at h
  obtain ⟨_, w₁, hsay, h⟩ := bind_ok h
  cases hsay
  obtain ⟨r', w₂, hfiles, h⟩ := bind_ok h
  cases h
  obtain ⟨r₁, w₃, hcollection, hdocument⟩ := bind_ok hfiles
  have hfirst : Disk.Changes (w.disk.destination (collectionFile s n) = ·) (fun _ => True) w.disk w₃.disk := by
    split at hcollection
    · exact (stays_updateCollection rfl (fun _ _ => trivial) fields client _).run hcollection (.refl _)
    · cases hcollection
      exact .refl _
  have hsecond : Disk.Changes (w₃.disk.destination s.documentPath = ·) (fun _ => True) w₃.disk w₂.disk := by
    split at hdocument
    · exact (stays_updateDocument rfl (fun _ _ => trivial) fields _).run hdocument (.refl _)
    · cases hdocument
      exact .refl _
  have hmiddle : r₁.success = true := by
    split at hdocument
    · exact (updateDocument_ok hdocument hsuccess).1
    · cases hdocument
      exact hsuccess
  refine ⟨fun hwanted => ?_, fun hwanted => ⟨w₃.disk, hfirst, ?_⟩⟩
  · rw [if_pos hwanted] at hcollection
    obtain ⟨c, hnext, hcontent⟩ := (updateCollection_ok hremote hcollection hmiddle).2
    refine ⟨c, hnext, hsecond.leaves.content? (fun hsame => hapart ?_) hcontent⟩
    rw [Disk.destination_of_home hfirst.home, Disk.destination_of_home hfirst.home] at hsame
    exact hsame.symm
  · rw [if_pos hwanted] at hdocument
    exact (updateDocument_ok hdocument hsuccess).2

end Documentation

/-! ## All of a generation -/

namespace Generator

variable {g : Generator} {s : Settings} {n : Names} {p : Parsed} {w w' : World} {r r' : Report}
  {x : DocumentationResult}

/-- The documentation that is reported. -/
lemma finish_ok (h : (g.finish n p r).runOn w = (.ok r', w'))
    (hwanted : (g.settings.updateCollection || g.settings.updateDocument) = true) :
    ∃ y w₁ x w₂, (Registration.register g.settings n).runOn w = (.ok y, w₁) ∧
      (Documentation.update g.settings n p.fields g.client).runOn (w₁.logged [Timing.record "router"]) =
        (.ok x, w₂) ∧ r'.documentation = some x ∧ w'.disk = w₂.disk := by
  obtain ⟨y, w₁, hfirst, h⟩ := bind_ok h
  obtain ⟨w₂, hregister, rfl⟩ := Timing.timed_ok hfirst
  simp only [hwanted, if_true] at h
  obtain ⟨x, w₃, hsecond, h⟩ := bind_ok h
  obtain ⟨w₄, hupdate, rfl⟩ := Timing.timed_ok hsecond
  cases h
  exact ⟨y, w₂, x, w₄, hregister, hupdate, rfl, rfl⟩

/-- No other shared file that a generation writes is in the place of the API document. -/
structure KeepsDocument (s : Settings) (n : Names) (d : Disk) : Prop where
  helper : d.destination (ModuleFolder.helperPath s) ≠ d.destination s.documentPath
  router : d.destination s.routerPath ≠ d.destination s.documentPath
  collection : d.destination (Documentation.collectionFile s n) ≠ d.destination s.documentPath

/-- **A generation with documentation** left the files that are wanted, the API document made from what
was in it when no other file had been written in its place. -/
theorem Creation.documented (h : Creation g n p w (.ok r) w') (herrors : r.exportErrors = [])
    (hwanted : (g.settings.updateCollection || g.settings.updateDocument) = true)
    (hx : r.documentation = some x) (hsuccess : x.success = true) (hremote : g.settings.isRemote = false)
    (hseparate : IsSeparate g.settings n w.disk) (hkeeps : KeepsDocument g.settings n w.disk) :
    (g.settings.updateCollection = true →
      ∃ d, (Documentation.collectionUpkeep g.settings (n, p.fields)).Left d w'.disk) ∧
    (g.settings.updateDocument = true → ∃ d,
      Disk.Changes (· ≠ w.disk.destination g.settings.documentPath) (fun _ => True) w.disk d ∧
        (Documentation.documentUpkeep g.settings (n, p.fields)).Left d w'.disk) := by
  cases h with
  | refused _ hfill _ _ hexport =>
    exact absurd (hexport.symm.trans herrors) (ModuleFolder.of_not_made hfill).2.2
  | @finished w₁ w₂ w₃ _ f r₀ _ hfirst hfill hlast hend hopen hexport =>
    obtain ⟨y, w₄, x', w₅, hregister, hupdate, hx', hdisk⟩ := finish_ok hend hwanted
    obtain rfl : x' = x := Option.some.inj (hx'.symm.trans hx)
    -- nothing that is written before the documentation is in the place of the document
    have hartifacts : ∀ a, w.disk.destination (ModuleFolder.artifactPath g.settings n a) ≠
        w.disk.destination g.settings.documentPath := fun a =>
      (hseparate.shared _ (by simp [sharedFiles]) a).symm
    have hcontent : Stays w.disk (· ≠ w.disk.destination g.settings.documentPath) (fun _ => True)
        (ModuleFolder.content true g.settings n (rendered n p) p.upload) :=
      ModuleFolder.stays_content (fun a _ => ⟨hartifacts a.1, fun _ _ => trivial⟩)
        fun _ _ => ⟨hkeeps.helper, fun _ _ => trivial⟩
    have hfilled := (ModuleFolder.stays_fill (fun _ _ => trivial) hcontent).run hfill (hfirst.changes _ _)
    have hregistered := (Registration.stays_register fun _ => ⟨hkeeps.router, fun _ _ => trivial⟩).run hregister
      (hfilled.trans (hlast.changes _ _))
    have hapart : (w₄.logged [Timing.record "router"]).disk.destination
        (Documentation.collectionFile g.settings n) ≠
          (w₄.logged [Timing.record "router"]).disk.destination g.settings.documentPath := by
      rw [World.logged_disk, Disk.destination_of_home hregistered.home, Disk.destination_of_home hregistered.home]
      exact hkeeps.collection
    obtain ⟨hcollection, hdocument⟩ := Documentation.update_ok hremote hapart hupdate hsuccess
    rw [← hdisk] at hcollection hdocument
    refine ⟨fun h => ⟨_, hcollection h⟩, fun h => ?_⟩
    obtain ⟨d, hchanges, hleft⟩ := hdocument h
    refine ⟨d, hregistered.trans (hchanges.mono ?_ fun _ h => h), hleft⟩
    rintro l rfl
    rw [World.logged_disk, Disk.destination_of_home hregistered.home]
    exact hkeeps.collection

end Generator

end Scaffold
