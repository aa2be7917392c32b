import Scaffold.Generation.Registration
import Scaffold.Proofs.Router.Patches
import Scaffold.Proofs.World.Files

/-!
# Registering modules, one after another

A run registers modules in the router file on the disk.  If every file operation succeeds, each call
reads what the call before it wrote, so a run is a sequence of patches of the text that the file
had at the beginning (`Runs.readText`).  What such a sequence does is known from the texts alone;
this module carries it to the disk and to what the calls report.
-/

namespace Scaffold.Registration

open Router (importStatement registration locate?)
open Text (occurs occurrences InOrder)

variable {s : Settings} {n : Names} {names : List Names} {w w' : World} {r : RegistrationResult}
  {content before : Text} {p : Path} {patch : Router.Patch}

/-- A run of calls, each of which returned a result without an error. -/
inductive Runs (s : Settings) : World → List Names → World → Prop where
  | nil (w : World) : Runs s w [] w
  | snoc {w w₁ w₂ : World} {names : List Names} {n : Names} {r : RegistrationResult} :
      Runs s w names w₁ → (register s n).runOn w₁ = (.ok r, w₂) → r.error = none →
        Runs s w (names ++ [n]) w₂

/-! ## One call -/

/-- A patch that changes nothing is not written. -/
lemma store_of_eq (h : patch.content = before) (w : World) :
    ∃ w', (store p before patch).runOn w = (.ok (ofPatch p patch), w') ∧ w'.disk = w.disk := by
  unfold store
  simp only [Act.runOn_bind, Act.runOn_say, if_pos h, Act.runOn_pure]
  exact ⟨_, rfl, rfl⟩

/-- A patch that was stored is in the file. -/
lemma readText_of_store (h : (store p before patch).runOn w = (.ok r, w')) (hr : r.error = none)
    (hbefore : w.disk.readText p = .ok before) (hcontent : '\r' ∉ patch.content) :
    w'.disk.readText p = .ok patch.content := by
  -- a patch without an effect is not written, and then the file has its content already
  by_cases heq : patch.content = before
  · obtain ⟨w₁, hrun, hdisk⟩ := store_of_eq (p := p) heq w
    rw [hrun] at h
    obtain ⟨-, rfl⟩ := Prod.mk.injEq .. ▸ h
    rw [hdisk, heq]
    exact hbefore
  · unfold store at h
    obtain ⟨_, w₁, hsay, h⟩ := Act.bind_ok h
    rw [if_neg heq] at h
    obtain ⟨result, w₂, hattempt, h⟩ := Act.bind_ok h
    rw [Act.runOn_attempt, Prod.mk.injEq, Except.ok.injEq] at hattempt
    obtain ⟨hresult, hw₂⟩ := hattempt
    cases result with
    | ok count =>
      obtain ⟨_, w₃, hsay', h⟩ := Act.bind_ok h
      have hwrite : (Files.write true p patch.content).runOn w₁ = (.ok count, w₂) :=
        Prod.ext hresult hw₂
      rw [Act.runOn_say] at hsay'
      rw [Act.runOn_pure] at h
      obtain ⟨-, rfl⟩ := Prod.mk.injEq .. ▸ hsay'
      obtain ⟨-, rfl⟩ := Prod.mk.injEq .. ▸ h
      have hread := Files.readText_of_write hwrite hcontent
      exact hread
    | error f =>
      simp only at h
      split at h
      · unfold failed at h
        obtain ⟨_, w₃, hsay', h⟩ := Act.bind_ok h
        rw [Act.runOn_pure, Prod.mk.injEq, Except.ok.injEq] at h
        rw [← h.1] at hr
        cases hr
      · rw [Act.runOn_throw] at h
        cases h

/-- A call reads the file and stores the patch. -/
lemma register_of_readText (h : w.disk.readText s.routerPath = .ok content) :
    (register s n).runOn w =
      (store s.routerPath content (Router.patch n content)).runOn w := by
  have hfile := Disk.isFile_of_readText h
  unfold register Files.read
  simp only [Act.runOn_bind, Act.runOn_look, hfile, if_true, Act.runOn_attempt, h]

/-- **A run is a sequence of patches** of the text that was in the file. -/
theorem Runs.readText (hrun : Runs s w names w') (hnames : ∀ n ∈ names, n.IsModule)
    (h : w.disk.readText s.routerPath = .ok content) :
    w'.disk.readText s.routerPath = .ok (Router.patchAll content names) := by
  induction hrun with
  | nil => exact h
  | @snoc w₁ w₂ names n r hrun hcall herror ih =>
    have hprevious := ih fun n' hn' => hnames n' (List.mem_append_left _ hn')
    have hn : n.IsModule := hnames n (by simp)
    rw [register_of_readText hprevious] at hcall
    rw [Router.patchAll_concat]
    refine readText_of_store hcall herror hprevious (Router.not_mem_patch ?_ ?_ ?_ (by decide))
    · exact Disk.not_mem_of_readText hprevious
    · exact Router.not_mem_importStatement hn rfl (by decide) (by decide)
    · exact Router.not_mem_registration hn rfl (by decide) (by decide)

/-! ## Whole runs -/

/-- A call for a module that is in the file changes nothing and says so. -/
lemma register_of_occurs (h : w.disk.readText s.routerPath = .ok content)
    (himport : occurs (importStatement n) content = true)
    (hentry : occurs (registration n) content = true ∨ locate? content = none) :
    ∃ r w', (register s n).runOn w = (.ok r, w') ∧ w'.disk = w.disk ∧ r.importAdded = false ∧
      r.routeAdded = false ∧ r.changed = false := by
  obtain ⟨hcontent, himportAdded, hrouteAdded⟩ := Router.patch_of_occurs himport hentry
  obtain ⟨w', hrun, hdisk⟩ := store_of_eq (p := s.routerPath) hcontent w
  rw [register_of_readText h]
  exact ⟨_, w', hrun, hdisk, himportAdded, hrouteAdded, rfl⟩

/-- **Whole runs.**  After any sequence of registrations, repetitions allowed, of modules whose
folder is an identifier: if the text has a list of routes, the import and the entry of every module
of the sequence are there, once each if they were missing, and the entries that were added stand in
that list in the order of their first call.  A text without a list gets the imports only, and no
list appears.  Either way one more call for any of the modules leaves the disk as it is and reports
that nothing was done. -/
theorem Runs.outcome (hrun : Runs s w names w') (hnames : ∀ n ∈ names, n.IsModule)
    (h : w.disk.readText s.routerPath = .ok content) :
    ∃ final, w'.disk.readText s.routerPath = .ok final ∧
      (∀ l, locate? content = some l →
        (∀ n ∈ names, occurs (importStatement n) final = true ∧
          occurs (registration n) final = true) ∧
        (∀ n ∈ names, occurrences (importStatement n) content = 0 →
          occurrences (importStatement n) final = 1) ∧
        (∀ n ∈ names, occurrences (registration n) content = 0 →
          occurrences (registration n) final = 1) ∧
        ∃ l', locate? final = some l' ∧ l.Within l' ∧
          InOrder (Router.addedEntries content names) l'.list) ∧
      (locate? content = none →
        locate? final = none ∧ final = Router.addImports content names ∧
          ∀ n ∈ names, occurs (importStatement n) final = true) ∧
      ∀ n ∈ names, ∃ r w'', (register s n).runOn w' = (.ok r, w'') ∧ w''.disk = w'.disk ∧
        r.importAdded = false ∧ r.routeAdded = false ∧ r.changed = false := by
  have hfinal := hrun.readText hnames h
  refine ⟨_, hfinal, fun l hl => ?_, fun hl => ?_, fun n hn => ?_⟩
  · have hregistered := Router.registered_patchAll hl hnames
    refine ⟨fun n hn => ?_, fun n hn hmissing => ?_, fun n hn hmissing => ?_, hregistered.located⟩
    · exact ⟨Router.occurs_of_countAfter hn (hregistered.statement n (hnames n hn)),
        Router.occurs_of_countAfter hn (hregistered.entry n (hnames n hn))⟩
    · rw [hregistered.statement n (hnames n hn), Router.countAfter_eq_one hn hmissing]
    · rw [hregistered.entry n (hnames n hn), Router.countAfter_eq_one hn hmissing]
  · obtain ⟨heq, hnone, hcount⟩ := Router.patchAll_of_locate?_eq_none hl hnames
    exact ⟨hnone, heq, fun n hn => Router.occurs_of_countAfter hn (hcount n (hnames n hn))⟩
  -- whether one more call finds a list was settled before the first one
  · cases hl : locate? content with
    | none =>
      obtain ⟨-, hnone, hcount⟩ := Router.patchAll_of_locate?_eq_none hl hnames
      exact register_of_occurs hfinal
        (Router.occurs_of_countAfter hn (hcount n (hnames n hn))) (.inr hnone)
    | some l =>
      have hregistered := Router.registered_patchAll hl hnames
      exact register_of_occurs hfinal
        (Router.occurs_of_countAfter hn (hregistered.statement n (hnames n hn)))
        (.inl (Router.occurs_of_countAfter hn (hregistered.entry n (hnames n hn))))

/-- Whether a call returned a result without an error. -/
def isDone : Except Failure RegistrationResult → Bool
  | .ok r => r.error.isNone
  | .error _ => false

lemma Runs.call (hrun : Runs s w names w') (h : isDone ((register s n).runOn w').1 = true) :
    Runs s w (names ++ [n]) ((register s n).runOn w').2 := by
  cases hresult : ((register s n).runOn w').1 with
  | error f =>
    rw [hresult] at h
    cases h
  | ok r =>
    rw [hresult] at h
    exact .snoc hrun (Prod.ext hresult rfl) (Option.isNone_iff_eq_none.1 h)

/-- A router file with the word `import` in a comment in the list of routes. -/
def sampleRouter : Text :=
  "import express from 'express';\nconst apiRoutes = [\n" ++
    "  \x7b path: '/user', route: UserRoutes \x7d // import later\n];\nexport default apiRoutes;\n"

/-- A disk with that file. -/
def sampleWorld : World where
  disk :=
    { home := []
      entries := [(["src".toList], .folder), (["src".toList, "routes".toList], .folder),
        (["src".toList, "routes".toList, "index.ts".toList], .file (Utf8.encode sampleRouter))] }
  remote := .script []

/-- Two modules, one of them twice: the first import lands in the list. -/
theorem Runs.outcome_in_list :
    let s : Settings := { base := ⟨.root, []⟩ }
    let order : Names := ⟨"order", "Order", "order"⟩
    let shop : Names := ⟨"My$Shop", "My$shop", "my$shop"⟩
    ∃ w' final, Runs s sampleWorld [order, shop, order] w' ∧
      w'.disk.readText s.routerPath = .ok final ∧ occurrences (importStatement order) final = 1 ∧
      ∃ l', locate? final = some l' ∧ InOrder [registration order, registration shop] l'.list := by
  intro s order shop
  have hread : sampleWorld.disk.readText s.routerPath = .ok sampleRouter :=
    eq_ok_of_toOption (by decide +kernel)
  have horder : order.IsModule := ⟨⟨"order", by decide +kernel⟩, by decide +kernel⟩
  have hshop : shop.IsModule := ⟨⟨"My$Shop", by decide +kernel⟩, by decide +kernel⟩
  have hnames : ∀ n ∈ [order, shop, order], n.IsModule := by
    simp only [List.forall_mem_cons]
    exact ⟨horder, hshop, horder, by simp⟩
  have hrun : Runs s sampleWorld [order, shop, order] _ :=
    (((Runs.nil sampleWorld).call (by decide +kernel)).call (by decide +kernel)).call
      (by decide +kernel)
  obtain ⟨final, hfinal, hlocated, -⟩ := Runs.outcome hrun hnames hread
  obtain ⟨l, hl⟩ := Option.isSome_iff_exists.1
    (show (locate? sampleRouter).isSome = true by decide +kernel)
  obtain ⟨-, honce, -, l', hl', -, hordered⟩ := hlocated l hl
  have hmissing : occurrences (importStatement order) sampleRouter = 0 := by decide +kernel
  have hadded : Router.addedEntries sampleRouter [order, shop, order] =
      [registration order, registration shop] := by decide +kernel
  rw [hadded] at hordered
  exact ⟨_, final, hrun, hfinal, honce order (by simp) hmissing, l', hl', hordered⟩

end Scaffold.Registration
