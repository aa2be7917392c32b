import Scaffold.Proofs.Disk.Addition
import Scaffold.Proofs.Generation.Concerns
import Scaffold.Proofs.Generation.Rebuild

/-!
# Failures of documentation are isolated

The two files of a module and the remote service do not depend on each other, and neither do the modules:
a folder without a module, for whatever reason (`IsUndocumented`), makes no difference to a rebuild of all
the others (`run_add`).

The two runs with and without the folder go side by side.  Their disks differ in the folder alone, they
list the same folders but for this one, and the attempt at it leaves nothing but records.  What has to be
assumed is that no documentation file has a path through the folder (`IsOffRoute`): a document in it is one
that all modules are merged with.
-/

namespace Scaffold

open Act

namespace Rebuild

variable {s : Settings} {client : Option Client} {d d' base : Disk} {m : Location} {name folderName : Text}
  {folder : Path} {w : World}

/-! ## Folders without a module -/

/-- A folder without a module: it has no interface file, its files describe no field, or one of its files
is not a text. -/
inductive IsUndocumented (d : Disk) (folder : Path) : Prop where
  | noInterface : d.isFile (fileIn folder "interface") ≠ .ok true → IsUndocumented d folder
  | noField {interface model : Text} : d.readText (fileIn folder "interface") = .ok interface →
    modelText? d folder = some model → Recovery.fields interface model = [] → IsUndocumented d folder
  | noText {kind : Text} {content : Bytes} {e : Utf8.DecodeError} : kind = "interface" ∨ kind = "model" →
    d.content? (fileIn folder kind) = some content → Utf8.decode content = .error e → IsUndocumented d folder

lemma fieldsIn?_of_noText {kind : Text} {content : Bytes} {e : Utf8.DecodeError}
    (hkind : kind = "interface" ∨ kind = "model") (hcontent : d.content? (fileIn folder kind) = some content)
    (hdecode : Utf8.decode content = .error e) : fieldsIn? d folder = none := by
  have hread : d.read (fileIn folder kind) = .ok content := eq_ok_of_toOption hcontent
  have htext : d.readText (fileIn folder kind) = .error (.encoding e) := by
    simp only [Disk.readText, hread, bind, Except.bind, hdecode]
    rfl
  rcases hkind with rfl | rfl
  · rw [fieldsIn?, htext]
    rfl
  · have hfile : d.isFile (fileIn folder "model") = .ok true :=
      Disk.isFile_of_place (Disk.content?_eq_some_iff.1 hcontent)
    have hmodel : modelText? d folder = none := by
      rw [modelText?, hfile, htext]
      rfl
    rw [fieldsIn?, hmodel]
    cases (d.readText (fileIn folder "interface")).toOption <;> rfl

/-- No module is found in the folder. -/
lemma IsUndocumented.documented? (h : IsUndocumented d folder) : documented? d folder = none := by
  unfold Rebuild.documented?
  split
  · rename_i f fs n hfile hfields _
    cases h with
    | noInterface hnone => exact absurd hfile hnone
    | noField hinterface hmodel hnone =>
      rw [fieldsIn?, hinterface, hmodel] at hfields
      exact absurd (Option.some.inj hfields) (by simp [hnone])
    | noText hkind hcontent hdecode =>
      rw [fieldsIn?_of_noText hkind hcontent hdecode] at hfields
      cases hfields
  · rfl

/-! ## Adding a folder -/

/-- A second disk that has one more folder with modules, whatever is in it. -/
structure Adds (s : Settings) (m : Location) (name : Text) (d d' : Disk) : Prop where
  tree : d.IsTree
  tree' : d'.IsTree
  home : d'.home = d.home
  plan : d'.plan = d.plan
  modules : d.place s.modulesPath = .ok ⟨m, some .folder⟩
  fresh : d.find? (m ++ [name]) = none
  folder : d'.find? (m ++ [name]) = some .folder
  rest : ∀ l, ¬ m ++ [name] <+: l → d'.find? l = d.find? l

/-- A file that is saved without going through a location. -/
structure IsOffRoute (l : Location) (d : Disk) (p : Path) : Prop where
  way : ¬ d.OnWay p l
  temporary : ¬ d.OnWay (d.temporary p) l

/-- The documentation files of all modules are saved without going through a folder. -/
structure KeepsClear (s : Settings) (m : Location) (name : Text) (d : Disk) : Prop where
  document : s.updateDocument = true → IsOffRoute (m ++ [name]) d s.documentPath
  collection : s.updateCollection = true → ∀ folderName ∈ d.listed m, ∀ n, Names.ofRaw? folderName = some n →
    IsOffRoute (m ++ [name]) d (Documentation.collectionFile s n)

/-- Disks on which two runs are side by side. -/
def SideBySide (m : Location) (name : Text) (base d d' : Disk) : Prop :=
  Disk.Alike (m ++ [name]) base d d' ∧ Disk.Leaves (fun _ => False) base d'

section Adds

variable (hadds : Adds s m name d base)

include hadds

lemma Adds.sideBySide : SideBySide m name base d base :=
  ⟨⟨hadds.home.symm, rfl, hadds.plan, hadds.rest, fun _ _ => rfl⟩, .refl _ _⟩

/-- Nothing is below a folder that is not there. -/
lemma Adds.not_prefix_of_find? {l : Location} {e : Entry} (hl : d.find? l = some e) : ¬ m ++ [name] <+: l := by
  induction l using List.reverseRecOn generalizing e with
  | nil => simp
  | append_singleton l part ih =>
    intro hprefix
    rcases List.prefix_concat_iff.1 hprefix with heq | hprefix
    · rw [← heq, hadds.fresh] at hl
      cases hl
    · exact ih (hadds.tree.parent l part e hl) hprefix

lemma Adds.not_prefix_home : ¬ m ++ [name] <+: base.home :=
  hadds.home ▸ hadds.not_prefix_of_find? hadds.tree.home

/-- What is done with a file off the folder is the same in both runs. -/
lemma Adds.respects {p : Path} (hp : IsOffRoute (m ++ [name]) d p) :
    Disk.Respects (SideBySide m name base) p := by
  have hne : m ++ [name] ≠ [] := by simp
  have hhome := hadds.not_prefix_home
  have hway : ¬ base.OnWay p (m ++ [name]) := by
    rw [Disk.onWay_of_home hadds.home]
    exact hp.way
  have htemporary : ¬ base.OnWay (base.temporary p) (m ++ [name]) := by
    rw [Disk.onWay_of_home hadds.home, Disk.temporary_of_home hadds.home]
    exact hp.temporary
  refine ⟨fun d d' h => ?_, fun d d' h => ?_, fun d d' h => ?_, fun content d d' h => ?_⟩
  · exact h.1.holds hne hhome hway _
  · exact h.1.readText hne hhome hway
  · obtain ⟨hresult, hdisk⟩ := h.1.makeFolders hne hhome fun hparent => hway (Disk.onWay_of_parent hparent)
    exact ⟨hresult, hdisk, h.2.trans (Disk.leaves_makeFolders _ _ _)⟩
  · obtain ⟨hresult, hdisk⟩ := h.1.writeAtomic hne hhome hway htemporary content
    have hchanges : Disk.Changes (· = d'.destination p) (fun _ => True) d' (d'.writeAtomic p content).2 :=
      Disk.changes_writeAtomic p content d'
    exact ⟨hresult, hdisk, h.2.trans (hchanges.leaves.mono fun _ hl => hl.elim)⟩

/-- What the path of the modules goes through is there, and the folder is not. -/
lemma Adds.not_onWay_modules : ¬ d.OnWay s.modulesPath (m ++ [name]) := by
  rintro ⟨ps, ⟨qs, hqs⟩, heq⟩
  have hfolder : ∃ m', d.place ⟨s.modulesPath.anchor, ps⟩ = .ok ⟨m', some .folder⟩ := by
    cases qs with
    | nil =>
      rw [List.append_nil] at hqs
      exact ⟨m, hqs ▸ hadds.modules⟩
    | cons part qs =>
      refine Disk.exists_place_of_append hadds.tree (List.cons_ne_nil part qs) (q := ⟨m, some .folder⟩) ?_
      rw [hqs]
      exact hadds.modules
  obtain ⟨m', hm'⟩ := hfolder
  have hlocation : m' = d.destination ⟨s.modulesPath.anchor, ps⟩ := Disk.location_of_place hm'
  have hfound : some Entry.folder = d.find? m' := Disk.found?_of_place hm'
  rw [hlocation, ← heq, hadds.fresh] at hfound
  cases hfound

lemma Adds.place_modules : base.place s.modulesPath = .ok ⟨m, some .folder⟩ := by
  have hway : ¬ base.OnWay s.modulesPath (m ++ [name]) := by
    rw [Disk.onWay_of_home hadds.home]
    exact hadds.not_onWay_modules
  rw [hadds.sideBySide.1.place (by simp) hadds.not_prefix_home hway, hadds.modules]

/-- The source files of another module are not in the folder. -/
lemma Adds.not_onWay_source (hlisted : folderName ∈ d.listed m) {kind : Text} (hkind : '/' ∉ kind) :
    ¬ base.OnWay (fileIn (folderOf s folderName) kind) (m ++ [name]) := by
  have hfound := Disk.mem_listed.1 hlisted
  have hname : Disk.IsName folderName := hadds.tree.name m folderName _ hfound
  have hne : folderName ≠ name := by
    rintro rfl
    rw [hadds.fresh] at hfound
    cases hfound
  have hsource : sourceName folderName kind ≠ ['.', '.'] := fun h => by
    have hlength := length_sourceName folderName kind
    rw [h] at hlength
    exact absurd hlength (Nat.lt_irrefl 2)
  rw [Disk.onWay_of_home hadds.home, folderOf, fileIn_eq _ _ hname.1 hkind]
  rintro ⟨ps, hps, heq⟩
  -- the way to a source file goes to the folder of the modules, and then down to another folder
  rcases List.prefix_or_prefix_of_prefix hps (List.prefix_append s.modulesPath.parts _) with hbefore | ⟨qs, rfl⟩
  · exact hadds.not_onWay_modules ⟨ps, hbefore, heq⟩
  · have hqs : qs <+: [folderName, sourceName folderName kind] := (List.prefix_append_right_inj _).1 hps
    have hdots : ['.', '.'] ∉ qs := fun hmem => by
      have hmem := hqs.subset hmem
      simp only [List.mem_cons, List.not_mem_nil, or_false] at hmem
      rcases hmem with h | h
      · exact hname.2 h.symm
      · exact hsource h.symm
    have hm : m = d.destination ⟨s.modulesPath.anchor, s.modulesPath.parts⟩ :=
      Disk.location_of_place hadds.modules
    rw [Disk.destination_below hdots, ← hm] at heq
    rw [← List.append_cancel_left heq, List.prefix_cons_iff] at hqs
    rcases hqs with h | ⟨rest, h, -⟩
    · cases h
    · exact hne (List.cons.inj h).1.symm

/-- A rebuild of another module is the same in both runs. -/
lemma Adds.respects_rebuild (hclear : KeepsClear s m name d) (hlisted : folderName ∈ d.listed m) :
    Act.Respects (SideBySide m name base) (rebuild s client (folderOf s folderName)) := by
  have hname : (folderOf s folderName).name = folderName := by simp [folderOf, Path.name]
  refine Rebuild.respects_rebuild (fun kind hkind d d' h => ?_) (fun hwanted n hn => ?_) fun hwanted => ?_
  · have hslash : '/' ∉ kind := by
      rcases hkind with rfl | rfl
      · decide
      · decide
    have hway := hadds.not_onWay_source hlisted hslash
    exact ⟨h.1.readText (by simp) hadds.not_prefix_home hway, h.1.holds (by simp) hadds.not_prefix_home hway _⟩
  · exact hadds.respects (hclear.collection hwanted folderName hlisted n (hname ▸ hn))
  · exact hadds.respects (hclear.document hwanted)

/-- The folder is without a module for the whole run. -/
lemma Adds.documented?_eq_none (hundocumented : IsUndocumented base (folderOf s name)) {before after : Disk}
    (h : SideBySide m name base before after) : documented? after (folderOf s name) = none := by
  have hname : Disk.IsName name := hadds.tree'.name m name _ hadds.folder
  rw [folderOf, documented?_congr hadds.place_modules hadds.folder hname h.2 ?_]
  · exact hundocumented.documented?
  · intro kind hkind c
    rw [h.1.inside _ ?_]
    exact ⟨[sourceName name kind], by simp⟩

end Adds

/-! ## The two runs -/

/-- An action that is only recorded can be left out of one of the runs. -/
lemma matches_skip {α β : Type} {R : Disk → Disk → Prop} {a : Act α} {b : Act β} {k : β → Act α} {x : β}
    (hskip : ∀ w w', World.Related R w w' → ∃ w₁, b.runOn w' = (.ok x, w₁) ∧ IsSilent w' w₁)
    (h : Matches R a (k x)) : Matches R a (b >>= k) := by
  intro w w' hw
  obtain ⟨w₁, hrun, hsilent⟩ := hskip w w' hw
  have hw₁ : World.Related R w w₁ := by
    rw [hsilent]
    exact ⟨hw.disk, hw.remote, hw.requests⟩
  rw [runOn_bind, hrun]
  exact h w w₁ hw₁

/-- The attempt at a folder without a module makes no difference. -/
lemma matches_rebuildAll_add {R : Disk → Disk → Prop} {before after : List Path}
    (hrest : ∀ f ∈ before ++ after, Act.Respects R (rebuild s client f))
    (hnone : ∀ d d', R d d' → documented? d' folder = none) :
    Matches R (rebuildAll s client (before ++ after)) (rebuildAll s client (before ++ folder :: after)) := by
  have hattempted : ∀ f ∈ before ++ after, Act.Respects R (attempted s client f) := by
    intro f hf
    refine (hrest f hf).attempt.bind fun r => ?_
    split
    · exact .pure _
    · exact (Respects.say _).bind fun _ => .pure _
  have hall : ∀ fs, (∀ f ∈ fs, Act.Respects R (attempted s client f)) → Act.Respects R (rebuildAll s client fs) := by
    intro fs hfs
    induction fs with
    | nil => exact .pure _
    | cons f fs ih =>
      rw [rebuildAll_cons]
      exact (hfs f (List.mem_cons_self ..)).bind fun _ =>
        (ih fun f hf => hfs f (List.mem_cons_of_mem _ hf)).bind fun _ => .pure _
  induction before with
  | nil =>
    rw [List.nil_append, List.nil_append, rebuildAll_cons]
    refine matches_skip (fun w w' hw => runOn_attempted_none s client (hnone _ _ hw.disk)) ?_
    simp only [Bool.false_eq_true, if_false, Nat.zero_add, bind_pure]
    exact hall after hattempted
  | cons f before ih =>
    rw [List.cons_append, List.cons_append, rebuildAll_cons, rebuildAll_cons]
    have hmem : ∀ g ∈ before ++ after, g ∈ f :: before ++ after := fun g hg => List.mem_cons_of_mem _ hg
    exact Matches.bind (hattempted f (List.mem_cons_self ..)) fun _ =>
      (ih (fun g hg => hrest g (hmem g hg)) fun g hg => hattempted g (hmem g hg)).bind fun _ => Respects.pure _

/-- A run over all modules, after it looked at their folder. -/
lemma runOn_run_all {m : Location} (hplace : w.disk.place s.modulesPath = .ok ⟨m, some .folder⟩) :
    (run s [] client).runOn w = (do
      let client ← sharedClient s client
      let updated ← rebuildAll s client ((w.disk.listed m).map (folderOf s))
      Act.say [⟨.info, .documentation, "Updated documentation for " ++ Text.ofNat updated ++ " module(s)"⟩]
      return updated : Act Nat).runOn { w with log := w.log ++
        [⟨.info, .documentation, "Scanning existing modules for documentation updates..."⟩] } := by
  have hlisted : w.disk.subfolders s.modulesPath = .ok ((w.disk.listed m).map (folderOf s)) :=
    Disk.subfolders_eq hplace
  simp only [run, runOn_bind, runOn_look, Disk.isFolder_of_place hplace, if_true, runOn_say, hlisted, chosen,
    List.isEmpty_nil, Bool.not_true, Bool.false_and, Bool.false_eq_true, if_false]

/-- What is said at the end of a run does not change its result. -/
lemma toOption_bind_say {α : Type} {p : Act α} {a : α} (records : α → List Log.Record)
    (h : (p.runOn w).1.toOption = some a) :
    ((do let x ← p; Act.say (records x); return x : Act α).runOn w).1.toOption = some a := by
  rw [runOn_bind]
  generalize p.runOn w = ran at h
  obtain ⟨r, w'⟩ := ran
  cases r with
  | error f => cases h
  | ok x => exact h

/-- **A folder without a module makes no difference** to a rebuild of all modules: it counts the same, sends
the same requests, and leaves the same files; what is in the folder stays. -/
theorem run_add (client : Option Client) (hadds : Adds s m name w.disk d') (hclear : KeepsClear s m name w.disk)
    (hundocumented : IsUndocumented d' (folderOf s name)) :
    let without := (run s [] client).runOn w
    let among := (run s [] client).runOn { w with disk := d' }
    among.1 = without.1 ∧ among.2.requests = without.2.requests ∧ among.2.remote = without.2.remote ∧
      (∀ l, ¬ m ++ [name] <+: l → among.2.disk.find? l = without.2.disk.find? l) ∧
        ∀ l, m ++ [name] <+: l → among.2.disk.find? l = d'.find? l := by
  intro without among
  obtain ⟨before, after, hlisted', hlisted⟩ := Disk.exists_listed_eq hadds.tree hadds.tree' hadds.fresh
    hadds.folder hadds.rest
  -- the lists differ in the one folder, and rebuilding it matches doing nothing
  have hmatches : Matches (SideBySide m name d') (do
        let client ← sharedClient s client
        let updated ← rebuildAll s client ((w.disk.listed m).map (folderOf s))
        Act.say [⟨.info, .documentation, "Updated documentation for " ++ Text.ofNat updated ++ " module(s)"⟩]
        return updated) (do
        let client ← sharedClient s client
        let updated ← rebuildAll s client ((d'.listed m).map (folderOf s))
        Act.say [⟨.info, .documentation, "Updated documentation for " ++ Text.ofNat updated ++ " module(s)"⟩]
        return updated) := by
    have hclient : Act.Respects (SideBySide m name d') (sharedClient s client) := by
      unfold sharedClient
      split
      · exact (Respects.ofExcept _).bind fun _ => .pure _
      · exact .pure _
    refine Matches.bind hclient fun client => Matches.bind ?_ fun _ => (Respects.say _).bind fun _ => .pure _
    rw [hlisted', hlisted, List.map_append, List.map_append, List.map_cons]
    refine matches_rebuildAll_add (fun f hf => ?_) fun d d' h => hadds.documented?_eq_none hundocumented h
    rw [← List.map_append, ← hlisted] at hf
    obtain ⟨folderName, hname, rfl⟩ := List.mem_map.1 hf
    exact hadds.respects_rebuild hclear hname
  have hwithout : without = _ := runOn_run_all hadds.modules
  have hamong : among = _ := runOn_run_all hadds.place_modules
  obtain ⟨hresult, hworld⟩ := hmatches { w with log := w.log ++
    [⟨.info, .documentation, "Scanning existing modules for documentation updates..."⟩] }
    { w with disk := d', log := w.log ++
      [⟨.info, .documentation, "Scanning existing modules for documentation updates..."⟩] }
    ⟨hadds.sideBySide, rfl, rfl⟩
  rw [hwithout, hamong]
  exact ⟨hresult, hworld.requests, hworld.remote, hworld.disk.1.outside, hworld.disk.1.inside⟩

end Rebuild

namespace Documentation

open Rebuild

/-! ## A shop with a folder of drafts -/

/-- A disk with one module. -/
def shopDisk : Disk where
  home := []
  entries := [(["m".toList], .folder), (["m".toList, "shop".toList], .folder),
    (["m".toList, "shop".toList, "shop.interface.ts".toList], .file (Utf8.encode shopInterface))]

/-- An API document that cannot be merged with. -/
def misfitDocument : Bytes := Utf8.encode "\x7b\"paths\":5\x7d"

/-- The disk with a folder beside the module, in which there is an API document. -/
def draftsDisk : Disk where
  home := []
  entries := shopDisk.entries ++ [(["m".toList, "drafts".toList], .folder),
    (["m".toList, "drafts".toList, "d".toList], .file misfitDocument)]

/-- The names of the module. -/
def shopNames : Names := ⟨"shop", "Shop", "shop"⟩

/-- Settings with credentials and short names. -/
def remoteSettings : Settings :=
  { shopSettings with apiKey := some ['k'], collectionId := some ['i'] }

lemma isTree_shopDisk : shopDisk.IsTree := .of_entries (by decide) rfl (by decide)

/-- The folder of drafts is added, wherever the documentation is. -/
lemma adds_drafts {s : Settings} (hmodules : s.modulesPath = ⟨.root, ["m".toList]⟩) :
    Adds s ["m".toList] "drafts" shopDisk draftsDisk where
  tree := isTree_shopDisk
  tree' := .of_entries (by decide) rfl (by decide)
  home := rfl
  plan := rfl
  modules := by
    rw [hmodules]
    exact Disk.place_eq_of_map (by decide)
  fresh := by decide
  folder := by decide
  rest l hl := by
    cases l with
    | nil => rfl
    | cons part parts =>
      have hfolder : part :: parts ≠ ["m".toList, "drafts".toList] := fun h => hl ⟨[], h.symm⟩
      have hinside : part :: parts ≠ ["m".toList, "drafts".toList, "d".toList] := fun h =>
        hl ⟨["d".toList], h.symm⟩
      rw [Disk.find?, Disk.find?, draftsDisk, Table.find?_append, Table.find?, if_neg (Ne.symm hfolder),
        Table.find?, if_neg (Ne.symm hinside), Table.find?, Option.or_none]

/-- The folder of drafts has no interface file. -/
lemma isUndocumented_drafts {s : Settings} (hmodules : s.modulesPath = ⟨.root, ["m".toList]⟩) :
    IsUndocumented draftsDisk (folderOf s "drafts") := by
  have hfile : (draftsDisk.isFile (fileIn (folderOf s "drafts") "interface")).toOption = some false := by
    rw [folderOf, hmodules]
    decide +kernel
  refine .noInterface fun h => ?_
  rw [h] at hfile
  cases hfile

lemma areUnrelated_shop : AreUnrelated remoteSettings shopNames shopDisk where
  sound := ⟨isTree_shopDisk, rfl⟩
  base := nofun
  descends := isTree_shopDisk.descends (by decide)
  document := by decide
  collection := by decide
  temporary := by decide

lemma keepsClear_drafts : KeepsClear remoteSettings ["m".toList] "drafts" shopDisk where
  document _ := ⟨by decide, by decide⟩
  collection _ folderName hlisted n hn := by
    have hmem := Disk.mem_entries_of_find? (Disk.mem_listed.1 hlisted)
    obtain rfl : folderName = "shop".toList := by
      simpa only [shopDisk, List.mem_cons, Prod.mk.injEq, List.cons_append, List.nil_append, List.cons.injEq,
        List.not_mem_nil, or_false, and_true, true_and, reduceCtorEq, and_false, false_or] using hmem
    have hcollection : (Names.ofRaw? "shop").map (collectionFile remoteSettings) = some shopCollection := by
      decide
    rw [hn] at hcollection
    rw [Option.some.inj hcollection]
    exact ⟨by decide, by decide⟩

/-! ## Isolation -/

/-- **Failures of documentation are isolated.**  Documenting a module always reports.  If its two files are
unrelated, the API document is what it would be without a request collection, and the request collection
what it would be without the remote service, whatever this answers.  A folder without a module makes no
difference to a rebuild of all modules, if no documentation file has a path through it. -/
theorem failures_are_isolated :
    (∀ (s : Settings) (n : Names) (fields : List Field) (client : Option Client) (w : World),
      let full := (update s n fields client).runOn w
      let alone := (update (withoutCollection s) n fields client).runOn w
      let offline := (update (withoutCredentials s) n fields client).runOn w
      let document := w.disk.destination s.documentPath
      let collection := w.disk.destination (collectionFile s n)
      (∃ r, full.1 = .ok r) ∧ (AreUnrelated s n w.disk →
        full.2.disk.find? document = alone.2.disk.find? document ∧
          full.2.disk.find? collection = offline.2.disk.find? collection)) ∧
    ∀ (s : Settings) (client : Option Client) (w : World) (d : Disk) (m : Location) (name : Text),
      Adds s m name w.disk d → KeepsClear s m name w.disk → IsUndocumented d (folderOf s name) →
        let without := (run s [] client).runOn w
        let among := (run s [] client).runOn { w with disk := d }
        among.1 = without.1 ∧ among.2.requests = without.2.requests ∧ among.2.remote = without.2.remote ∧
          (∀ l, ¬ m ++ [name] <+: l → among.2.disk.find? l = without.2.disk.find? l) ∧
            ∀ l, m ++ [name] <+: l → among.2.disk.find? l = d.find? l := by
  refine ⟨fun s n fields client w => ⟨?_, fun hunrelated => ⟨?_, ?_⟩⟩, ?_⟩
  · obtain ⟨r, _, _, hrun, -⟩ := exists_runOn_update s n fields client w
    exact ⟨r, congrArg Prod.fst hrun⟩
  · exact find?_update_document hunrelated
  · exact find?_update_collection hunrelated
  · intro s client w d m name hadds hclear hundocumented
    exact run_add client hadds hclear hundocumented

/-- With a remote service that fails, the API document is written and the request collection is there; a
folder of drafts makes no difference to a rebuild. -/
theorem failures_are_isolated_shop :
    let fields := Recovery.fields shopInterface []
    let w : World := { disk := shopDisk, remote := .script [] }
    let full := (update remoteSettings shopNames fields none).runOn w
    let alone := (update (withoutCollection remoteSettings) shopNames fields none).runOn w
    let offline := (update (withoutCredentials remoteSettings) shopNames fields none).runOn w
    let without := (run remoteSettings [] none).runOn w
    let among := (run remoteSettings [] none).runOn { w with disk := draftsDisk }
    remoteSettings.isRemote = true ∧ AreUnrelated remoteSettings shopNames shopDisk ∧
      full.2.disk.find? ["d".toList] = alone.2.disk.find? ["d".toList] ∧
      full.2.disk.find? ["c".toList, "shop.postman_collection.json".toList] =
        offline.2.disk.find? ["c".toList, "shop.postman_collection.json".toList] ∧
      KeepsClear remoteSettings ["m".toList] "drafts" shopDisk ∧
      IsUndocumented draftsDisk (folderOf remoteSettings "drafts") ∧
      among.1 = without.1 ∧ among.2.requests = without.2.requests := by
  intro fields w
  have hmodules : remoteSettings.modulesPath = ⟨.root, ["m".toList]⟩ := by decide +kernel
  have hdocument : w.disk.destination remoteSettings.documentPath = ["d".toList] := by decide +kernel
  have hcollection : w.disk.destination (collectionFile remoteSettings shopNames) =
      ["c".toList, "shop.postman_collection.json".toList] := by decide +kernel
  obtain ⟨-, hfiles⟩ := failures_are_isolated.1 remoteSettings shopNames fields none w
  obtain ⟨hfirst, hsecond⟩ := hfiles areUnrelated_shop
  rw [hdocument] at hfirst
  rw [hcollection] at hsecond
  have hundocumented := isUndocumented_drafts hmodules
  obtain ⟨hcount, hrequests, -⟩ := failures_are_isolated.2 remoteSettings none w draftsDisk ["m".toList] "drafts"
    (adds_drafts hmodules) keepsClear_drafts hundocumented
  exact ⟨by decide, areUnrelated_shop, hfirst, hsecond, keepsClear_drafts, hundocumented, hcount, hrequests⟩

/-! ## Paths that are not -/

/-- Settings with an API document on the other side of the folder for request collections. -/
def aroundSettings : Settings := { shopSettings with documentFile := "c/../d" }

/-- A disk with an API document only. -/
def misfitDisk : Disk where
  home := []
  entries := [(["d".toList], .file misfitDocument)]

/-- Settings with an API document in the folder of drafts. -/
def withinSettings : Settings := { shopSettings with documentFile := "m/drafts/d", updateCollection := false }

/-- No module is documented if the document cannot be merged with. -/
lemma count_within {before after : List Text} (h : before ++ after = ["shop".toList]) :
    ((rebuildAll withinSettings none
      ((before ++ "drafts".toList :: after).map (folderOf withinSettings))).runOn
      { disk := draftsDisk, remote := .script [], log := [⟨.info, .documentation,
        "Scanning existing modules for documentation updates..."⟩] }).1.toOption = some 0 := by
  rcases List.append_eq_singleton_iff.1 h with ⟨rfl, rfl⟩ | ⟨rfl, rfl⟩
  · decide +kernel
  · decide +kernel

/-- **Two paths that undo the isolation.**  A document path that steps out of the folder for request
collections leads nowhere as long as no collection was written; then a document that cannot be merged with is
overwritten, where it would have been kept.  And a folder without a module can have such a document, which
then is the one of all modules. -/
theorem failures_are_not_isolated_on_the_way :
    let misfit : World := { disk := misfitDisk, remote := .script [] }
    let shop : World := { disk := shopDisk, remote := .script [] }
    let document := misfitDisk.destination aroundSettings.documentPath
    let collection := misfitDisk.destination (collectionFile aroundSettings shopNames)
    (¬ document <+: collection ∧ ¬ collection <+: document ∧
      ((update aroundSettings shopNames [] none).runOn misfit).2.disk.find? document ≠
        ((update (withoutCollection aroundSettings) shopNames [] none).runOn misfit).2.disk.find? document) ∧
    Adds withinSettings ["m".toList] "drafts" shopDisk draftsDisk ∧
      IsUndocumented draftsDisk (folderOf withinSettings "drafts") ∧
      ((run withinSettings [] none).runOn { shop with disk := draftsDisk }).1 ≠
        ((run withinSettings [] none).runOn shop).1 := by
  intro misfit shop document collection
  refine ⟨⟨by decide +kernel, by decide +kernel, ?_⟩, ?_⟩
  · -- the document is only found once the folder that its path steps out of is there
    have hkept : ((update aroundSettings shopNames [] none).runOn misfit).2.disk.find? document =
        some (.file misfitDocument) := by decide +kernel
    have hwritten : ((update (withoutCollection aroundSettings) shopNames [] none).runOn misfit).2.disk.find?
        document ≠ some (.file misfitDocument) := by decide +kernel
    rw [hkept]
    exact Ne.symm hwritten
  · have hmodules : withinSettings.modulesPath = ⟨.root, ["m".toList]⟩ := by decide +kernel
    have hadds : Adds withinSettings ["m".toList] "drafts" shopDisk draftsDisk := adds_drafts hmodules
    refine ⟨hadds, isUndocumented_drafts hmodules, fun h => ?_⟩
    have hwithout : ((run withinSettings [] none).runOn shop).1.toOption = some 1 := by decide +kernel
    obtain ⟨before, after, hlisted', hlisted⟩ := Disk.exists_listed_eq hadds.tree hadds.tree' hadds.fresh
      hadds.folder hadds.rest
    have hshop : shopDisk.listed ["m".toList] = ["shop".toList] := by decide +kernel
    have hcount := count_within (hlisted.symm.trans hshop)
    rw [← hlisted'] at hcount
    have hamong : ((run withinSettings [] none).runOn { shop with disk := draftsDisk }).1.toOption = some 0 := by
      rw [runOn_run_all hadds.place_modules]
      have hclient : sharedClient withinSettings none = pure none := rfl
      rw [hclient, pure_bind]
      exact toOption_bind_say _ hcount
    rw [h, hwithout] at hamong
    cases hamong

end Documentation

end Scaffold
