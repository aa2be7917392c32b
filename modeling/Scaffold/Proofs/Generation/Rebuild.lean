import Scaffold.Proofs.Disk.Writable
import Scaffold.Proofs.Generation.Sources
import Scaffold.Proofs.Generation.Upkeeps

/-!
# Rebuilding the documentation twice

A rebuild keeps the files of all modules up to date that are on the disk, and a second one finds the
same modules: it writes none of their source files, and a folder that the first one made has none
(`modulesOn_saved`).  So both runs are the same upkeeps, and these change nothing when they are
repeated (`run_twice`).
-/

namespace Scaffold.Rebuild

open Documentation

variable {s : Settings} {targets : List Text} {w : World} {d d' d'' : Disk} {m : Location} {name : Text}

/-! ## The modules on a disk -/

/-- The folder of a module. -/
def folderOf (s : Settings) (name : Text) : Path := ⟨s.modulesPath.anchor, s.modulesPath.parts ++ [name]⟩

/-- Whether a folder is asked for. -/
def isChosen (targets : List Text) (name : Text) : Bool :=
  targets.isEmpty || decide (Text.lower name ∈ targets.map Text.lower)

/-- The module of a name, if it is asked for. -/
def moduleOf? (s : Settings) (targets : List Text) (d : Disk) (name : Text) : Option Module :=
  if isChosen targets name then documented? d (folderOf s name) else none

/-- The modules whose documentation is rebuilt. -/
def modulesOn (s : Settings) (targets : List Text) (d : Disk) : List Module :=
  match d.place s.modulesPath with
  | .ok place => (d.listed place.location).filterMap (moduleOf? s targets d)
  | .error _ => []

/-- The files that are kept up to date. -/
def files (s : Settings) (targets : List Text) (d : Disk) : Path → Prop :=
  Upkeep.paths (allUpkeeps s (modulesOn s targets d))

/-- A project whose documentation can be rebuilt. -/
structure IsProject (s : Settings) (targets : List Text) (d : Disk) : Prop where
  tree : d.IsTree
  base : Disk.HasNames s.base
  /-- All writes succeed. -/
  writable : d.AcceptsSaves (files s targets d)
  /-- Different files are in different places. -/
  apart : ∀ p r, files s targets d p → files s targets d r → p ≠ r → d.destination p ≠ d.destination r
  document : IsApart s (modulesOn s targets d)
  /-- No file that is kept up to date is a source file of a module. -/
  sources : ∀ p, files s targets d p → ∀ name, Disk.IsName name → ∀ kind : Text,
    kind = "interface" ∨ kind = "model" → d.destination p ≠ d.destination (fileIn (folderOf s name) kind)
  /-- What is written into the API document is read back. -/
  readsBack : ∀ c, d.find? (d.destination s.documentPath) = some (.file c) → ∀ u v,
    OpenApi.updated u (some c) = .ok v → Json.parse v.fileText = .ok v

/-! ## Names in paths -/

lemma hasNames_of_mem_allUpkeeps {ms : List Module} {p : Path} (hbase : Disk.HasNames s.base)
    (h : Upkeep.paths (allUpkeeps s ms) p) : Disk.HasNames p := by
  obtain ⟨a, ha, rfl⟩ := h
  rcases mem_allUpkeeps_iff.1 ha with ⟨-, m, -, rfl⟩ | ⟨-, m, -, rfl⟩
  · exact hasNames_child (hasNames_child hbase _) _
  · exact hasNames_child hbase _

/-! ## The second run finds the same modules -/

lemma filterMap_eq_of_filter_eq {α β : Type} {f f' : α → Option β} {l l' : List α}
    (hfilter : (l'.filter fun x => (f' x).isSome) = l.filter fun x => (f x).isSome)
    (hsame : ∀ x ∈ l'.filter fun x => (f' x).isSome, f' x = f x) : l'.filterMap f' = l.filterMap f := by
  have hsome : ∀ (g : α → Option β) (l : List α), l.filterMap g = (l.filter fun x => (g x).isSome).filterMap g := by
    intro g l
    rw [List.filterMap_filter]
    refine List.filterMap_congr fun x _ => ?_
    cases g x <;> rfl
  rw [hsome f' l', hsome f l, ← hfilter]
  exact List.filterMap_congr hsame

/-- Where the source files of a module are. -/
lemma destination_fileIn (hplace : d.place s.modulesPath = .ok ⟨m, some .folder⟩)
    (hname : Disk.IsName name) {kind : Text} (hkind : kind = "interface" ∨ kind = "model") :
    d.destination (fileIn (folderOf s name) kind) = m ++ [name, sourceName name kind] := by
  have hslash : '/' ∉ kind := by
    rcases hkind with rfl | rfl
    · decide
    · decide
  have hdots : sourceName name kind ≠ ['.', '.'] := fun h => by
    have hlength := length_sourceName name kind
    rw [h] at hlength
    exact absurd hlength (Nat.lt_irrefl 2)
  rw [folderOf, fileIn_eq _ _ hname.1 hslash, Disk.destination_append hplace hname.2 hdots]

section Project

variable (hproject : IsProject s targets d) (hplace : d.place s.modulesPath = .ok ⟨m, some .folder⟩)

include hproject

lemma IsProject.hasNames {p : Path} (hp : files s targets d p) : Disk.HasNames p :=
  hasNames_of_mem_allUpkeeps hproject.base hp

include hplace

/-- The source files of a module are none of the files that are kept up to date. -/
lemma IsProject.ne_destination (hname : Disk.IsName name) {kind : Text}
    (hkind : kind = "interface" ∨ kind = "model") {p : Path} (hp : files s targets d p) :
    m ++ [name, sourceName name kind] ≠ d.destination p := by
  rw [← destination_fileIn hplace hname hkind]
  exact Ne.symm (hproject.sources p hp name hname kind hkind)

/-- A module is the same after files were saved, and a new folder has none. -/
lemma IsProject.moduleOf?_saved (hsaved : Disk.Saved (files s targets d) d d')
    (hname : name ∈ d'.listed m) :
    moduleOf? s targets d' name = if name ∈ d.listed m then moduleOf? s targets d name else none := by
  have hnames : ∀ p, files s targets d p → Disk.HasNames p := fun p => hproject.hasNames
  have hisName : Disk.IsName name := (hsaved.tree hnames hproject.tree).name m name _ (Disk.mem_listed.1 hname)
  have hleaves := (hsaved.leaves hnames).mono fun _ h => False.elim h
  have hsame : ∀ kind : Text, kind = "interface" ∨ kind = "model" → ∀ c,
      d'.find? (m ++ [name, sourceName name kind]) = some (.file c) ↔
        d.find? (m ++ [name, sourceName name kind]) = some (.file c) := fun kind hkind c =>
    hsaved.find?_file hnames fun p hp => hproject.ne_destination hplace hisName hkind hp
  unfold moduleOf?
  split
  · split
    · rename_i hlisted
      exact documented?_congr hplace (Disk.mem_listed.1 hlisted) hisName hleaves hsame
    · rename_i hlisted
      have hplace' := hleaves.place hplace
      simp only [hleaves.folder m (Disk.found?_of_place hplace).symm] at hplace'
      refine documented?_eq_none hplace' (Disk.mem_listed.1 hname) hisName fun c hc => hlisted ?_
      rw [hsame _ (.inl rfl)] at hc
      have hparent : m ++ [name, sourceName name "interface"] =
          (m ++ [name]) ++ [sourceName name "interface"] := by simp
      rw [hparent] at hc
      exact Disk.mem_listed.2 (hproject.tree.parent _ _ _ hc)
  · split <;> rfl

/-- **The second run finds the same modules.** -/
theorem IsProject.modulesOn_saved (hsaved : Disk.Saved (files s targets d) d d') :
    modulesOn s targets d' = modulesOn s targets d := by
  have hnames : ∀ p, files s targets d p → Disk.HasNames p := fun p => hproject.hasNames
  have hleaves := hsaved.leaves hnames
  have hfolder : ∀ name ∈ d.listed m, name ∈ d'.listed m := fun name h =>
    Disk.mem_listed.2 (hleaves.folder _ (Disk.mem_listed.1 h))
  have hmodule : ∀ name ∈ d'.listed m, moduleOf? s targets d' name =
      if name ∈ d.listed m then moduleOf? s targets d name else none := fun name h =>
    hproject.moduleOf?_saved hplace hsaved h
  rw [modulesOn, modulesOn, hleaves.place hplace, hplace]
  refine filterMap_eq_of_filter_eq (Disk.listed_filter_eq hproject.tree (hsaved.tree hnames hproject.tree) ?_)
    fun name hname => ?_
  · intro name
    constructor
    · rintro ⟨hlisted, hsome⟩
      rw [hmodule name hlisted] at hsome
      split at hsome
      · rename_i hbefore
        exact ⟨hbefore, hsome⟩
      · cases hsome
    · rintro ⟨hlisted, hsome⟩
      refine ⟨hfolder name hlisted, ?_⟩
      rwa [hmodule name (hfolder name hlisted), if_pos hlisted]
  · obtain ⟨hlisted, hsome⟩ := List.mem_filter.1 hname
    rw [hmodule name hlisted] at hsome ⊢
    split at hsome
    · rename_i hbefore
      rw [if_pos hbefore]
    · cases hsome

end Project

/-! ## A run -/

/-- The folders that are asked for. -/
lemma chosen_map (targets : List Text) (names : List Text) :
    chosen targets (names.map (folderOf s)) = (names.filter (isChosen targets)).map (folderOf s) := by
  have hname : ∀ name, (folderOf s name).name = name := fun name => by simp [folderOf, Path.name]
  unfold chosen isChosen
  cases targets.isEmpty with
  | true => simp
  | false =>
    simp only [Bool.false_eq_true, if_false, Bool.false_or]
    rw [List.filter_map]
    congr 2
    funext name
    simp only [Function.comp, hname]

lemma filterMap_chosen (targets : List Text) (names : List Text) (d : Disk) :
    (chosen targets (names.map (folderOf s))).filterMap (documented? d) =
      names.filterMap (moduleOf? s targets d) := by
  rw [chosen_map, List.filterMap_map, List.filterMap_filter]
  rfl

section Run

variable (client : Option Client) (hremote : s.isRemote = false)

include hremote

/-- A run over folders whose modules stay the same is the upkeeps of the modules. -/
theorem runOn_rebuildAll {saved : Path → Prop} {g : Path → Option Module} (folders : List Path)
    (hnames : ∀ p, saved p → Disk.HasNames p)
    (hsources : ∀ d', Disk.Saved saved w.disk d' → ∀ f ∈ folders, documented? d' f = g f)
    (hfiles : ∀ f ∈ folders, ∀ m, g f = some m → ∀ p, Upkeep.paths (upkeeps s m.1 m.2) p → saved p)
    (hsaves : w.disk.AcceptsSaves saved) :
    ∃ w', (rebuildAll s client folders).runOn w = (.ok (Upkeep.countAccepted
          ((folders.filterMap g).map fun m => upkeeps s m.1 m.2) w.disk), w') ∧
      w'.disk = Upkeep.performAll (allUpkeeps s (folders.filterMap g)) w.disk := by
  -- what was saved for one folder does not change what is in the modules of the others
  induction folders generalizing w with
  | nil => exact ⟨w, rfl, rfl⟩
  | cons folder folders ih =>
    have hfirst := hsources w.disk (.refl _) folder (List.mem_cons_self ..)
    have hrest : ∀ w', Disk.Saved saved w.disk w'.disk → ∃ w'', (rebuildAll s client folders).runOn w' =
        (.ok (Upkeep.countAccepted ((folders.filterMap g).map fun m => upkeeps s m.1 m.2) w'.disk), w'') ∧
          w''.disk = Upkeep.performAll (allUpkeeps s (folders.filterMap g)) w'.disk := fun w' hsaved =>
      ih (fun d' hd' f hf => hsources d' (hsaved.trans hd') f (List.mem_cons_of_mem _ hf))
        (fun f hf => hfiles f (List.mem_cons_of_mem _ hf)) (hsaves.saved hsaved)
    cases hg : g folder with
    | none =>
      obtain ⟨w₁, hrun, hsilent⟩ := runOn_attempted_none s client (hfirst.trans hg)
      obtain ⟨w', hrest, hdisk'⟩ := hrest w₁ (hsilent.disk ▸ .refl _)
      rw [hsilent.disk] at hrest hdisk'
      refine ⟨w', ?_, ?_⟩
      · rw [rebuildAll_cons, Act.runOn_bind, hrun, List.filterMap_cons_none hg]
        simp only [Act.runOn_bind, hrest, Act.runOn_pure, Bool.false_eq_true, if_false, Nat.zero_add]
      · rw [List.filterMap_cons_none hg]
        exact hdisk'
    | some m =>
      obtain ⟨n, fields⟩ := m
      have hpaths := hfiles folder (List.mem_cons_self ..) _ hg
      obtain ⟨w₁, hrun, hdisk⟩ := runOn_rebuild_some client (hfirst.trans hg) hremote
        (fun p hp => hnames p (hpaths p hp)) (hsaves.mono hpaths)
      have hsaved : Disk.Saved saved w.disk w₁.disk := by
        rw [hdisk]
        exact Upkeep.saved_performAll hsaves fun a ha => hpaths _ ⟨a, ha, rfl⟩
      obtain ⟨w', hrest, hdisk'⟩ := hrest w₁ hsaved
      rw [hdisk] at hrest hdisk'
      refine ⟨w', ?_, ?_⟩
      · simp only [rebuildAll, Act.runOn_bind, Act.runOn_attempt, hrun, Act.runOn_pure, hrest,
          List.filterMap_cons_some hg]
        rfl
      · rw [List.filterMap_cons_some hg, hdisk', allUpkeeps, allUpkeeps, List.map_cons, List.flatten_cons,
          Upkeep.performAll_append]

/-- **A run** is the upkeeps of the modules on the disk. -/
theorem runOn_run (hplace : w.disk.place s.modulesPath = .ok ⟨m, some .folder⟩)
    (hnames : ∀ p, files s targets w.disk p → Disk.HasNames p)
    (hsaves : w.disk.AcceptsSaves (files s targets w.disk))
    (hstable : ∀ d', Disk.Saved (files s targets w.disk) w.disk d' → ∀ name ∈ w.disk.listed m,
      moduleOf? s targets d' name = moduleOf? s targets w.disk name) :
    ∃ w', (run s targets client).runOn w = (.ok (Upkeep.countAccepted
          ((modulesOn s targets w.disk).map fun m => upkeeps s m.1 m.2) w.disk), w') ∧
      w'.disk = Upkeep.performAll (allUpkeeps s (modulesOn s targets w.disk)) w.disk := by
  let folders := chosen targets ((w.disk.listed m).map (folderOf s))
  have hmodules : folders.filterMap (documented? w.disk) = modulesOn s targets w.disk := by
    rw [filterMap_chosen, modulesOn, hplace]
  have hfolder : w.disk.isFolder s.modulesPath = .ok true := by
    simp only [Disk.isFolder, Disk.holds, Disk.entry, hplace]
    rfl
  have hlisted : w.disk.subfolders s.modulesPath = .ok ((w.disk.listed m).map (folderOf s)) :=
    Disk.subfolders_eq hplace
  have hsources : ∀ d', Disk.Saved (files s targets w.disk) w.disk d' → ∀ f ∈ folders,
      documented? d' f = documented? w.disk f := by
    intro d' hsaved f hf
    simp only [folders, chosen_map, List.mem_map, List.mem_filter] at hf
    obtain ⟨name, ⟨hname, hchosen⟩, rfl⟩ := hf
    have hsame := hstable d' hsaved name hname
    rwa [moduleOf?, moduleOf?, if_pos hchosen, if_pos hchosen] at hsame
  have hfiles : ∀ f ∈ folders, ∀ m, documented? w.disk f = some m →
      ∀ p, Upkeep.paths (upkeeps s m.1 m.2) p → files s targets w.disk p := by
    intro f hf m hm p hp
    have hmem : m ∈ modulesOn s targets w.disk := hmodules ▸ List.mem_filterMap.2 ⟨f, hf, hm⟩
    obtain ⟨a, ha, rfl⟩ := hp
    refine ⟨a, ?_, rfl⟩
    exact List.mem_flatten.2 ⟨_, List.mem_map_of_mem hmem, ha⟩
  unfold run
  simp only [Act.runOn_bind, Act.runOn_look, hfolder, if_true, Act.runOn_say, hlisted]
  split
  · rename_i hnothing
    have hempty : folders = [] := by
      rw [Bool.and_eq_true, List.isEmpty_iff] at hnothing
      exact hnothing.2
    rw [← hmodules, hempty]
    refine ⟨_, Prod.ext ?_ rfl, ?_⟩
    all_goals simp only [Act.runOn_bind, Act.runOn_say, Act.runOn_pure]
    all_goals rfl
  · obtain ⟨w', hrun, hdisk⟩ := runOn_rebuildAll (w := { w with log := w.log ++ [⟨.info, .documentation,
      "Scanning existing modules for documentation updates..."⟩] }) client hremote folders hnames hsources
      hfiles hsaves
    rw [hmodules] at hrun hdisk
    simp only [folders] at hrun
    refine ⟨_, Prod.ext ?_ rfl, ?_⟩
    all_goals simp only [Act.runOn_bind, sharedClient, hremote, Bool.and_false, Bool.false_eq_true,
      if_false, Act.runOn_pure, hrun, Act.runOn_say]
    exact hdisk

end Run

/-! ## Two runs -/

/-- Where there is no folder of modules, nothing is done. -/
lemma runOn_run_of_isFolder (targets : List Text) (client : Option Client) {r : Except Failure Bool}
    (hfolder : w.disk.isFolder s.modulesPath = r) (hr : r ≠ .ok true) :
    ∃ w', (run s targets client).runOn w = (r.map fun _ => 0, w') ∧ w'.disk = w.disk := by
  unfold run
  rw [Act.runOn_bind, Act.runOn_look, hfolder]
  cases r with
  | error f => exact ⟨w, rfl, rfl⟩
  | ok isFolder =>
    cases isFolder with
    | true => exact absurd rfl hr
    | false => exact ⟨_, Prod.ext rfl rfl, rfl⟩

lemma exists_place_of_isFolder {p : Path} (h : d.isFolder p = .ok true) :
    ∃ m, d.place p = .ok ⟨m, some .folder⟩ := by
  cases hplace : d.place p with
  | error f => exact absurd h (Disk.holds_ne_of_place_error _ hplace)
  | ok q =>
    obtain ⟨l, found⟩ := q
    simp only [Disk.isFolder, Disk.holds, Disk.entry, bind, Except.bind, hplace] at h
    cases found with
    | none => cases h
    | some e =>
      cases e with
      | folder => exact ⟨l, rfl⟩
      | file c => cases h

/-- The upkeeps of a project can be performed. -/
lemma IsProject.isReady (hproject : IsProject s targets d) :
    Upkeep.IsReady (allUpkeeps s (modulesOn s targets d)) (IsGood s) d where
  names _ hp := hproject.hasNames hp
  apart := hproject.apart
  saves := hproject.writable
  good p _ c hc _ hp := by
    subst hp
    exact fun u v hv => Json.isProper_of_parse (hproject.readsBack c hc u v hv)

/-- A run after files were saved is the upkeeps of the modules that were there before. -/
lemma IsProject.runOn_saved (hproject : IsProject s targets d)
    (hplace : d.place s.modulesPath = .ok ⟨m, some .folder⟩) (client : Option Client)
    (hremote : s.isRemote = false) (hsaved : Disk.Saved (files s targets d) d w.disk) :
    ∃ w', (run s targets client).runOn w = (.ok (Upkeep.countAccepted
          ((modulesOn s targets d).map fun m => upkeeps s m.1 m.2) w.disk), w') ∧
      w'.disk = Upkeep.performAll (allUpkeeps s (modulesOn s targets d)) w.disk := by
  have hnames : ∀ p, files s targets d p → Disk.HasNames p := fun p => hproject.hasNames
  have hmodules := hproject.modulesOn_saved hplace hsaved
  have hfiles : files s targets w.disk = files s targets d := by
    unfold files
    rw [hmodules]
  have hleaves := hsaved.leaves hnames
  have hplace' := hleaves.place hplace
  simp only [hleaves.folder m (Disk.found?_of_place hplace).symm] at hplace'
  have hstable : ∀ d', Disk.Saved (files s targets w.disk) w.disk d' → ∀ name ∈ w.disk.listed m,
      moduleOf? s targets d' name = moduleOf? s targets w.disk name := by
    intro d' hd' name hname
    rw [hfiles] at hd'
    have hname' : name ∈ d'.listed m :=
      Disk.mem_listed.2 ((hd'.leaves hnames).folder _ (Disk.mem_listed.1 hname))
    rw [hproject.moduleOf?_saved hplace (hsaved.trans hd') hname',
      hproject.moduleOf?_saved hplace hsaved hname]
  rw [← hmodules]
  exact runOn_run client hremote hplace' (hfiles ▸ hnames) (hfiles ▸ hproject.writable.saved hsaved) hstable

/-- **A second run changes no file** and counts the same; there is a count unless the folder of the
modules cannot be looked at. -/
theorem run_twice (client : Option Client) (hremote : s.isRemote = false)
    (hproject : IsProject s targets w.disk) :
    let first := (run s targets client).runOn w
    let second := (run s targets client).runOn first.2
    second.1 = first.1 ∧
      (∀ l c, second.2.disk.find? l = some (.file c) ↔ first.2.disk.find? l = some (.file c)) ∧
        ∀ f, first.1 = .error f → w.disk.isFolder s.modulesPath = .error f := by
  intro first second
  by_cases hfolder : w.disk.isFolder s.modulesPath = .ok true
  · obtain ⟨m, hplace⟩ := exists_place_of_isFolder hfolder
    obtain ⟨w₁, hrun₁, hdisk₁⟩ := hproject.runOn_saved hplace client hremote (.refl _)
    have hsaved : Disk.Saved (files s targets w.disk) w.disk w₁.disk := by
      rw [hdisk₁]
      exact Upkeep.saved_performAll hproject.writable fun a ha => ⟨a, ha, rfl⟩
    obtain ⟨w₂, hrun₂, hdisk₂⟩ := hproject.runOn_saved hplace client hremote hsaved
    have hlaws := lawful hproject.document
    have hcount := Upkeep.IsReady.countAccepted_twice hlaws rfl hproject.isReady
    have hworld : first.2 = w₁ := congrArg Prod.snd hrun₁
    have hsecond : second = (run s targets client).runOn w₁ := by rw [← hworld]
    rw [hsecond, hrun₂, hworld]
    refine ⟨?_, fun l c => ?_, fun f h => ?_⟩
    · rw [hdisk₁, hcount]
      exact (congrArg Prod.fst hrun₁).symm
    · rw [hdisk₂, hdisk₁]
      exact hproject.isReady.find?_performAll_twice hlaws l c
    · cases (congrArg Prod.fst hrun₁).symm.trans h
  · obtain ⟨w₁, hrun₁, hdisk₁⟩ := runOn_run_of_isFolder targets client rfl hfolder
    have hworld : first.2 = w₁ := congrArg Prod.snd hrun₁
    have hfolder₁ : w₁.disk.isFolder s.modulesPath ≠ .ok true := hdisk₁ ▸ hfolder
    obtain ⟨w₂, hrun₂, hdisk₂⟩ := runOn_run_of_isFolder targets client rfl hfolder₁
    have hsecond : second = (run s targets client).runOn w₁ := by rw [← hworld]
    have hresult : first.1 = (w.disk.isFolder s.modulesPath).map fun _ => 0 := congrArg Prod.fst hrun₁
    rw [hsecond, hrun₂, hworld, hdisk₁, hresult]
    refine ⟨rfl, fun l c => by rw [hdisk₂, hdisk₁], fun f h => ?_⟩
    cases hr : w.disk.isFolder s.modulesPath with
    | error f' =>
      rw [hr] at h
      rw [Except.error.inj h]
    | ok b =>
      rw [hr] at h
      cases h

/-! ## A project with two folders that differ in case -/

lemma mem_modulesOn {module : Module} {found : Option Entry} (hplace : d.place s.modulesPath = .ok ⟨m, found⟩)
    (h : module ∈ modulesOn s targets d) :
    ∃ name ∈ d.listed m, documented? d (folderOf s name) = some module := by
  rw [modulesOn, hplace] at h
  obtain ⟨name, hname, hmodule⟩ := List.mem_filterMap.1 h
  rw [moduleOf?] at hmodule
  split at hmodule
  · exact ⟨name, hname, hmodule⟩
  · cases hmodule

lemma names_of_documented? {folder : Path} {module : Module} (h : documented? d folder = some module) :
    Names.ofRaw? folder.name = some module.1 := by
  unfold documented? at h
  split at h
  · rename_i hnames
    rw [hnames, ← Option.some.inj h]
  · cases h

/-- Settings with short names. -/
def shopSettings : Settings :=
  { base := ⟨.root, []⟩, modulesFolder := "m", collectionFolder := "c", documentFile := "d" }

/-- The interface file of a shop. -/
def shopInterface : Text := "export interface IShop \x7b\n  name: string;\n\x7d\n"

/-- Two modules that share a request collection, and an API document that cannot be read. -/
def shopWorld : World where
  disk :=
    { home := []
      entries := [(["m".toList], .folder), (["m".toList, "shop".toList], .folder),
        (["m".toList, "shop".toList, "shop.interface.ts".toList], .file (Utf8.encode shopInterface)),
        (["m".toList, "Shop".toList], .folder),
        (["m".toList, "Shop".toList, "Shop.interface.ts".toList], .file (Utf8.encode shopInterface)),
        (["c".toList], .folder), (["d".toList], .file (Utf8.encode "[1,"))] }
  remote := .script []

/-- The request collection of both modules. -/
def shopCollection : Path := ⟨.root, ["c", "shop.postman_collection.json"]⟩

lemma place_shop : shopWorld.disk.place shopSettings.modulesPath = .ok ⟨["m".toList], some .folder⟩ :=
  Disk.place_eq_of_map (by decide)

lemma eq_of_mem_listed_shop (h : name ∈ shopWorld.disk.listed ["m".toList]) :
    name = "shop".toList ∨ name = "Shop".toList := by
  have hmem := Disk.mem_entries_of_find? (Disk.mem_listed.1 h)
  simpa only [shopWorld, List.mem_cons, Prod.mk.injEq, List.cons_append, List.nil_append, List.cons.injEq,
    List.not_mem_nil, or_false, and_true, true_and, reduceCtorEq, and_false, false_or] using hmem

lemma collectionFile_shop {module : Module} (h : module ∈ modulesOn shopSettings [] shopWorld.disk) :
    collectionFile shopSettings module.1 = shopCollection := by
  obtain ⟨name, hname, hdocumented⟩ := mem_modulesOn place_shop h
  have hcollection : (Names.ofRaw? (folderOf shopSettings name).name).map (collectionFile shopSettings) =
      some shopCollection := by
    rcases eq_of_mem_listed_shop hname with rfl | rfl
    · decide
    · decide
  rw [names_of_documented? hdocumented] at hcollection
  exact Option.some.inj hcollection

lemma eq_of_files_shop {p : Path} (h : files shopSettings [] shopWorld.disk p) :
    p = shopCollection ∨ p = shopSettings.documentPath := by
  obtain ⟨a, ha, rfl⟩ := h
  rcases mem_allUpkeeps_iff.1 ha with ⟨-, module, hmodule, rfl⟩ | ⟨-, module, -, rfl⟩
  · exact .inl (collectionFile_shop hmodule)
  · exact .inr rfl

lemma canSave_shop {p : Path} (h : files shopSettings [] shopWorld.disk p) : shopWorld.disk.CanSave p := by
  rcases eq_of_files_shop h with rfl | rfl
  · exact ⟨rfl, ⟨["c".toList], Disk.place_eq_of_map (by decide)⟩,
      Disk.place_eq_of_map (by decide +kernel), by decide +kernel,
      Disk.place_eq_of_map (by decide +kernel), by decide +kernel⟩
  · exact ⟨rfl, ⟨[], Disk.place_eq_of_map (by decide)⟩,
      Disk.place_eq_of_map (by decide), by decide,
      Disk.place_eq_of_map (by decide), by decide⟩

lemma isProject_shop : IsProject shopSettings [] shopWorld.disk where
  tree := by
    refine .of_entries (by decide) rfl ?_
    decide
  base := nofun
  writable := by
    refine Disk.acceptsSaves (fun p => canSave_shop) fun p r hp hr => ?_
    rcases eq_of_files_shop hp with rfl | rfl
    · rcases eq_of_files_shop hr with rfl | rfl
      · decide
      · decide
    · rcases eq_of_files_shop hr with rfl | rfl
      · decide
      · decide
  apart p r hp hr hne := by
    rcases eq_of_files_shop hp with rfl | rfl
    · rcases eq_of_files_shop hr with rfl | rfl
      · exact absurd rfl hne
      · decide
    · rcases eq_of_files_shop hr with rfl | rfl
      · decide
      · exact absurd rfl hne
  document _ _ module hmodule := by
    rw [collectionFile_shop hmodule]
    decide
  sources p hp name hname kind hkind h := by
    rw [destination_fileIn place_shop hname hkind] at h
    have hlength : (shopWorld.disk.destination p).length = 3 := congrArg List.length h
    rcases eq_of_files_shop hp with rfl | rfl
    · exact absurd hlength (by decide)
    · exact absurd hlength (by decide)
  readsBack c hc u v hv := by
    have hbroken : shopWorld.disk.find? (shopWorld.disk.destination shopSettings.documentPath) =
        some (.file (Utf8.encode "[1,")) := by decide
    rw [hbroken] at hc
    obtain rfl : Utf8.encode "[1," = c := by simpa using hc
    have hnone : Files.documentIn? (Utf8.encode "[1,") = none :=
      Option.isNone_iff_eq_none.1 (by decide)
    have hdocument : OpenApi.documentIn (some (Utf8.encode "[1,")) = OpenApi.documentIn none := by
      rw [OpenApi.documentIn, Option.bind_some, hnone]
      rfl
    rw [OpenApi.updated, hdocument] at hv
    exact Json.parse_fileText (OpenApi.mergesProperly_none u v hv)

/-- Both folders hold a module, and a second run changes nothing. -/
theorem run_twice_shop :
    let first := (run shopSettings [] none).runOn shopWorld
    let second := (run shopSettings [] none).runOn first.2
    (documented? shopWorld.disk (folderOf shopSettings "shop")).isSome = true ∧
      (documented? shopWorld.disk (folderOf shopSettings "Shop")).isSome = true ∧
      second.1 = first.1 ∧
      ∀ l c, second.2.disk.find? l = some (.file c) ↔ first.2.disk.find? l = some (.file c) := by
  obtain ⟨hcount, hfiles, -⟩ := run_twice none (by decide) isProject_shop
  exact ⟨by decide +kernel, by decide +kernel, hcount, hfiles⟩

end Scaffold.Rebuild
