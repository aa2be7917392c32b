import Scaffold.Generation.Rebuild
import Scaffold.Proofs.Disk.Listing
import Scaffold.Proofs.Generation.Saving
import Scaffold.Proofs.Text.Lines

/-!
# What the folder of a module says

The names and the fields of a module are read from its folder, if there is a module in it
(`documented?`).  Where there is none, a rebuild changes nothing; where there is one, a rebuild keeps
its files up to date (`runOn_rebuild`).
-/

namespace Scaffold.Rebuild

variable {s : Settings} {w : World} {d d' : Disk} {folder : Path} {n : Names} {fields : List Field}

/-- The text of the model file; there may be no such file. -/
def modelText? (d : Disk) (folder : Path) : Option Text :=
  match d.isFile (fileIn folder "model") with
  | .ok true => (d.readText (fileIn folder "model")).toOption
  | .ok false => some []
  | .error _ => none

/-- The fields that the files of a module describe, if they can be read. -/
def fieldsIn? (d : Disk) (folder : Path) : Option (List Field) := do
  let interface ← (d.readText (fileIn folder "interface")).toOption
  let model ← modelText? d folder
  return Recovery.fields interface model

/-- The names and the fields of the module in a folder, if there is one. -/
def documented? (d : Disk) (folder : Path) : Option (Names × List Field) :=
  match d.isFile (fileIn folder "interface"), fieldsIn? d folder, Names.ofRaw? folder.name with
  | .ok true, some (f :: fs), some n => some (n, f :: fs)
  | _, _, _ => none

/-- A run that is recorded, and changes nothing else. -/
def IsSilent (w w' : World) : Prop := w' = { w with log := w'.log }

lemma IsSilent.disk {w w' : World} (h : IsSilent w w') : w'.disk = w.disk := by
  rw [h]

lemma runOn_recorded {α : Type} (b : Bool) (records : List Log.Record) (x : α) (w : World) :
    ∃ w', IsSilent w w' ∧
      (if b = true then do
        Act.say records
        pure x
      else pure x : Act α).runOn w = (.ok x, w') := by
  cases b with
  | false => exact ⟨w, rfl, rfl⟩
  | true => exact ⟨{ w with log := w.log ++ records }, rfl, rfl⟩

lemma runOn_fieldsIn (w : World) (folder : Path) :
    ∃ r w', (fieldsIn folder).runOn w = (r, w') ∧ IsSilent w w' ∧
      r.toOption = fieldsIn? w.disk folder := by
  unfold fieldsIn fieldsIn? modelText?
  simp only [Act.runOn_bind, Files.read, Act.runOn_look]
  cases w.disk.readText (fileIn folder "interface") with
  | error f => exact ⟨_, _, rfl, rfl, rfl⟩
  | ok interface =>
    dsimp only
    cases w.disk.isFile (fileIn folder "model") with
    | error f => exact ⟨_, _, rfl, rfl, rfl⟩
    | ok isFile =>
      cases isFile with
      | false =>
        obtain ⟨w', hsilent, hrun⟩ := runOn_recorded _ _ (Recovery.fields interface []) w
        exact ⟨_, w', hrun, hsilent, rfl⟩
      | true =>
        simp only [if_true, Act.runOn_bind, Act.runOn_look]
        cases w.disk.readText (fileIn folder "model") with
        | error f => exact ⟨_, _, rfl, rfl, rfl⟩
        | ok model =>
          obtain ⟨w', hsilent, hrun⟩ := runOn_recorded _ _ (Recovery.fields interface model) w
          exact ⟨_, w', hrun, hsilent, rfl⟩

/-- A rebuild of a folder with an interface file, after its fields were read. -/
lemma runOn_rebuild_of_isFile (client : Option Client)
    (hfile : w.disk.isFile (fileIn folder "interface") = .ok true) :
    ∃ w', IsSilent w w' ∧ match fieldsIn? w.disk folder with
      | none => ∃ f, (rebuild s client folder).runOn w = (.error f, w')
      | some [] => (rebuild s client folder).runOn w = (.ok false, w')
      | some (f :: fs) => (rebuild s client folder).runOn w = (do
          return (← Documentation.update s (← namesOf folder) (f :: fs) client).success : Act Bool).runOn w' := by
  obtain ⟨r, w', hrun, hsilent, hfields⟩ := runOn_fieldsIn { w with log := w.log ++
    [⟨.info, .documentation, "Processing module: " ++ folder.name⟩] } folder
  have hsilent : IsSilent w w' := hsilent
  unfold rebuild
  simp only [Act.runOn_bind, Act.runOn_look, hfile, if_true, Act.runOn_say, hrun]
  rw [← hfields]
  cases r with
  | error f => exact ⟨w', hsilent, f, rfl⟩
  | ok fields =>
    cases fields with
    | nil =>
      refine ⟨{ w' with log := w'.log ++ [⟨.warning, .documentation,
        "No fields found in " ++ folder.name ++ " interface"⟩] }, ?_, rfl⟩
      rw [hsilent]
      rfl
    | cons f fs =>
      refine ⟨{ w' with log := w'.log ++ [⟨.info, .documentation, "Extracted " ++
        Text.ofNat (f :: fs).length ++ " field(s): " ++ Text.join ", " ((f :: fs).map Field.name)⟩] }, ?_, ?_⟩
      · rw [hsilent]
        rfl
      · simp only [Except.toOption, List.isEmpty_cons, Bool.false_eq_true, if_false, Act.runOn_bind,
          Act.runOn_say]

/-- Where there is no module, a rebuild changes nothing. -/
theorem runOn_rebuild_none (s : Settings) (client : Option Client) (h : documented? w.disk folder = none) :
    ∃ r w', (rebuild s client folder).runOn w = (r, w') ∧ IsSilent w w' ∧
      r.toOption.getD false = false := by
  cases hfile : w.disk.isFile (fileIn folder "interface") with
  | error f =>
    refine ⟨.error f, w, ?_, rfl, rfl⟩
    simp only [rebuild, Act.runOn_bind, Act.runOn_look, hfile]
  | ok isFile =>
    cases isFile with
    | false =>
      refine ⟨.ok false, _, Prod.ext ?_ rfl, ?_, rfl⟩
      all_goals simp only [rebuild, Act.runOn_bind, Act.runOn_look, hfile, Bool.false_eq_true, if_false,
          Act.runOn_say, Act.runOn_pure, IsSilent]
    | true =>
      obtain ⟨w', hsilent, hrun⟩ := runOn_rebuild_of_isFile (s := s) client hfile
      unfold documented? at h
      rw [hfile] at h
      cases hfields : fieldsIn? w.disk folder with
      | none =>
        rw [hfields] at hrun
        obtain ⟨f, hrun⟩ := hrun
        exact ⟨.error f, w', hrun, hsilent, rfl⟩
      | some fields =>
        rw [hfields] at hrun h
        cases fields with
        | nil => exact ⟨.ok false, w', hrun, hsilent, rfl⟩
        | cons f fs =>
          cases hnames : Names.ofRaw? folder.name with
          | some n =>
            rw [hnames] at h
            cases h
          | none =>
            refine ⟨.error .noModuleName, w', ?_, hsilent, rfl⟩
            rw [hrun]
            simp only [namesOf, hnames, Act.runOn_bind, Act.runOn_ofExcept]

/-- Rebuilds the documentation of one module among several. -/
def attempted (s : Settings) (client : Option Client) (folder : Path) : Act Bool := do
  match ← Act.attempt (rebuild s client folder) with
  | .ok done => pure done
  | .error f =>
    Act.say [⟨.error, .documentation, "Error processing module " ++ folder.name ++ ": " ++ f.message⟩]
    pure false

/-- The modules are taken one after another. -/
lemma rebuildAll_cons (s : Settings) (client : Option Client) (folder : Path) (rest : List Path) :
    rebuildAll s client (folder :: rest) = attempted s client folder >>= fun done =>
      rebuildAll s client rest >>= fun updated => pure ((if done then 1 else 0) + updated) := by
  funext w
  change (rebuildAll s client (folder :: rest)).runOn w = Act.runOn _ w
  simp only [rebuildAll, attempted, Act.runOn_bind, Act.runOn_attempt]
  cases ((rebuild s client folder).runOn w).1 with
  | ok done => simp only [Act.runOn_bind, Act.runOn_pure]
  | error f => simp only [Act.runOn_bind, Act.runOn_say, Act.runOn_pure]

/-- Where there is no module, an attempt changes nothing. -/
lemma runOn_attempted_none (s : Settings) (client : Option Client) (h : documented? w.disk folder = none) :
    ∃ w', (attempted s client folder).runOn w = (.ok false, w') ∧ IsSilent w w' := by
  obtain ⟨r, w₁, hrun, hsilent, hr⟩ := runOn_rebuild_none s client h
  cases r with
  | ok done =>
    obtain rfl : done = false := hr
    refine ⟨w₁, ?_, hsilent⟩
    simp only [attempted, Act.runOn_bind, Act.runOn_attempt, hrun, Act.runOn_pure]
  | error f =>
    refine ⟨_, Prod.ext ?_ rfl, ?_⟩
    · simp only [attempted, Act.runOn_bind, Act.runOn_attempt, hrun, Act.runOn_say, Act.runOn_pure]
    · simp only [attempted, Act.runOn_bind, Act.runOn_attempt, hrun, Act.runOn_say, Act.runOn_pure]
      rw [hsilent]
      rfl

/-- **Where there is a module**, a rebuild keeps its files up to date. -/
theorem runOn_rebuild_some (client : Option Client) (h : documented? w.disk folder = some (n, fields))
    (hremote : s.isRemote = false)
    (hnames : ∀ p, Upkeep.paths (Documentation.upkeeps s n fields) p → Disk.HasNames p)
    (hsaves : w.disk.AcceptsSaves (Upkeep.paths (Documentation.upkeeps s n fields))) :
    ∃ w', (rebuild s client folder).runOn w =
        (.ok (Upkeep.allAccept (Documentation.upkeeps s n fields) w.disk), w') ∧
      w'.disk = Upkeep.performAll (Documentation.upkeeps s n fields) w.disk := by
  unfold documented? at h
  split at h
  · rename_i f fs n' hfile hfields hname
    obtain ⟨rfl, rfl⟩ := Prod.mk.inj (Option.some.inj h)
    obtain ⟨w₁, hsilent, hrun⟩ := runOn_rebuild_of_isFile (s := s) client hfile
    have hdisk₁ := hsilent.disk
    rw [hfields] at hrun
    rw [← hdisk₁] at hsaves
    obtain ⟨r, w', hupdate, hdisk, hsuccess⟩ :=
      Documentation.runOn_update n' (f :: fs) client hremote hnames hsaves
    rw [hdisk₁] at hdisk hsuccess
    refine ⟨w', ?_, hdisk⟩
    rw [hrun, ← hsuccess]
    simp only [namesOf, hname, Act.runOn_bind, Act.runOn_ofExcept, hupdate, Act.runOn_pure]
  · cases h

/-! ## Names in paths -/

lemma not_mem_of_mem_splitOn {t piece : Text} (h : piece ∈ Text.splitOn '/' t) : '/' ∉ piece := by
  induction t generalizing piece with
  | nil =>
    obtain rfl := List.mem_singleton.1 h
    exact List.not_mem_nil
  | cons c t ih =>
    rw [Text.splitOn] at h
    split at h
    · rcases List.mem_cons.1 h with rfl | h
      · exact List.not_mem_nil
      · exact ih h
    · rename_i hc
      split at h
      · obtain rfl := List.mem_singleton.1 h
        simpa using Ne.symm hc
      · rename_i first pieces hsplit
        rcases List.mem_cons.1 h with rfl | h
        · rw [List.mem_cons, not_or]
          exact ⟨Ne.symm hc, ih (hsplit ▸ List.mem_cons_self ..)⟩
        · exact ih (hsplit ▸ List.mem_cons_of_mem _ h)

lemma hasNames_child {p : Path} (h : Disk.HasNames p) (t : Text) : Disk.HasNames (p.child t) := by
  have htext : ∀ part ∈ (Path.ofText t).parts, '/' ∉ part := fun part hpart =>
    not_mem_of_mem_splitOn (List.mem_of_mem_filter hpart)
  unfold Path.child Path.join
  split
  · exact fun part hpart => (List.mem_append.1 hpart).elim (h part) (htext part)
  · exact htext

/-! ## The files of a module -/

/-- The name of a source file of a module. -/
def sourceName (name kind : Text) : Text := name ++ '.' :: kind ++ ".ts"

lemma length_sourceName (name kind : Text) : 2 < (sourceName name kind).length := by
  have hsuffix : (".ts" : Text).length = 3 := rfl
  rw [sourceName, List.length_append, hsuffix]
  omega

lemma ofText_of_not_mem {t : Text} (h : '/' ∉ t) (hpart : Path.isPart t = true) :
    Path.ofText t = ⟨.here, [t]⟩ := by
  have hanchor : Path.anchorOf t = .here := by
    cases t with
    | nil => rfl
    | cons c t =>
      rw [List.mem_cons, not_or] at h
      unfold Path.anchorOf
      split
      · exact absurd (List.cons.inj ‹_›).1.symm h.1
      · exact absurd (List.cons.inj ‹_›).1.symm h.1
      · exact absurd (List.cons.inj ‹_›).1.symm h.1
      · rfl
  rw [Path.ofText, hanchor, Text.splitOn_of_not_mem h, List.filter_cons_of_pos hpart, List.filter_nil]

lemma isPart_of_length {t : Text} (h : 1 < t.length) : Path.isPart t = true := by
  match t with
  | [] => cases h
  | [c] => exact absurd h (Nat.lt_irrefl 1)
  | c :: d :: rest => simp [Path.isPart]

/-- The path of a source file of a module. -/
lemma fileIn_eq (a : Anchor) (ps : List Text) {name kind : Text} (hname : '/' ∉ name) (hkind : '/' ∉ kind) :
    fileIn ⟨a, ps ++ [name]⟩ kind = ⟨a, ps ++ [name, sourceName name kind]⟩ := by
  have hfolder : Path.name ⟨a, ps ++ [name]⟩ = name := by simp [Path.name]
  have hmem : '/' ∉ sourceName name kind := by
    simp [sourceName, hname, hkind]
  have hpart : Path.isPart (sourceName name kind) = true :=
    isPart_of_length (Nat.lt_of_succ_lt (length_sourceName name kind))
  rw [fileIn, hfolder, Path.child, ← sourceName, ofText_of_not_mem hmem hpart, Path.join]
  simp

section Folder

variable {path : Path} {m : Location} {name : Text}
  (hplace : d.place path = .ok ⟨m, some .folder⟩) (hn : d.find? (m ++ [name]) = some .folder)
  (hname : Disk.IsName name)

include hplace hn hname

/-- Where the path of a source file leads. -/
lemma exists_place_fileIn (kind : Text) (hkind : '/' ∉ kind) :
    ∃ x : Except Failure Unit, ∀ d', Disk.Leaves (fun _ => False) d d' →
      d'.place (fileIn ⟨path.anchor, path.parts ++ [name]⟩ kind) =
        x.map fun _ => ⟨m ++ [name, sourceName name kind], d'.find? (m ++ [name, sourceName name kind])⟩ := by
  rw [fileIn_eq _ _ hname.1 hkind]
  refine Disk.exists_place_eq hplace hn hname.2 fun h => ?_
  have hlength := length_sourceName name kind
  rw [h] at hlength
  exact absurd hlength (Nat.lt_irrefl 2)

/-- A file that is the same on two disks is read in the same way. -/
lemma read_congr (kind : Text) (hkind : '/' ∉ kind) (hleaves : Disk.Leaves (fun _ => False) d d')
    (hsame : ∀ c, d'.find? (m ++ [name, sourceName name kind]) = some (.file c) ↔
      d.find? (m ++ [name, sourceName name kind]) = some (.file c)) :
    d'.isFile (fileIn ⟨path.anchor, path.parts ++ [name]⟩ kind) =
        d.isFile (fileIn ⟨path.anchor, path.parts ++ [name]⟩ kind) ∧
      (d.isFile (fileIn ⟨path.anchor, path.parts ++ [name]⟩ kind) = .ok true →
        d'.readText (fileIn ⟨path.anchor, path.parts ++ [name]⟩ kind) =
          d.readText (fileIn ⟨path.anchor, path.parts ++ [name]⟩ kind)) := by
  obtain ⟨x, hx⟩ := exists_place_fileIn hplace hn hname _ hkind
  have hbefore := hx d (.refl _ d)
  have hafter := hx d' hleaves
  exact ⟨Disk.isFile_congr hbefore hafter hsame, Disk.readText_congr hbefore hafter hsame⟩

/-- **What a folder says** changes with the source files in it only. -/
theorem documented?_congr (hleaves : Disk.Leaves (fun _ => False) d d')
    (hsame : ∀ kind : Text, kind = "interface" ∨ kind = "model" → ∀ c,
      d'.find? (m ++ [name, sourceName name kind]) = some (.file c) ↔
        d.find? (m ++ [name, sourceName name kind]) = some (.file c)) :
    documented? d' ⟨path.anchor, path.parts ++ [name]⟩ =
      documented? d ⟨path.anchor, path.parts ++ [name]⟩ := by
  obtain ⟨hinterface, hinterfaceText⟩ := read_congr hplace hn hname "interface" (by decide)
    hleaves (hsame _ (.inl rfl))
  obtain ⟨hmodel, hmodelText⟩ := read_congr hplace hn hname "model" (by decide)
    hleaves (hsame _ (.inr rfl))
  have hmodel? : modelText? d' ⟨path.anchor, path.parts ++ [name]⟩ =
      modelText? d ⟨path.anchor, path.parts ++ [name]⟩ := by
    unfold modelText?
    rw [hmodel]
    split
    · rename_i hfile
      rw [hmodelText hfile]
    · rfl
    · rfl
  unfold documented?
  rw [hinterface]
  cases hfile : d.isFile (fileIn ⟨path.anchor, path.parts ++ [name]⟩ "interface") with
  | error f => rfl
  | ok isFile =>
    cases isFile with
    | false => rfl
    | true => rw [fieldsIn?, fieldsIn?, hinterfaceText hfile, hmodel?]

/-- A folder without an interface file says nothing. -/
lemma documented?_eq_none (hnone : ∀ c, d.find? (m ++ [name, sourceName name "interface"]) ≠ some (.file c)) :
    documented? d ⟨path.anchor, path.parts ++ [name]⟩ = none := by
  have hkind : '/' ∉ ("interface" : Text) := by decide
  obtain ⟨x, hx⟩ := exists_place_fileIn hplace hn hname _ hkind
  have hself := hx d (.refl _ d)
  have hfile : d.isFile (fileIn ⟨path.anchor, path.parts ++ [name]⟩ "interface") ≠ .ok true := by
    cases x with
    | error f => exact Disk.holds_ne_of_place_error _ hself
    | ok _ =>
      rw [Disk.isFile_of_place_eq hself]
      intro h
      obtain ⟨c, hc⟩ := Disk.isFileEntry_iff.1 (Except.ok.inj h)
      exact hnone c hc
  unfold documented?
  split
  · rename_i h _ _
    exact absurd h hfile
  · rfl

end Folder

end Scaffold.Rebuild
