import Scaffold.Proofs.Collection.Recovered
import Scaffold.Proofs.Generation.Documented
import Scaffold.Proofs.Generation.Rebuild
import Scaffold.Proofs.OpenApi.Recovered
import Scaffold.Proofs.Recovery.RoundTrip

/-!
# Rebuilding what was just generated

A generation documents a module from the fields that it was given, and a rebuild documents the module
from the fields that it reads back from the files of the module.  Reading back gives the normal forms
of the fields, so a rebuild right after a generation changes a file exactly if the file shows something
that the normal forms do not keep (`rebuild_keeps_iff`).
-/

namespace Scaffold

open Documentation

/-! ## The names and the fields of a module -/

namespace Recovery

variable {n : Names} {fields : List Field}

/-- A module whose names and fields can be read back from its folder. -/
structure IsRecoverable (n : Names) (fields : List Field) : Prop where
  folder : Text.isExactIdentifier n.folder = true
  word : ∀ c ∈ n.folder, Text.isAsciiWord c = true
  /-- The folder stands for the names of the module. -/
  names : Names.ofRaw? n.folder = some { n with raw := n.folder }
  legible : Legible n.className fields
  children : ∀ f ∈ fields, (f.children.map Field.name).Nodup

/-- The item type of a list has an upper case letter behind its first letter, and the class has none. -/
lemma IsRecoverable.itemTypeName_ne (h : IsRecoverable n fields) (hread : ∀ f ∈ fields, f.IsRead) {f : Field}
    (hf : f ∈ fields) : f.itemTypeName ≠ n.className := by
  have hascii : ∀ {c : Char}, Text.isAsciiWord c = true → c.toNat < 128 := fun hc =>
    Text.toNat_lt_of_isIdentifierRest (Text.isIdentifierRest_of_isAsciiWord hc)
  intro heq
  have hupper : 'I' ∈ f.itemTypeName.tail := by
    obtain ⟨c, rest, hname⟩ := List.exists_cons_of_ne_nil (hread f hf).name_ne_nil
    have hc : c.toNat < 128 := hascii (h.legible.word f hf f (by simp) c (hname ▸ List.mem_cons_self ..))
    obtain ⟨c', hc'⟩ : ∃ c', Text.upperChar c = [c'] := by
      rw [Text.upperChar, if_pos hc]
      split
      · exact ⟨_, rfl⟩
      · exact ⟨_, rfl⟩
    rw [Field.itemTypeName, Field.itemTypeNameOf, hname, Text.capitalizeFirst, hc']
    exact List.mem_append_right _ (List.mem_cons_self ..)
  rw [heq] at hupper
  have hnot := Names.isAsciiUpper_eq_false_of_mem_tail h.names (fun c hc => hascii (h.word c hc)) hupper
  exact absurd hnot (by decide)

lemma IsRecoverable.hasOwnSchemas (h : IsRecoverable n fields) (hread : ∀ f ∈ fields, f.IsRead) :
    OpenApi.HasOwnSchemas n fields where
  items := h.legible.items
  className f hf := by
    rw [Field.nested_eq_filter hread] at hf
    exact h.itemTypeName_ne hread (List.mem_of_mem_filter hf)

end Recovery

/-! ## One module on a disk -/

namespace Rebuild

open ModuleFolder

variable {s : Settings} {targets : List Text} {d : Disk} {n : Names} {fields : List Field}
  {i m : Text} {folder : Path} {f : Field}

/-- What a folder says whose files are there. -/
lemma documented?_eq_some (hinterface : d.content? (fileIn folder "interface") = some (Utf8.encode i))
    (hmodel : d.content? (fileIn folder "model") = some (Utf8.encode m))
    (hnames : Names.ofRaw? folder.name = some n)
    (hfields : Recovery.fields (Text.unifyNewlines i) (Text.unifyNewlines m) = fields) (hne : fields ≠ []) :
    documented? d folder = some (n, fields) := by
  have hread : ∀ {p : Path} {t : Text}, d.content? p = some (Utf8.encode t) →
      d.isFile p = .ok true ∧ d.readText p = .ok (Text.unifyNewlines t) := fun hc =>
    ⟨Disk.isFile_of_place (Disk.content?_eq_some_iff.1 hc), Disk.readText_of_read (eq_ok_of_toOption hc)⟩
  obtain ⟨hfile, htext⟩ := hread hinterface
  obtain ⟨hfile', htext'⟩ := hread hmodel
  have hboth : fieldsIn? d folder = some fields := by
    rw [fieldsIn?, modelText?, hfile', htext, htext', ← hfields]
    rfl
  obtain ⟨f, fs, rfl⟩ := List.exists_cons_of_ne_nil hne
  rw [documented?, hfile, hboth, hnames]

/-- Only one module is asked for. -/
structure AsksOnlyFor (s : Settings) (targets : List Text) (d : Disk) (name : Text) : Prop where
  chosen : isChosen targets name = true
  only : ∀ m, d.place s.modulesPath = .ok ⟨m, some .folder⟩ → ∀ other ∈ d.listed m,
    isChosen targets other = true → other = name

lemma filterMap_eq_singleton {α β : Type} {l : List α} {g : α → Option β} {a : α} {b : β} (hl : l.Nodup)
    (ha : a ∈ l) (hg : g a = some b) (hothers : ∀ x ∈ l, x ≠ a → g x = none) : l.filterMap g = [b] := by
  induction l with
  | nil => cases ha
  | cons x l ih =>
    obtain ⟨hnot, hl⟩ := List.nodup_cons.1 hl
    obtain ⟨hx, hothers⟩ := List.forall_mem_cons.1 hothers
    by_cases hxa : x = a
    · obtain rfl := hxa
      have hnone : l.filterMap g = [] := List.filterMap_eq_nil_iff.2 fun y hy =>
        hothers y hy fun hyx => hnot (hyx ▸ hy)
      rw [List.filterMap_cons_some hg, hnone]
    · rw [List.filterMap_cons_none (hx hxa)]
      exact ih hl ((List.mem_cons.1 ha).resolve_left (Ne.symm hxa)) hothers

lemma fileIn_folderOf (hfolder : Text.isExactIdentifier n.folder = true) (a : Artifact) :
    fileIn (folderOf s n.folder) a.name = artifactPath s n a := by
  have hkind : '/' ∉ a.name := by cases a <;> decide
  rw [folderOf, fileIn_eq _ _ (slash_not_mem_folder hfolder) hkind, artifactPath_eq hfolder, fileName_eq]

/-- **The one module** that is asked for is found where its files are. -/
theorem modulesOn_eq_singleton (htree : d.IsTree) (hfolder : Text.isExactIdentifier n.folder = true)
    (hnames : Names.ofRaw? n.folder = some { n with raw := n.folder })
    (hinterface : d.content? (artifactPath s n .interface) = some (Utf8.encode i))
    (hmodel : d.content? (artifactPath s n .model) = some (Utf8.encode m))
    (hfields : Recovery.fields (Text.unifyNewlines i) (Text.unifyNewlines m) = fields) (hne : fields ≠ [])
    (hasks : AsksOnlyFor s targets d n.folder) :
    (∃ l, d.place s.modulesPath = .ok ⟨l, some .folder⟩) ∧
      modulesOn s targets d = [({ n with raw := n.folder }, fields)] := by
  have hplaced := Disk.content?_eq_some_iff.1 hinterface
  have hfound := Disk.find?_of_content? hinterface
  rw [destination_artifactPath hfolder] at hfound
  rw [artifactPath_eq hfolder] at hplaced
  obtain ⟨l, hplace⟩ := Disk.exists_place_of_append htree (List.cons_ne_nil _ _) hplaced
  obtain rfl : l = d.destination s.modulesPath := Disk.location_of_place hplace
  refine ⟨⟨_, hplace⟩, ?_⟩
  -- its interface file is in its folder, so the folder is listed
  have hlisted : n.folder ∈ d.listed (d.destination s.modulesPath) := by
    refine Disk.mem_listed.2 (htree.parent _ (n.fileName .interface) (.file (Utf8.encode i)) ?_)
    simpa using hfound
  have hmodule : documented? d (folderOf s n.folder) = some ({ n with raw := n.folder }, fields) := by
    have hname : (folderOf s n.folder).name = n.folder := by simp [folderOf, Path.name]
    refine documented?_eq_some ?_ ?_ (hname.symm ▸ hnames) hfields hne
    · exact (fileIn_folderOf hfolder .interface).symm ▸ hinterface
    · exact (fileIn_folderOf hfolder .model).symm ▸ hmodel
  rw [modulesOn, hplace]
  refine filterMap_eq_singleton (htree.nodup_listed _) hlisted ?_ fun other hother hne => ?_
  · rw [moduleOf?, if_pos hasks.chosen]
    exact hmodule
  · rw [moduleOf?, if_neg fun hchosen => hne (hasks.only _ hplace other hother hchosen)]

end Rebuild

/-! ## What one module makes of its files -/

namespace Documentation

variable {s : Settings} {m : Module} {c : Option Bytes}

lemma contentAfter_collection (hwanted : s.updateCollection = true) (hapart : IsApart s [m]) :
    Upkeep.contentAfter (collectionFile s m.1) (allUpkeeps s [m]) c = (collectionUpkeep s m).after c := by
  have hall : allUpkeeps s [m] =
      collectionUpkeep s m :: if s.updateDocument then [documentUpkeep s m] else [] := by
    simp [allUpkeeps, upkeeps, hwanted, collectionUpkeep, documentUpkeep, updateOf]
  have hpath : (collectionUpkeep s m).path = collectionFile s m.1 := rfl
  rw [hall, Upkeep.contentAfter_cons, if_pos hpath, Upkeep.contentAfter_of_not_mem]
  rintro ⟨a, ha, hpath⟩
  split at ha
  · rename_i hdocument
    obtain rfl := List.mem_singleton.1 ha
    exact hapart hwanted hdocument m (List.mem_singleton_self m) hpath.symm
  · cases ha

lemma contentAfter_document (hwanted : s.updateDocument = true) (hapart : IsApart s [m]) :
    Upkeep.contentAfter s.documentPath (allUpkeeps s [m]) c = (documentUpkeep s m).after c := by
  have hall : allUpkeeps s [m] =
      (if s.updateCollection then [collectionUpkeep s m] else []) ++ [documentUpkeep s m] := by
    simp [allUpkeeps, upkeeps, hwanted, collectionUpkeep, documentUpkeep, updateOf]
  have hpath : (documentUpkeep s m).path = s.documentPath := rfl
  have hlast : ∀ c, Upkeep.contentAfter s.documentPath [documentUpkeep s m] c = (documentUpkeep s m).after c :=
    fun c => by
      rw [Upkeep.contentAfter_cons, if_pos hpath]
      rfl
  rw [hall]
  split
  · rename_i hcollection
    have hne : (collectionUpkeep s m).path ≠ s.documentPath :=
      hapart hcollection hwanted m (List.mem_singleton_self m)
    rw [List.singleton_append, Upkeep.contentAfter_cons, if_neg hne, hlast]
  · exact hlast c

end Documentation

namespace Rebuild

variable {s : Settings} {targets : List Text} {w : World} {m : Module}

/-- **A rebuild of one module** keeps the files of the module up to date that are there. -/
theorem content?_run (client : Option Client) (hremote : s.isRemote = false)
    (hproject : IsProject s targets w.disk) {l : Location}
    (hplace : w.disk.place s.modulesPath = .ok ⟨l, some .folder⟩) (hmodules : modulesOn s targets w.disk = [m]) :
    let after := ((run s targets client).runOn w).2.disk
    (s.updateCollection = true → ∀ c, w.disk.content? (collectionFile s m.1) = some c →
      after.content? (collectionFile s m.1) = (collectionUpkeep s m).after (some c)) ∧
    (s.updateDocument = true → ∀ c, w.disk.content? s.documentPath = some c →
      after.content? s.documentPath = (documentUpkeep s m).after (some c)) := by
  intro after
  obtain ⟨w', hrun, hdisk⟩ := hproject.runOn_saved hplace client hremote (.refl _)
  have hafter : after = w'.disk := congrArg (fun run => run.2.disk) hrun
  have hready := hproject.isReady
  have hapart := hproject.document
  rw [hmodules] at hdisk hready hapart
  have hcontent : ∀ p, Upkeep.paths (allUpkeeps s [m]) p → ∀ c, w.disk.content? p = some c →
      after.content? p = Upkeep.contentAfter p (allUpkeeps s [m]) (some c) := by
    intro p hp c hc
    rw [hafter, hdisk]
    exact hready.content?_performAll (lawful hapart) (fun _ h => h) hp hc
  constructor
  · intro hwanted c hc
    rw [← contentAfter_collection hwanted hapart]
    exact hcontent _ ⟨_, mem_allUpkeeps_iff.2 (.inl ⟨hwanted, m, List.mem_singleton_self m, rfl⟩), rfl⟩ c hc
  · intro hwanted c hc
    rw [← contentAfter_document hwanted hapart]
    exact hcontent _ ⟨_, mem_allUpkeeps_iff.2 (.inr ⟨hwanted, m, List.mem_singleton_self m, rfl⟩), rfl⟩ c hc

end Rebuild

/-! ## A generation and a rebuild -/

namespace Generator

open Recovery

variable {g : Generator} {s : Settings} {n : Names} {p : Parsed} {d d' : Disk} {fields : List Field}

/-- A request collection is written again. -/
lemma collection_keeps_iff (hread : ∀ f ∈ fields, f.IsRead) {before : Disk}
    (hleft : (collectionUpkeep s (n, fields)).Left before d) :
    (collectionUpkeep s ({ n with raw := n.folder }, fields.map Field.normal)).after
        (d.content? (collectionFile s n)) = d.content? (collectionFile s n) ↔
      ∀ f ∈ fields, Sample.IsScriptedInFiles f := by
  have hcontent : d.content? (collectionFile s n) = _ := hleft.after_eq
  obtain ⟨c, hnext, -⟩ := hleft
  have hmerge : Collection.canMerge (Collection.itemsIn (before.content? (collectionFile s n))) = true := by
    rw [← Collection.isSome_next (collectionFile s n) (updateOf s (n, fields))]
    exact Option.isSome_iff_exists.2 ⟨c, hnext⟩
  rw [hcontent, ← Collection.requests_normal_iff n s.apiPrefix hread]
  exact Collection.after_after_iff _ rfl hmerge

/-- The API document is written again. -/
lemma document_keeps_iff (h : IsRecoverable n fields) (hread : ∀ f ∈ fields, f.IsRead) {before : Disk}
    (hproper : OpenApi.MergesProperly (before.content? s.documentPath))
    (hleft : (documentUpkeep s (n, fields)).Left before d) :
    (documentUpkeep s ({ n with raw := n.folder }, fields.map Field.normal)).after
        (d.content? s.documentPath) = d.content? s.documentPath ↔
      ∀ f ∈ fields, OpenApi.IsShownInFiles f := by
  have hcontent : d.content? s.documentPath = _ := hleft.after_eq
  obtain ⟨c, hnext, -⟩ := hleft
  have hown := h.hasOwnSchemas hread
  obtain ⟨X, hparts⟩ : ∃ X, OpenApi.partsOf (OpenApi.documentIn (before.content? s.documentPath)) = .ok X := by
    cases hparts : OpenApi.partsOf (OpenApi.documentIn (before.content? s.documentPath)) with
    | ok X => exact ⟨X, rfl⟩
    | error e =>
      have hnone : (documentUpkeep s (n, fields)).next (before.content? s.documentPath) = none := by
        simp only [documentUpkeep, OpenApi.upkeep, OpenApi.updated, OpenApi.merge_eq, hparts]
        rfl
      cases hnone.symm.trans hnext
  rw [hcontent, ← OpenApi.schemas_normal_iff hread h.legible.distinct h.children hown]
  have hkeys : Table.keys (OpenApi.schemas n (fields.map Field.normal)) =
      Table.keys (OpenApi.schemas n fields) := OpenApi.keys_schemas_normal hread hown
  exact OpenApi.after_after_iff _ rfl hkeys hparts hproper

/-- A generation that made all files of a module and documented it, without a failure. -/
structure IsDocumented (g : Generator) (name : Text) (tokens : List Text) (w : World) (n : Names) : Prop where
  names : Names.ofRaw? name = some n
  whole : (Parsed.ofTokens tokens).skipped = []
  done : ∃ r x, ((g.generate name tokens).runOn w).1 = .ok r ∧ IsOpen r ∧ r.exportErrors = [] ∧
    r.documentation = some x ∧ x.success = true

lemma exists_of_isDocumented {x : Except Failure Report}
    (h : (x.toOption.any fun r => isClean r && r.documentation.any DocumentationResult.success) = true) :
    ∃ r y, x = .ok r ∧ IsOpen r ∧ r.exportErrors = [] ∧ r.documentation = some y ∧ y.success = true := by
  obtain ⟨r, hr, hboth⟩ := (Option.any_eq_true ..).1 h
  obtain ⟨hclean, hdocumented⟩ := (Bool.and_eq_true_iff ..).1 hboth
  obtain ⟨r', hr', hopen, hexport⟩ := exists_of_isClean ((Option.any_eq_true ..).2 ⟨r, hr, hclean⟩)
  obtain ⟨y, hy, hsuccess⟩ := (Option.any_eq_true ..).1 hdocumented
  obtain rfl : r = r' := Except.ok.inj ((eq_ok_of_toOption hr).symm.trans hr')
  exact ⟨r, y, hr', hopen, hexport, hy, hsuccess⟩

/-- A project in which the files of a module, the shared files and the API document do not get into each
other's way. -/
structure HasRoomFor (s : Settings) (n : Names) (d : Disk) : Prop where
  separate : IsSeparate s n d
  keepsDocument : KeepsDocument s n d
  /-- What is written into the API document is read back. -/
  proper : ∀ c, d.find? (d.destination s.documentPath) = some (.file c) → OpenApi.MergesProperly (some c)

/-- What the API document holds when it is updated is what it held before, or nothing. -/
lemma HasRoomFor.mergesProperly (h : HasRoomFor s n d)
    (hchanges : Disk.Changes (· ≠ d.destination s.documentPath) (fun _ => True) d d') :
    OpenApi.MergesProperly (d'.content? s.documentPath) := by
  cases hc : d'.content? s.documentPath with
  | none => exact OpenApi.mergesProperly_none
  | some c =>
    have hfile := Disk.find?_of_content? hc
    rw [Disk.destination_of_home hchanges.home] at hfile
    exact h.proper c ((hchanges.file_before hfile).resolve_left fun hne => hne rfl)

/-- A generation that goes on has fields. -/
lemma fields_ne_nil {name : Text} {tokens : List Text} {w : World} {r : Report}
    (hrun : ((g.generate name tokens).runOn w).1 = .ok r) (hopen : IsOpen r) :
    (Parsed.ofTokens tokens).fields ≠ [] := by
  intro hnil
  cases herrors : (g.findingsOn name tokens).hasErrors with
  | true =>
    rw [runOn_generate_of_hasErrors herrors w] at hrun
    obtain rfl := Except.ok.inj hrun
    exact (hasErrors_iff _).1 herrors (List.map_eq_nil_iff.1 hopen.valid)
  | false =>
    cases hname : Names.ofRaw? name with
    | none =>
      rw [runOn_generate_of_none herrors hname w] at hrun
      cases hrun
    | some n =>
      obtain ⟨r', records, hproduced, hbusy⟩ := runOn_produce_of_nil (g := g) (n := n) hnil
        (named name n (.ofTokens tokens) (g.findingsOn name tokens)) (w.logged (g.inputRecords name tokens))
      rw [runOn_generate_of_some herrors hname w, hproduced] at hrun
      obtain rfl := Except.ok.inj hrun
      exact absurd (hopen.busy.symm.trans hbusy) Bool.false_ne_true

/-- What a generation without a failure leaves: the files of the module as they were rendered, and the
documentation made from the fields. -/
lemma IsDocumented.creation {name : Text} {tokens : List Text} {w : World}
    (h : IsDocumented g name tokens w n) : ∃ r x,
      Creation g n (.ofTokens tokens) w (.ok r) ((g.generate name tokens).runOn w).2 ∧ r.exportErrors = [] ∧
        r.documentation = some x ∧ x.success = true := by
  obtain ⟨r, x, hrun, hopen, hexport, hx, hsuccess⟩ := h.done
  obtain ⟨-, hclosed⟩ | ⟨n', y, hname, -, hcreation, hresult⟩ := generate_cases g name tokens w
  · exact absurd hopen (hclosed r hrun)
  obtain rfl : n = n' := Option.some.inj (h.names.symm.trans hname)
  obtain ⟨r', rfl, rfl⟩ := exists_of_map_eq_ok (hresult.symm.trans hrun)
  exact ⟨r', x, hcreation, hexport, hx, hsuccess⟩

section Rebuilt

variable {name : Text} {tokens targets : List Text} {w : World}
  (hdone : IsDocumented g name tokens w n) (hroom : HasRoomFor g.settings n w.disk)
  (hremote : g.settings.isRemote = false)

include hdone hroom

/-- What a rebuild finds are the normal forms of the fields. -/
lemma IsDocumented.modulesOn (hrecoverable : IsRecoverable n (Parsed.ofTokens tokens).fields)
    (htree : ((g.generate name tokens).runOn w).2.disk.IsTree)
    (hasks : Rebuild.AsksOnlyFor g.settings targets ((g.generate name tokens).runOn w).2.disk n.folder) :
    (∃ l, ((g.generate name tokens).runOn w).2.disk.place g.settings.modulesPath = .ok ⟨l, some .folder⟩) ∧
      Rebuild.modulesOn g.settings targets ((g.generate name tokens).runOn w).2.disk =
        [({ n with raw := n.folder }, (Parsed.ofTokens tokens).fields.map Field.normal)] := by
  obtain ⟨r, x, hcreation, hexport, -, -⟩ := hdone.creation
  obtain ⟨r', -, hrun, hopen, -⟩ := hdone.done
  have hfiles := fun a => (hcreation.files hexport).2 hroom.separate a (by simp [Bundle.isSkipped, hdone.whole])
  have hrecovered := fields_generated (Parsed.ofTokens tokens).upload hdone.names
    (Text.ne_nil_of_isExactIdentifier hrecoverable.folder) hrecoverable.word hrecoverable.legible
  exact Rebuild.modulesOn_eq_singleton htree hrecoverable.folder hrecoverable.names (hfiles .interface)
    (hfiles .model) hrecovered (by simpa using fields_ne_nil hrun hopen) hasks

include hremote

lemma IsDocumented.left_collection (hwanted : g.settings.updateCollection = true) :
    ∃ before, (collectionUpkeep g.settings (n, (Parsed.ofTokens tokens).fields)).Left before
      ((g.generate name tokens).runOn w).2.disk := by
  obtain ⟨r, x, hcreation, hexport, hx, hsuccess⟩ := hdone.creation
  exact (hcreation.documented hexport (by simp [hwanted]) hx hsuccess hremote hroom.separate
    hroom.keepsDocument).1 hwanted

lemma IsDocumented.left_document (hwanted : g.settings.updateDocument = true) :
    ∃ before, OpenApi.MergesProperly (before.content? g.settings.documentPath) ∧
      (documentUpkeep g.settings (n, (Parsed.ofTokens tokens).fields)).Left before
        ((g.generate name tokens).runOn w).2.disk := by
  obtain ⟨r, x, hcreation, hexport, hx, hsuccess⟩ := hdone.creation
  obtain ⟨before, hchanges, hleft⟩ := (hcreation.documented hexport (by simp [hwanted]) hx hsuccess hremote
    hroom.separate hroom.keepsDocument).2 hwanted
  exact ⟨before, hroom.mergesProperly hchanges, hleft⟩

/-- The API document that a generation leaves can be merged into. -/
lemma IsDocumented.mergesProperly (hwanted : g.settings.updateDocument = true) {c : Bytes}
    (hc : ((g.generate name tokens).runOn w).2.disk.find?
      (((g.generate name tokens).runOn w).2.disk.destination g.settings.documentPath) = some (.file c)) :
    OpenApi.MergesProperly (some c) := by
  obtain ⟨before, hproper, hleft⟩ := hdone.left_document hroom hremote hwanted
  have hafter : _ = (documentUpkeep g.settings (n, (Parsed.ofTokens tokens).fields)).after
    (before.content? g.settings.documentPath) := hleft.after_eq
  obtain ⟨c', -, hcontent⟩ := hleft
  obtain rfl : c = c' := by simpa using hc.symm.trans (Disk.find?_of_content? hcontent)
  rw [← hcontent, hafter]
  exact OpenApi.mergesProperly_after _ _ hproper

variable (hrecoverable : IsRecoverable n (Parsed.ofTokens tokens).fields) (client : Option Client)
  (hproject : Rebuild.IsProject g.settings targets ((g.generate name tokens).runOn w).2.disk)
  (hasks : Rebuild.AsksOnlyFor g.settings targets ((g.generate name tokens).runOn w).2.disk n.folder)

include hrecoverable hproject hasks

/-- A rebuild leaves the request collection as it is exactly if the values of all enumerations and the
types of all fields are known. -/
theorem collection_rebuilt_iff (hwanted : g.settings.updateCollection = true) :
    let first := (g.generate name tokens).runOn w
    let second := (Rebuild.run g.settings targets client).runOn first.2
    second.2.disk.content? (collectionFile g.settings n) = first.2.disk.content? (collectionFile g.settings n) ↔
      ∀ f ∈ (Parsed.ofTokens tokens).fields, Sample.IsScriptedInFiles f := by
  intro first second
  obtain ⟨⟨l, hplace⟩, hmodules⟩ := hdone.modulesOn hroom hrecoverable hproject.tree hasks
  obtain ⟨before, hleft⟩ := hdone.left_collection hroom hremote hwanted
  obtain ⟨c, -, hc⟩ := id hleft
  have hagain : second.2.disk.content? (collectionFile g.settings n) = _ :=
    (Rebuild.content?_run client hremote hproject hplace hmodules).1 hwanted c hc
  rw [hagain, ← hc]
  exact collection_keeps_iff (fun f hf => Parsed.isRead_of_mem hf) hleft

/-- A rebuild leaves the API document as it is exactly if no enumeration is without values and every
nested field is required unless it is optional. -/
theorem document_rebuilt_iff (hwanted : g.settings.updateDocument = true) :
    let first := (g.generate name tokens).runOn w
    let second := (Rebuild.run g.settings targets client).runOn first.2
    second.2.disk.content? g.settings.documentPath = first.2.disk.content? g.settings.documentPath ↔
      ∀ f ∈ (Parsed.ofTokens tokens).fields, OpenApi.IsShownInFiles f := by
  intro first second
  obtain ⟨⟨l, hplace⟩, hmodules⟩ := hdone.modulesOn hroom hrecoverable hproject.tree hasks
  obtain ⟨before, hproper, hleft⟩ := hdone.left_document hroom hremote hwanted
  obtain ⟨c, -, hc⟩ := id hleft
  have hagain : second.2.disk.content? g.settings.documentPath = _ :=
    (Rebuild.content?_run client hremote hproject hplace hmodules).2 hwanted c hc
  rw [hagain, ← hc]
  exact document_keeps_iff hrecoverable (fun f hf => Parsed.isRead_of_mem hf) hproper hleft

end Rebuilt

/-- **Rebuilding what was just generated** leaves each of the two files as it is exactly if what the file
shows of the fields is kept by their normal forms. -/
theorem rebuild_keeps_iff (g : Generator) (name : Text) (tokens targets : List Text) (client : Option Client)
    (w : World) {n : Names} (hdone : IsDocumented g name tokens w n) (hremote : g.settings.isRemote = false)
    (hrecoverable : IsRecoverable n (Parsed.ofTokens tokens).fields) (hroom : HasRoomFor g.settings n w.disk)
    (hproject : Rebuild.IsProject g.settings targets ((g.generate name tokens).runOn w).2.disk)
    (hasks : Rebuild.AsksOnlyFor g.settings targets ((g.generate name tokens).runOn w).2.disk n.folder) :
    let first := (g.generate name tokens).runOn w
    let second := (Rebuild.run g.settings targets client).runOn first.2
    (g.settings.updateCollection = true →
      (second.2.disk.content? (collectionFile g.settings n) =
          first.2.disk.content? (collectionFile g.settings n) ↔
        ∀ f ∈ (Parsed.ofTokens tokens).fields, Sample.IsScriptedInFiles f)) ∧
    (g.settings.updateDocument = true →
      (second.2.disk.content? g.settings.documentPath = first.2.disk.content? g.settings.documentPath ↔
        ∀ f ∈ (Parsed.ofTokens tokens).fields, OpenApi.IsShownInFiles f)) :=
  ⟨collection_rebuilt_iff hdone hroom hremote hrecoverable client hproject hasks,
    document_rebuilt_iff hdone hroom hremote hrecoverable client hproject hasks⟩

/-! ## A module of orders -/

/-- The names of a module of orders. -/
def orderNames : Names := ⟨"Order", "Order", "order"⟩

/-- An empty project in which a module of orders was generated. -/
def orderWorld : World := ((emptyProject.generate "Order" sampleTokens).runOn emptyWorld).2

lemma orderWorld_eq : ((emptyProject.generate "Order" sampleTokens).runOn emptyWorld).2 = orderWorld := rfl

lemma orderWorld_disk : (Table.keys orderWorld.disk.entries).Nodup ∧ orderWorld.disk.home = [] ∧
    (∀ e ∈ orderWorld.disk.entries, orderWorld.disk.find? e.1.dropLast = some .folder ∧
      ∀ part ∈ e.1.getLast?, Disk.IsName part) ∧
    (∀ e ∈ orderWorld.disk.entries, e.1.dropLast = emptyProject.settings.modulesPath.parts →
      e.1.getLast? = some orderNames.folder) ∧
    orderWorld.disk.CanSave (collectionFile emptyProject.settings orderNames) ∧
    orderWorld.disk.CanSave emptyProject.settings.documentPath := by
  decide +kernel

lemma isTree_orderWorld : orderWorld.disk.IsTree :=
  .of_entries orderWorld_disk.1 (by rw [orderWorld_disk.2.1]; rfl) orderWorld_disk.2.2.1

lemma destination_orderWorld (p : Path) : orderWorld.disk.destination p = emptyWorld.disk.destination p :=
  Disk.destination_of_home orderWorld_disk.2.1 p

lemma isDocumented_order : IsDocumented emptyProject "Order" sampleTokens emptyWorld orderNames where
  names := by decide
  whole := by decide
  done := exists_of_isDocumented (by decide +kernel)

lemma hasRoomFor_order : HasRoomFor emptyProject.settings orderNames emptyWorld.disk where
  separate :=
    { artifacts := fun a b hne h => hne (ModuleFolder.destination_artifactPath_injective (by decide) h)
      shared := fun q hq a => by
        have hall : ∀ q ∈ sharedFiles emptyProject.settings orderNames, ∀ a ∈ Artifact.all,
            emptyWorld.disk.destination q ≠
              emptyWorld.disk.destination (ModuleFolder.artifactPath emptyProject.settings orderNames a) := by
          decide
        exact hall q hq a (Artifact.mem_all a) }
  keepsDocument := ⟨by decide, by decide, by decide⟩
  proper c hc := by
    have hnone : emptyWorld.disk.find? (emptyWorld.disk.destination emptyProject.settings.documentPath) = none := rfl
    rw [hnone] at hc
    cases hc

lemma isRecoverable_order : IsRecoverable orderNames (Parsed.ofTokens sampleTokens).fields where
  folder := by decide
  word := Text.forall_mem_of_all (by decide)
  names := by decide
  legible := legible_sampleTokens
  children := by decide

lemma asksOnlyFor_order : Rebuild.AsksOnlyFor emptyProject.settings [] orderWorld.disk orderNames.folder where
  chosen := rfl
  only m hplace other hother _ := by
    have hm : m = orderWorld.disk.destination emptyProject.settings.modulesPath := Disk.location_of_place hplace
    have hparts : orderWorld.disk.destination emptyProject.settings.modulesPath =
        emptyProject.settings.modulesPath.parts := by
      rw [destination_orderWorld]
      decide
    have hentry := Disk.mem_entries_of_find? (Disk.mem_listed.1 hother)
    have hlast := orderWorld_disk.2.2.2.1 _ hentry (by rw [List.dropLast_concat, hm, hparts])
    rw [List.getLast?_concat] at hlast
    exact Option.some.inj hlast

/-- A rebuild finds the normal forms of the fields. -/
lemma modules_order :
    (∃ m, orderWorld.disk.place emptyProject.settings.modulesPath = .ok ⟨m, some .folder⟩) ∧
      Rebuild.modulesOn emptyProject.settings [] orderWorld.disk =
        [({ orderNames with raw := orderNames.folder }, (Parsed.ofTokens sampleTokens).fields.map Field.normal)] := by
  have htree := isTree_orderWorld
  have hasks := asksOnlyFor_order
  rw [← orderWorld_eq] at htree hasks ⊢
  exact isDocumented_order.modulesOn hasRoomFor_order isRecoverable_order htree hasks

lemma eq_of_files_order {p : Path} (h : Rebuild.files emptyProject.settings [] orderWorld.disk p) :
    p = collectionFile emptyProject.settings orderNames ∨ p = emptyProject.settings.documentPath := by
  obtain ⟨a, ha, rfl⟩ := h
  rw [modules_order.2] at ha
  rcases mem_allUpkeeps_iff.1 ha with ⟨-, module, hmodule, rfl⟩ | ⟨-, module, -, rfl⟩
  · obtain rfl := List.mem_singleton.1 hmodule
    exact .inl rfl
  · exact .inr rfl

lemma isProject_order : Rebuild.IsProject emptyProject.settings [] orderWorld.disk where
  tree := isTree_orderWorld
  base := nofun
  writable := by
    refine Disk.acceptsSaves (fun p hp => ?_) fun p r hp hr => ?_
    · rcases eq_of_files_order hp with rfl | rfl
      · exact orderWorld_disk.2.2.2.2.1
      · exact orderWorld_disk.2.2.2.2.2
    · have htemporary : orderWorld.disk.temporary p = emptyWorld.disk.temporary p := by
        rw [Disk.temporary, orderWorld_disk.2.1]
        rfl
      rw [htemporary, destination_orderWorld, destination_orderWorld]
      rcases eq_of_files_order hp with rfl | rfl
      · rcases eq_of_files_order hr with rfl | rfl
        · decide
        · decide
      · rcases eq_of_files_order hr with rfl | rfl
        · decide
        · decide
  apart p r hp hr hne := by
    rw [destination_orderWorld, destination_orderWorld]
    rcases eq_of_files_order hp with rfl | rfl
    · rcases eq_of_files_order hr with rfl | rfl
      · exact absurd rfl hne
      · decide
    · rcases eq_of_files_order hr with rfl | rfl
      · decide
      · exact absurd rfl hne
  document _ _ module hmodule := by
    rw [modules_order.2, List.mem_singleton] at hmodule
    rw [hmodule]
    decide
  sources p hp name hname kind hkind h := by
    obtain ⟨⟨m, hplace⟩, -⟩ := modules_order
    rw [Rebuild.destination_fileIn hplace hname hkind] at h
    obtain rfl : m = orderWorld.disk.destination emptyProject.settings.modulesPath :=
      Disk.location_of_place hplace
    have hlength := congrArg List.length h
    rw [destination_orderWorld, destination_orderWorld, List.length_append, List.length_cons,
      List.length_singleton] at hlength
    rcases eq_of_files_order hp with rfl | rfl
    · exact absurd hlength (by decide)
    · exact absurd hlength (by decide)
  readsBack c hc u v hv := by
    rw [← orderWorld_eq] at hc
    exact Json.parse_fileText (isDocumented_order.mergesProperly hasRoomFor_order rfl rfl hc u v hv)

/-- The items of orders are required or not as the tokens say, and the files do not tell. -/
lemma not_isShownInFiles_order : ¬ ∀ f ∈ (Parsed.ofTokens sampleTokens).fields, OpenApi.IsShownInFiles f := by
  intro hshown
  have hsku : ∃ f ∈ (Parsed.ofTokens sampleTokens).fields, ∃ c ∈ f.children,
      c.isRequired = false ∧ c.isOptional = false := by
    decide
  obtain ⟨f, hf, c, hc, hrequired, hoptional⟩ := hsku
  have hsame := (hshown f hf).required c hc
  rw [hrequired, hoptional] at hsame
  cases hsame

/-- The request collection of the orders stays, and the API document does not. -/
theorem rebuild_keeps_order :
    let first := (emptyProject.generate "Order" sampleTokens).runOn emptyWorld
    let second := (Rebuild.run emptyProject.settings [] none).runOn first.2
    second.2.disk.content? (collectionFile emptyProject.settings orderNames) =
        first.2.disk.content? (collectionFile emptyProject.settings orderNames) ∧
      second.2.disk.content? emptyProject.settings.documentPath ≠
        first.2.disk.content? emptyProject.settings.documentPath := by
  have hproject := isProject_order
  have hasks := asksOnlyFor_order
  rw [← orderWorld_eq] at hproject hasks
  have hboth := rebuild_keeps_iff emptyProject "Order" sampleTokens [] none emptyWorld isDocumented_order rfl
    isRecoverable_order hasRoomFor_order hproject hasks
  dsimp only at hboth ⊢
  have hscripted : ∀ f ∈ (Parsed.ofTokens sampleTokens).fields, ∀ g ∈ f :: f.children,
      Sample.isScripted g.kind = true := by
    decide +kernel
  exact ⟨(hboth.1 rfl).2 hscripted, fun hsame => not_isShownInFiles_order ((hboth.2 rfl).1 hsame)⟩

/-- **A rebuild changes what a generation has just documented**: the schema of the items says that their
first property is required. -/
theorem rebuild_changes_order :
    let first := (emptyProject.generate "Order" sampleTokens).runOn emptyWorld
    let second := (Rebuild.run emptyProject.settings [] none).runOn first.2
    IsDocumented emptyProject "Order" sampleTokens emptyWorld orderNames ∧
      second.2.disk.content? emptyProject.settings.documentPath ≠
        first.2.disk.content? emptyProject.settings.documentPath := by
  have hproject := isProject_order
  have hasks := asksOnlyFor_order
  rw [← orderWorld_eq] at hproject hasks
  have hiff := document_rebuilt_iff isDocumented_order hasRoomFor_order rfl isRecoverable_order none hproject
    hasks rfl
  dsimp only at hiff ⊢
  exact ⟨isDocumented_order, fun hsame => not_isShownInFiles_order (hiff.1 hsame)⟩

end Generator

end Scaffold
