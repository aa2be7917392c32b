import Mathlib
import Scaffold.Proofs.Disk.Writable
import Scaffold.Proofs.Settings.Layers
import Scaffold.Proofs.World.Documents
import Scaffold.Settings.Installed

/-!
# Loading settings

Loading follows the rule for the places that settings come from (`load_resolves`), whatever the places hold,
as long as the files that have to be readable are: a settings file that was asked for, and an environment
file that is there.  The package description may be broken, and is like an empty one then
(`packageMembersOn`).

YAML and environment files are read by readers from outside, of which nothing is assumed: the rule is about
the mappings that they return, and their values may be ones that no document has (`Raw`).

What loading returns depends on the raw values alone.  Each setting is checked apart from the others
(`get_set`), so that it is its default or what the check makes of its raw value (`IsResolved`).
-/

namespace Scaffold

/-! ## What the raw values come to -/

/-- What a setting is. -/
inductive Setting.Value where
  | text (t : Text)
  | flag (b : Bool)
  | optional (t : Option Text)
  | number (x : Binary64)

namespace Settings

variable {s s' t : Settings} {k key : Setting} {v : Raw} {l : Layer Raw} {base : Path}

/-- What one setting is. -/
def get (s : Settings) : Setting → Setting.Value
  | .modulesFolder => .text s.modulesFolder
  | .routerFile => .text s.routerFile
  | .helpersFolder => .text s.helpersFolder
  | .apiPrefix => .text s.apiPrefix
  | .collectionFolder => .text s.collectionFolder
  | .documentFile => .text s.documentFile
  | .updateCollection => .flag s.updateCollection
  | .updateDocument => .flag s.updateDocument
  | .apiKey => .optional s.apiKey
  | .collectionId => .optional s.collectionId
  | .apiAddress => .text s.apiAddress
  | .timeout => .number s.timeout

/-- A checked value that is there was checked. -/
lemma eq_ok_of_map {ε α β : Type} {x : Except ε α} {f : α → β} {y : β} (h : x.map f = .ok y) :
    ∃ a, x = .ok a ∧ y = f a := by
  cases x with
  | error e => cases h
  | ok a => exact ⟨a, rfl, (Except.ok.inj h).symm⟩

/-- Changing a setting changes no other one, and what it becomes is a matter of the raw value alone. -/
lemma get_set (h : s.set key v = .ok s') (t : Settings) :
    s'.base = s.base ∧ (∀ k, k ≠ key → s'.get k = s.get k) ∧
      ∃ t', t.set key v = .ok t' ∧ t'.get key = s'.get key := by
  cases key <;> simp only [set] at h ⊢ <;>
    (obtain ⟨x, hx, rfl⟩ := eq_ok_of_map h
     rw [hx]
     refine ⟨rfl, fun k hk => ?_, _, rfl, rfl⟩
     cases k <;> first | rfl | exact absurd rfl hk)

/-- A setting is what the check makes of its raw value; without one it is what it was. -/
def IsResolved (raw : Option Raw) (k : Setting) (s s' : Settings) : Prop :=
  match raw with
  | none => s'.get k = s.get k
  | some v => ∃ t, s.set k v = .ok t ∧ s'.get k = t.get k

/-- Another setting is resolved from before a change as it is from after it. -/
lemma IsResolved.of_set {raw : Option Raw} {s₁ : Settings} (h : IsResolved raw k s₁ s')
    (hset : s.set key v = .ok s₁) (hne : k ≠ key) : IsResolved raw k s s' := by
  obtain ⟨-, hothers, -⟩ := get_set hset s
  cases raw with
  | none => exact h.trans (hothers k hne)
  | some v' =>
    obtain ⟨t, ht, hget⟩ := h
    -- what the check makes of a value does not depend on the settings before
    obtain ⟨-, -, t', ht', hget'⟩ := get_set ht s
    exact ⟨t', ht', hget.trans hget'.symm⟩

/-- Changing all settings of a layer without a complaint resolves each of them. -/
lemma setAll_ok {keys : List Setting} (hkeys : keys.Nodup) (h : setAll l s keys = (s', [])) :
    s'.base = s.base ∧ ∀ k, IsResolved (if k ∈ keys then Table.find? k l else none) k s s' := by
  induction keys generalizing s with
  | nil =>
    obtain rfl : s = s' := congrArg Prod.fst h
    exact ⟨rfl, fun k => rfl⟩
  | cons key keys ih =>
    obtain ⟨hnot, hnodup⟩ := List.nodup_cons.1 hkeys
    rw [setAll] at h
    split at h
    · rename_i hraw
      obtain ⟨hbase, hrest⟩ := ih hnodup h
      refine ⟨hbase, fun k => ?_⟩
      have hk := hrest k
      by_cases heq : k = key
      · subst heq
        rw [if_neg hnot] at hk
        rwa [if_pos (List.mem_cons_self ..), hraw]
      · simpa [heq] using hk
    · rename_i v hraw
      split at h
      · rename_i s₁ hset
        obtain ⟨hbase, hrest⟩ := ih hnodup h
        obtain ⟨hbase₁, -, -⟩ := get_set hset s
        refine ⟨hbase.trans hbase₁, fun k => ?_⟩
        have hk := hrest k
        by_cases heq : k = key
        · subst heq
          rw [if_neg hnot] at hk
          rw [if_pos (List.mem_cons_self ..), hraw]
          exact ⟨s₁, hset, hk⟩
        · have hmem : k ∈ key :: keys ↔ k ∈ keys := by simp [heq]
          simp only [hmem]
          exact hk.of_set hset heq
      · cases congrArg Prod.snd h

/-- The settings of a layer depend on the values in it alone. -/
lemma setAll_congr {l' : Layer Raw} (h : ∀ k, Table.find? k l' = Table.find? k l) (keys : List Setting) :
    setAll l' s keys = setAll l s keys := by
  induction keys generalizing s with
  | nil => rfl
  | cons key keys ih => simp only [setAll, h, ih]

lemma ofLayer_congr {l' : Layer Raw} (h : ∀ k, Table.find? k l' = Table.find? k l) :
    ofLayer base l' = ofLayer base l := by
  rw [ofLayer, ofLayer, setAll_congr h]

/-- The settings of a layer are the default ones but for what the layer sets. -/
lemma ofLayer_ok (h : ofLayer base l = .ok s) :
    s.base = base ∧ ∀ k, IsResolved (Table.find? k l) k { base } s := by
  rw [ofLayer] at h
  split at h
  · rename_i hall
    obtain rfl := Except.ok.inj h
    obtain ⟨hbase, hresolved⟩ := setAll_ok (by decide) hall
    refine ⟨hbase, fun k => ?_⟩
    have hk := hresolved k
    rwa [if_pos (Setting.mem_all k)] at hk
  · cases h

/-! ## Reading the places -/

/-- The members of the section in the package description on a disk: none where there is no file, where its
content is no document, and where the document has no section with members. -/
def packageMembersOn (d : Disk) (base : Path) : Json.Members :=
  match (d.content? (base.child "package.json")).bind Files.documentIn? with
  | some (.obj description) =>
    match Table.find? "moduleGenerator".toList description with
    | some (.obj members) => members
    | _ => []
  | _ => []

/-- The members that the text of a settings file holds, as its reader returns them.  A text that stands for
nothing holds none. -/
inductive FileHolds (readers : Readers) (path : Path) (t : Text) : Raw.Members → Prop where
  | document {members : Json.Members} : Text.lower path.suffix = ".json".toList →
    Json.parse t = .ok (.obj members) → FileHolds readers path t (Raw.ofMembers members)
  | null : Text.lower path.suffix = ".json".toList → Json.parse t = .ok .null → FileHolds readers path t []
  | mapping {members : Raw.Members} : Text.lower path.suffix ≠ ".json".toList →
    readers.yaml t = some (.mapping members) → FileHolds readers path t members
  | nothing : Text.lower path.suffix ≠ ".json".toList → readers.yaml t = some .nothing → FileHolds readers path t []

/-- What a run with some readers finds in the places.  Whether there is a package description can be told; a
settings file that was asked for can be read, and its reader returns a mapping or nothing; and an environment
file that is there can be read. -/
structure IsFound (readers : Readers) (d : Disk) (base : Path) (file environmentFile : Option Path) (p : Provided) :
    Prop where
  known : ∃ b, d.isFile (base.child "package.json") = .ok b
  package : p.package = Raw.ofMembers (packageMembersOn d base)
  file : match file with
    | none => p.file = []
    | some file => ∃ t, d.readText (base.join file) = .ok t ∧ FileHolds readers (base.join file) t p.file
  assigned : (d.isFile (environmentFile.getD (base.child ".env")) = .ok false ∧ p.assigned = []) ∨
    ∃ t, d.readText (environmentFile.getD (base.child ".env")) = .ok t ∧
      p.assigned = readers.environmentFile p.process t

end Settings

/-- An action that returns a result and leaves the disk as it is. -/
def Act.Gives {α : Type} (a : Act α) (w : World) (x : α) : Prop :=
  ∃ w', a.runOn w = (.ok x, w') ∧ w'.disk = w.disk

namespace Act.Gives

variable {α β : Type} {a : Act α} {k : α → Act β} {w : World} {x : α} {y : β}

lemma pure (w : World) (x : α) : Gives (Pure.pure x) w x := ⟨w, rfl, rfl⟩

lemma say (records : List Log.Record) (w : World) : Gives (Act.say records) w () := ⟨_, rfl, rfl⟩

lemma look {f : Disk → Except Failure α} (h : f w.disk = .ok x) : Gives (Act.look f) w x :=
  ⟨w, by rw [Act.runOn_look, h], rfl⟩

lemma bind (ha : Gives a w x) (hk : ∀ w', w'.disk = w.disk → Gives (k x) w' y) : Gives (a >>= k) w y := by
  obtain ⟨w₁, hrun, hdisk⟩ := ha
  obtain ⟨w₂, hrun', hdisk'⟩ := hk w₁ hdisk
  exact ⟨w₂, by rw [runOn_bind, hrun]; exact hrun', hdisk'.trans hdisk⟩

lemma attempt (h : Gives a w x) : Gives (Act.attempt a) w (.ok x) := by
  obtain ⟨w', hrun, hdisk⟩ := h
  exact ⟨w', by rw [runOn_attempt, hrun], hdisk⟩

end Act.Gives

namespace Settings

variable {w : World} {base : Path} {file environmentFile : Option Path} {readers : Readers} {p : Provided}
  {members : Raw.Members}

lemma gives_readLayer (source : Text) (members : Raw.Members) (w : World) :
    (readLayer source members).Gives w (Layer.ofMembers members) :=
  (Act.Gives.say _ w).bind fun w' _ => .pure w' _

/-- The section of a description is a member of it. -/
lemma packageMembersOn_eq (d : Disk) (base : Path) : packageMembersOn d base =
    (((d.content? (base.child "package.json")).bind Files.documentIn?).map packageMembers).getD [] := by
  unfold packageMembersOn
  cases (d.content? (base.child "package.json")).bind Files.documentIn? with
  | none => rfl
  | some description => cases description <;> rfl

/-- The package description gives the members of its section, and none if it is broken. -/
lemma gives_packageLayer (h : ∃ b, w.disk.isFile (base.child "package.json") = .ok b) :
    (packageLayer base).Gives w (Layer.ofMembers (Raw.ofMembers (packageMembersOn w.disk base))) := by
  obtain ⟨b, hb⟩ := h
  refine (Act.Gives.look hb).bind fun w₁ hdisk => ?_
  rw [← hdisk] at hb ⊢
  cases b with
  | false =>
    have hcontent : w₁.disk.content? (base.child "package.json") = none := by
      cases hcontent : w₁.disk.content? (base.child "package.json") with
      | none => rfl
      | some c =>
        rw [Disk.isFile_of_place (Disk.content?_eq_some_iff.1 hcontent)] at hb
        cases hb
    rw [packageMembersOn_eq, hcontent]
    exact .pure w₁ _
  | true =>
    obtain ⟨r, hrun, hr, hfailure⟩ := Files.runOn_readDocument w₁ (base.child "package.json")
    have hread : (Act.attempt (Files.readDocument (base.child "package.json"))).Gives w₁ r :=
      ⟨w₁, by rw [Act.runOn_attempt, hrun], rfl⟩
    refine hread.bind fun w₂ hdisk₂ => ?_
    rw [packageMembersOn_eq, ← hr]
    cases r with
    | ok description => exact gives_readLayer _ _ w₂
    | error f =>
      simp only [hfailure f rfl, if_true]
      exact (Act.Gives.say _ w₂).bind fun w₃ _ => .pure w₃ _

/-- The members that a settings file holds are read. -/
lemma FileHolds.fileMembers {path : Path} {t : Text} (h : FileHolds readers path t members) :
    readers.fileMembers path t = .ok members := by
  rw [Readers.fileMembers, Readers.loaded]
  cases h with
  | document hsuffix hparse =>
    rw [if_pos hsuffix, Files.document, hparse]
    rfl
  | null hsuffix hparse =>
    rw [if_pos hsuffix, Files.document, hparse]
    rfl
  | mapping hsuffix hyaml => rw [if_neg hsuffix, hyaml]
  | nothing hsuffix hyaml => rw [if_neg hsuffix, hyaml]

lemma gives_fileLayer {path : Path} {t : Text} (ht : w.disk.readText path = .ok t)
    (hmembers : readers.fileMembers path t = .ok members) :
    (readers.fileLayer path).Gives w (Layer.ofMembers members) := by
  refine (Act.Gives.look (Disk.isFile_of_readText ht)).bind fun w₁ hdisk => ?_
  rw [← hdisk] at ht
  refine (Act.Gives.look ht).bind fun w₂ _ => ?_
  have hparsed : (Act.ofExcept (readers.fileMembers path t)).Gives w₂ members :=
    ⟨w₂, by rw [Act.runOn_ofExcept, hmembers], rfl⟩
  exact hparsed.bind fun w₃ _ => gives_readLayer _ _ w₃

lemma gives_askedLayer (h : IsFound readers w.disk base file environmentFile p) :
    (readers.askedLayer base file).Gives w (Layer.ofMembers p.file) := by
  have hfile := h.file
  cases file with
  | none =>
    rw [show p.file = [] from hfile]
    exact .pure w _
  | some file =>
    obtain ⟨t, ht, hholds⟩ := hfile
    refine (gives_fileLayer ht hholds.fileMembers).attempt.bind fun w₁ _ => ?_
    exact (Act.Gives.say _ w₁).bind fun w₂ _ => .pure w₂ _

lemma gives_environmentLayer (h : IsFound readers w.disk base file environmentFile p) :
    (readers.environmentLayer p.process (environmentFile.getD (base.child ".env"))).Gives w
      (Environment.layer p.process p.assigned) := by
  rcases h.assigned with ⟨hnone, hassigned⟩ | ⟨t, ht, hassigned⟩
  · rw [hassigned]
    exact (Act.Gives.look hnone).bind fun w₁ _ => .pure w₁ _
  · rw [hassigned]
    refine (Act.Gives.look (Disk.isFile_of_readText ht)).bind fun w₁ hdisk => ?_
    rw [← hdisk] at ht
    refine (Act.Gives.look ht).bind fun w₂ _ => ?_
    exact (Act.Gives.say _ w₂).bind fun w₃ _ => .pure w₃ _

/-- All places are read, into the tables of what is found there. -/
lemma gives_sources (h : IsFound readers w.disk base file environmentFile p) :
    (readers.sources base file p.given environmentFile p.process).Gives w p.sources := by
  refine (gives_packageLayer h.known).bind fun w₁ hdisk₁ => ?_
  rw [← h.package]
  refine (gives_askedLayer (hdisk₁ ▸ h)).bind fun w₂ hdisk₂ => ?_
  refine (gives_environmentLayer (hdisk₂ ▸ hdisk₁ ▸ h)).bind fun w₃ _ => ?_
  exact (gives_readLayer _ _ w₃).bind fun w₄ _ => .pure w₄ _

/-- The tables over each other have the raw values, so the same settings come of them. -/
lemma ofLayer_merged (base : Path) (p : Provided) : ofLayer base p.sources.merged = ofLayer base p.values :=
  ofLayer_congr fun k => by rw [p.find?_merged, p.find?_values]

/-- What loading returns. -/
lemma load_eq (h : IsFound readers w.disk base file environmentFile p) :
    ((readers.load base file p.given environmentFile p.process).runOn w).1 =
      (ofLayer base p.values).mapError .settings := by
  obtain ⟨w₁, hsources, -⟩ := gives_sources h
  rw [Readers.load, Act.runOn_bind, hsources, ← ofLayer_merged]
  cases hlayer : ofLayer base p.sources.merged with
  | error issues => simp only [hlayer, Act.runOn_throw, Except.mapError]
  | ok s => simp only [hlayer, Act.runOn_bind, Act.runOn_say, Act.runOn_pure, Except.mapError]

/-- What is loaded has the base folder that was asked for, and each setting resolved. -/
lemma resolved_of_load {s : Settings} (h : IsFound readers w.disk base file environmentFile p)
    (hs : ((readers.load base file p.given environmentFile p.process).runOn w).1 = .ok s) :
    s.base = base ∧ ∀ k, IsResolved (p.raw k) k { base } s := by
  rw [load_eq h] at hs
  cases hlayer : ofLayer base p.values with
  | error issues =>
    rw [hlayer] at hs
    cases hs
  | ok s' =>
    rw [hlayer] at hs
    obtain rfl : s' = s := Except.ok.inj hs
    obtain ⟨hbase, hresolved⟩ := ofLayer_ok hlayer
    refine ⟨hbase, fun k => ?_⟩
    rw [← p.find?_values]
    exact hresolved k

/-- What is loaded is the same wherever the same relevant keys are found. -/
lemma load_eq_of_relevant {w' : World} {file' environmentFile' : Option Path} {p' : Provided}
    (h : IsFound readers w.disk base file environmentFile p) (h' : IsFound readers w'.disk base file' environmentFile' p')
    (hrelevant : p'.relevant = p.relevant) :
    ((readers.load base file' p'.given environmentFile' p'.process).runOn w').1 =
      ((readers.load base file p.given environmentFile p.process).runOn w).1 := by
  have hraw : p'.raw = p.raw := by rw [← p'.raw_relevant, hrelevant, p.raw_relevant]
  rw [load_eq h, load_eq h', Provided.values, Provided.values, hraw]

/-- **Settings by layers**: with any readers, the raw value that is checked for a setting is that of the
strongest place that sets it.  A setting without one has its default, and one with one is what the check makes of it.  Keys that
name no setting, among them all spellings of the base folder, make no difference to what is returned. -/
theorem load_resolves (h : IsFound readers w.disk base file environmentFile p) :
    (∃ s w', (readers.sources base file p.given environmentFile p.process).runOn w = (.ok s, w') ∧
      (∀ k, Table.find? k s.merged = p.raw k) ∧
      ((readers.load base file p.given environmentFile p.process).runOn w).1 =
        (ofLayer base s.merged).mapError .settings) ∧
    (∀ s, ((readers.load base file p.given environmentFile p.process).runOn w).1 = .ok s →
      s.base = base ∧ ∀ k, IsResolved (p.raw k) k { base } s) ∧
    (∀ w' file' environmentFile' p', IsFound readers w'.disk base file' environmentFile' p' →
      p'.relevant = p.relevant →
      ((readers.load base file' p'.given environmentFile' p'.process).runOn w').1 =
        ((readers.load base file p.given environmentFile p.process).runOn w).1) ∧
    ∀ members, ∀ m ∈ Provided.naming members, Setting.snakeKey m.1 ≠ baseName := by
  obtain ⟨w₁, hsources, -⟩ := gives_sources h
  refine ⟨⟨_, w₁, hsources, p.find?_merged, ?_⟩, fun s hs => resolved_of_load h hs,
    fun w' file' environmentFile' p' h' hrelevant => load_eq_of_relevant h h' hrelevant,
    fun members m hm => Provided.ne_baseName_of_mem_naming hm⟩
  rw [load_eq h, ofLayer_merged]

/-! ## A project with all places -/

/-- A package description with two spellings of one setting and a base folder. -/
def shopPackage : Json :=
  .object [("moduleGenerator", .object
    [("modulesDir", .lit "src/a"), ("modules_dir", .lit "src/b"), ("apiPrefix", .lit "v1"), ("baseDir", .lit "/tmp")])]

/-- A settings file. -/
def shopFile : Text := "apiPrefix: v2\npostmanApiKey: weak\n"

/-- A world with these files and an environment file. -/
def shopWorld : World :=
  { disk :=
      { entries :=
          [(["package.json"], .file (Utf8.encode shopPackage.fileText)),
            (["settings.yaml"], .file (Utf8.encode shopFile)),
            ([".env"], .file (Utf8.encode ("POSTMAN_API_KEY=strong" : Text)))]
        home := [] }
    remote := .script [] }

/-- What a run finds there if it is given no prefix. -/
def shopPlaces : Provided where
  package := Raw.ofMembers [Json.member "modulesDir" (.lit "src/a"), Json.member "modules_dir" (.lit "src/b"),
    Json.member "apiPrefix" (.lit "v1"), Json.member "baseDir" (.lit "/tmp")]
  file := Raw.ofMembers [Json.member "apiPrefix" (.lit "v2"), Json.member "postmanApiKey" (.lit "weak")]
  assigned := [("POSTMAN_API_KEY", some "strong".toList)]
  process := [("POSTMAN_API_KEY", some [])]
  given := Raw.ofMembers [Json.member "api_prefix" .null]

lemma place_shopPackage : shopWorld.disk.place (Path.child ⟨.root, []⟩ "package.json") =
    .ok ⟨["package.json"], some (.file (Utf8.encode shopPackage.fileText))⟩ :=
  Disk.place_eq_of_location (by decide +kernel)

lemma place_shopFile : shopWorld.disk.place (Path.join ⟨.root, []⟩ ⟨.here, ["settings.yaml"]⟩) =
    .ok ⟨["settings.yaml"], some (.file (Utf8.encode shopFile))⟩ :=
  Disk.place_eq_of_location (by decide +kernel)

lemma place_shopEnvironment : shopWorld.disk.place (Path.child ⟨.root, []⟩ ".env") =
    .ok ⟨[".env"], some (.file (Utf8.encode "POSTMAN_API_KEY=strong".toList))⟩ :=
  Disk.place_eq_of_location (by decide +kernel)

/-- The readers of the program read the settings file as a mapping. -/
lemma yaml_shopFile : Readers.installed.yaml shopFile = some (.mapping shopPlaces.file) := by
  cbv

lemma isFound_shop : IsFound Readers.installed shopWorld.disk ⟨.root, []⟩ (some ⟨.here, ["settings.yaml"]⟩) none
    shopPlaces where
  known := ⟨true, Disk.isFile_of_place place_shopPackage⟩
  package := by
    have hproper : shopPackage.IsProper := by
      simp [shopPackage, Json.object, Json.lit, Json.IsProper, Json.MembersAreProper, Table.keys]
    rw [packageMembersOn_eq, Disk.content?_eq_some_iff.2 place_shopPackage, Option.bind_some,
      Files.documentIn?_encode hproper]
    rfl
  file := by
    have hsuffix : Text.lower (Path.join ⟨.root, []⟩ ⟨.here, ["settings.yaml"]⟩).suffix ≠ ".json".toList := by
      decide
    refine ⟨shopFile, ?_, ?_⟩
    · rw [Disk.readText_of_read (Disk.read_of_place place_shopFile),
        Text.unifyNewlines_eq_self (by decide)]
    · exact .mapping hsuffix yaml_shopFile
  assigned := .inr ⟨"POSTMAN_API_KEY=strong".toList,
    (Disk.readText_of_read (Disk.read_of_place place_shopEnvironment)).trans rfl, rfl⟩

/-- In the shop the later spelling counts in the package description, the settings file comes before it,
the environment file before the settings file as the variable of the process is empty, and the prefix that
is null says nothing. -/
theorem load_resolves_shop :
    IsFound Readers.installed shopWorld.disk ⟨.root, []⟩ (some ⟨.here, ["settings.yaml"]⟩) none shopPlaces ∧
      ∃ s w', (Readers.installed.sources ⟨.root, []⟩ (some ⟨.here, ["settings.yaml"]⟩) shopPlaces.given none
          shopPlaces.process).runOn shopWorld = (.ok s, w') ∧
        Table.find? .modulesFolder s.merged = some (.plain (.lit "src/b")) ∧
        Table.find? .apiPrefix s.merged = some (.plain (.lit "v2")) ∧
        Table.find? .apiKey s.merged = some (.plain (.lit "strong")) ∧
        Table.find? .timeout s.merged = none := by
  obtain ⟨⟨s, w', hrun, hraw, -⟩, -⟩ := load_resolves isFound_shop
  refine ⟨isFound_shop, s, w', hrun, ?_⟩
  simp only [hraw]
  exact ⟨rfl, rfl, rfl, rfl⟩

end Settings

end Scaffold
