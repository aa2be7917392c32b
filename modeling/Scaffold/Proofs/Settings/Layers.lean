import Scaffold.Proofs.Table
import Scaffold.Settings.Load

/-!
# Which place decides a setting

Settings are given in five places: the package description, a settings file, an environment file, the
process, and what is given for the run.  They are read into four tables, which are written over each other
(`Sources.merged`), so that what a setting is in the end depends on every key that was spelled for it on
the way.

The rule behind this does without tables: the raw value of a setting is that of the strongest place that
sets it, and within a place that of the last key that names it (`Provided.raw`).  The tables follow the rule
(`find?_merged`), and keys that name no setting do not enter into it (`raw_relevant`).
-/

namespace Scaffold

namespace Setting

variable {k : Setting} {key : Text}

/-- The rule for a single table: the value of the last member whose key names the setting, in either
spelling. -/
def lastIn? {α : Type} (k : Setting) (members : List (Text × α)) : Option α :=
  (members.reverse.find? fun m => snakeKey m.1 = k.name).map Prod.snd

/-- The variable that a setting can be taken from. -/
def variableName? : Setting → Option Text
  | apiKey => some "POSTMAN_API_KEY"
  | collectionId => some "POSTMAN_COLLECTION_ID"
  | apiAddress => some "POSTMAN_API_URL"
  | _ => none

/-- The value of a variable, unless it is empty. -/
def nonempty? (e : Environment) (name : Text) : Option Text := (Table.find? name e).join.filter fun t => t ≠ []

/-- The rule for the environment: the variable of the process unless it is empty, else the one of the file
unless it is empty. -/
def environment? (k : Setting) (process file : Environment) : Option Raw :=
  k.variableName?.bind fun name => ((nonempty? process name).or (nonempty? file name)).map fun t => .plain (.str t)

lemma ofKey?_eq_some_iff : ofKey? key = some k ↔ snakeKey key = k.name := by
  constructor
  · intro h
    have hname := List.find?_some h
    exact (of_decide_eq_true hname).symm
  · intro h
    rw [ofKey?, h, ofName?_name]

/-- A key that is read as the one of the base folder names no setting. -/
lemma ofKey?_of_baseName (h : snakeKey key = Settings.baseName) : ofKey? key = none := by
  rw [ofKey?, h]
  rfl

end Setting

/-! ## One table -/

/-- In a table made of items with distinct names, a name has the value that its item gives, if any. -/
lemma Table.find?_filterMap {α β γ : Type} [DecidableEq α] (name : γ → α) {items : List γ}
    (h : (items.map name).Nodup) (key : α) (f : γ → Option β) :
    find? key (items.filterMap fun i => (f i).map fun v => (name i, v)) =
      (items.find? fun i => name i = key).bind f := by
  induction items with
  | nil => rfl
  | cons i items ih =>
    obtain ⟨hnot, hnodup⟩ := List.nodup_cons.1 h
    by_cases hkey : name i = key
    · have hrest : (items.find? fun i => name i = key) = none := List.find?_eq_none.2 fun j hj hname =>
        hnot (hkey ▸ of_decide_eq_true hname ▸ List.mem_map_of_mem hj)
      rw [List.find?_cons_of_pos (by simpa using hkey), Option.bind_some, List.filterMap_cons]
      cases hvalue : f i with
      | none => rw [Option.map_none, ih hnodup, hrest, Option.bind_none]
      | some v => rw [Option.map_some, find?, if_pos hkey]
    · rw [List.find?_cons_of_neg (by simpa using hkey), ← ih hnodup, List.filterMap_cons]
      cases hvalue : f i with
      | none => rfl
      | some v => rw [Option.map_some, find?, if_neg hkey]

namespace Layer

/-- The table of members follows the rule. -/
lemma find?_ofMembers {α : Type} (k : Setting) (members : List (Text × α)) :
    Table.find? k (ofMembers members) = k.lastIn? members := by
  rw [ofMembers, Table.find?_ofEntries, ← List.filterMap_reverse, Setting.lastIn?]
  generalize members.reverse = ms
  induction ms with
  | nil => rfl
  | cons m ms ih =>
    obtain ⟨key, v⟩ := m
    by_cases hk : Setting.snakeKey key = k.name
    · have hkey := Setting.ofKey?_eq_some_iff.2 hk
      rw [List.find?_cons_of_pos (by simpa using hk)]
      simp only [List.filterMap_cons, hkey, Option.map_some, Table.find?, if_true]
    · rw [List.find?_cons_of_neg (by simpa using hk), ← ih]
      cases hkey : Setting.ofKey? key with
      | none => simp only [List.filterMap_cons, hkey, Option.map_none]
      | some k' =>
        have hne : k' ≠ k := by
          rintro rfl
          exact hk (Setting.ofKey?_eq_some_iff.1 hkey)
        simp only [List.filterMap_cons, hkey, Option.map_some, Table.find?, if_neg hne]

lemma nodup_ofMembers {α : Type} (members : List (Text × α)) : (Table.keys (ofMembers members)).Nodup :=
  Table.nodup_keys_ofEntries _

end Layer

namespace Environment

lemma given?_eq (e : Environment) (name : Text) : given? e name = Setting.nonempty? e name := by
  rw [given?, Setting.nonempty?]
  match Table.find? name e with
  | none => rfl
  | some none => rfl
  | some (some []) => rfl
  | some (some (c :: rest)) => rfl

/-- The table of the environment follows the rule. -/
lemma find?_layer (process file : Environment) (k : Setting) :
    Table.find? k (layer process file) = k.environment? process file := by
  have hlayer : layer process file = settingNames.filterMap fun e =>
      (((Setting.nonempty? process e.1).or (Setting.nonempty? file e.1)).map fun t =>
        Raw.plain (.str t)).map fun v => (e.2, v) := by
    simp only [layer, given?_eq, Option.map_map]
    rfl
  rw [hlayer, Table.find?_filterMap Prod.snd (by decide), Setting.environment?]
  cases k <;> rfl

lemma nodup_layer (process file : Environment) : (Table.keys (layer process file)).Nodup := by
  have hsublist : (Table.keys (layer process file)).Sublist (settingNames.map Prod.snd) := by
    rw [layer]
    generalize settingNames = names
    induction names with
    | nil => exact .slnil
    | cons e names ih =>
      rw [List.filterMap_cons]
      split
      · exact ih.cons _
      · rename_i entry hentry
        obtain ⟨t, -, rfl⟩ := Option.map_eq_some_iff.1 hentry
        exact ih.cons_cons _
  exact hsublist.nodup (by decide)

end Environment

namespace Settings

/-! ## All tables -/

/-- What the places hold: the section of the package description, the settings file, the environment file,
the process, and what is given for the run. -/
structure Provided where
  package : Raw.Members
  file : Raw.Members
  assigned : Environment
  process : Environment
  given : Raw.Members

namespace Provided

/-- The members among some that name a setting. -/
def naming (members : Raw.Members) : Raw.Members := members.filter fun m => (Setting.ofKey? m.1).isSome

/-- The variables among some that a setting can be taken from. -/
def known (e : Environment) : Environment := e.filter fun v => v.1 ∈ Environment.settingNames.map Prod.fst

/-- What is left of the places without the keys that name no setting. -/
def relevant (p : Provided) : Provided :=
  ⟨naming p.package, naming p.file, known p.assigned, known p.process, naming p.given⟩

/-- **The rule**: the raw value of a setting is that of the strongest place that sets it.  What is given for the
run sets nothing where it is null. -/
def raw (p : Provided) (k : Setting) : Option Raw :=
  (k.lastIn? (p.given.filter fun m => match m.2 with
    | .plain .null => false
    | _ => true)).or <|
    (k.environment? p.process p.assigned).or <|
      (k.lastIn? p.file).or (k.lastIn? p.package)

/-- All raw values. -/
def values (p : Provided) : Layer Raw := Setting.all.filterMap fun k => (p.raw k).map fun v => (k, v)

/-- The four tables. -/
def sources (p : Provided) : Sources :=
  ⟨Layer.ofMembers p.package, Layer.ofMembers p.file, Environment.layer p.process p.assigned,
    Layer.ofMembers (givenMembers p.given)⟩

/-- Four tables over each other follow the rule. -/
lemma find?_merged (p : Provided) (k : Setting) : Table.find? k p.sources.merged = p.raw k := by
  simp only [Sources.merged, Layer.merge, sources, List.foldl_cons, List.foldl_nil]
  rw [Table.find?_overlay_of_nodup (Layer.nodup_ofMembers _),
    Table.find?_overlay_of_nodup (Environment.nodup_layer _ _),
    Table.find?_overlay_of_nodup (Layer.nodup_ofMembers _),
    Table.find?_overlay_of_nodup (Layer.nodup_ofMembers _), Table.find?_nil, Option.or_none,
    Layer.find?_ofMembers, Layer.find?_ofMembers, Layer.find?_ofMembers, Environment.find?_layer]
  rfl

lemma find?_values (p : Provided) (k : Setting) : Table.find? k p.values = p.raw k := by
  rw [values, Table.find?_filterMap (fun k => k) (by decide)]
  cases k <;> rfl

/-- Members that name no setting are never the last that names one. -/
lemma lastIn?_naming (k : Setting) (members : Raw.Members) : k.lastIn? (naming members) = k.lastIn? members := by
  rw [Setting.lastIn?, Setting.lastIn?, naming, ← List.filter_reverse, List.find?_filter]
  congr 2
  funext m
  by_cases hname : Setting.snakeKey m.1 = k.name
  · simp [hname, Setting.ofKey?_eq_some_iff.2 hname]
  · simp [hname]

lemma filter_naming (q : Text × Raw → Bool) (members : Raw.Members) :
    (naming members).filter q = naming (members.filter q) := by
  rw [naming, naming, List.filter_filter, List.filter_filter]
  simp only [Bool.and_comm]

lemma nonempty?_known {name : Text} (h : name ∈ Environment.settingNames.map Prod.fst) (e : Environment) :
    Setting.nonempty? (known e) name = Setting.nonempty? e name := by
  have hfind : Table.find? name (known e) = Table.find? name e := by
    rw [known]
    induction e with
    | nil => rfl
    | cons v e ih =>
      rw [List.filter_cons]
      split
      · rw [Table.find?, Table.find?, ih]
      · rename_i hother
        have hne : v.1 ≠ name := by
          rintro rfl
          exact hother (decide_eq_true h)
        rw [ih, Table.find?, if_neg hne]
  rw [Setting.nonempty?, Setting.nonempty?, hfind]

lemma environment?_known (k : Setting) (process file : Environment) :
    k.environment? (known process) (known file) = k.environment? process file := by
  cases hname : k.variableName? with
  | none => rw [Setting.environment?, Setting.environment?, hname, Option.bind_none, Option.bind_none]
  | some name =>
    have hmem : name ∈ Environment.settingNames.map Prod.fst := by
      cases k <;> cases hname <;> decide
    rw [Setting.environment?, Setting.environment?, hname, Option.bind_some, Option.bind_some,
      nonempty?_known hmem, nonempty?_known hmem]

/-- Keys that name no setting have no influence on any raw value. -/
lemma raw_relevant (p : Provided) : p.relevant.raw = p.raw := by
  funext k
  simp only [raw, relevant, filter_naming, lastIn?_naming, environment?_known]

/-- No key of the base folder is relevant. -/
lemma ne_baseName_of_mem_naming {members : Raw.Members} {m : Text × Raw} (h : m ∈ naming members) :
    Setting.snakeKey m.1 ≠ baseName := by
  intro hbase
  have hsome := (List.mem_filter.1 h).2
  rw [Setting.ofKey?_of_baseName hbase] at hsome
  cases hsome

end Provided

end Settings

end Scaffold
