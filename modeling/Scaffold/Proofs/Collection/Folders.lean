import Scaffold.Proofs.Collection.Merge

/-!
# Folders of a collection that several modules write to

Putting the requests of a module into its folder changes one entry of the collection or adds one at
the end (`placed`).  After any number of such updates, in any order of modules, the collection is
described by what it was at first and, for each folder, by the last update of that folder alone
(`Placed`): an entry that was there stays at its place, new folders follow in the order of their
first updates.  One update keeps this description (`Placed.step`), which comes down to two facts: an
update does not change which entry is the folder of which module, and an earlier update of the same
folder leaves no trace (`filled_filled`).
-/

namespace Scaffold.Collection

/-! ## One update -/

/-- What an update puts into a folder: the requests of a module. -/
structure Update where
  names : Names
  fields : List Field
  apiPrefix : Text

namespace Update

/-- The name of the folder of the module. -/
def folder (u : Update) : Text := u.names.collectionFolder

/-- The requests of the module. -/
def requests (u : Update) : List Json := Collection.requests u.names u.fields u.apiPrefix

/-- The collection of the module. -/
def collection (u : Update) : Json := ofModule u.names u.fields u.apiPrefix

end Update

/-- The items of a folder; anything but a list counts as none. -/
def folderItems (members : Json.Members) : List Json :=
  match Json.Members.find? "item" members with
  | some (.arr items) => items
  | _ => []

/-- A folder with nothing but requests in it. -/
def newFolder (name : Text) (items : List Json) : Json :=
  .object [("name", .str name), ("item", .arr items)]

/-- The members of a folder with the requests of a module put before what people added. -/
def filledMembers (u : Update) (members : Json.Members) : Json.Members :=
  Json.Members.put "item" (.arr (u.requests ++ kept (requestNames u.names) (folderItems members)))
    members

/-- An entry with the requests of a module put before what people added. -/
def filled (u : Update) : Json → Json
  | .obj members => .obj (filledMembers u members)
  | entry => entry

/-- The entries after an update: the first folder of the module is filled, or a new one is added. -/
def placed (u : Update) : List Json → List Json
  | [] => [newFolder u.folder u.requests]
  | entry :: rest =>
    if isFolder u.folder entry then filled u entry :: rest else entry :: placed u rest

/-- Items that can be merged with: a list, null or absent, without lists and objects as names. -/
def AreMergeable : Option Json → Prop
  | none | some .null => True
  | some (.arr items) => ∀ item ∈ items, hasPlainName item = true
  | some _ => False

/-- An entry whose items, if it is a folder, can be merged with. -/
def IsMergeable : Json → Prop
  | .obj members => AreMergeable (Json.Members.find? "item" members)
  | _ => True

variable {u v : Update} {done : List Update} {entry : Json} {entries E A : List Json} {members : Json.Members}

lemma isFolder_iff {name : Text} : isFolder name entry = true ↔ textName? entry = some name := by
  cases entry with
  | obj members =>
    unfold isFolder textName?
    simp only
    generalize Json.Members.find? "name" members = found
    cases found with
    | none => exact iff_of_false Bool.false_ne_true (Option.some_ne_none _).symm
    | some v =>
      cases v with
      | str t => simp only [beq_iff_eq, Option.some.injEq]
      | _ => exact iff_of_false Bool.false_ne_true (Option.some_ne_none _).symm
  | _ => exact iff_of_false Bool.false_ne_true (Option.some_ne_none _).symm

lemma exists_of_isFolder {name : Text} (h : isFolder name entry = true) :
    ∃ members, entry = .obj members := by
  cases entry with
  | obj members => exact ⟨members, rfl⟩
  | _ => cases h

/-- What a merge takes for the items of a folder. -/
lemma orEmptyList_eq (h : IsMergeable (.obj members)) :
    Json.orEmptyList (Json.Members.find? "item" members) = .arr (folderItems members) ∧
      ∀ item ∈ folderItems members, hasPlainName item = true := by
  have h : AreMergeable (Json.Members.find? "item" members) := h
  unfold folderItems
  generalize Json.Members.find? "item" members = found at h ⊢
  cases found with
  | none => exact ⟨rfl, fun _ hi => absurd hi List.not_mem_nil⟩
  | some v =>
    cases v with
    | null => exact ⟨rfl, fun _ hi => absurd hi List.not_mem_nil⟩
    | arr items =>
      refine ⟨?_, h⟩
      cases items <;> rfl
    | _ => exact absurd h id

/-- Entries whose first folder of the module can be merged with are updated. -/
lemma replaceIn_eq (h : ∀ entry, entries.find? (isFolder u.folder) = some entry → IsMergeable entry) :
    ∃ merged?, replaceIn u.folder u.requests entries = .ok ⟨placed u entries, merged?⟩ := by
  induction entries with
  | nil => exact ⟨none, rfl⟩
  | cons entry rest ih =>
    by_cases hfolder : isFolder u.folder entry = true
    · obtain ⟨members, rfl⟩ := exists_of_isFolder hfolder
      obtain ⟨hitems, hplain⟩ := orEmptyList_eq (h _ (List.find?_cons_of_pos hfolder))
      have hmerge := merge_requests u.names u.fields u.apiPrefix hplain
      refine ⟨some ⟨u.requests, kept (requestNames u.names) (folderItems members)⟩, ?_⟩
      rw [replaceIn.eq_def]
      simp only [hfolder, hitems, Update.requests, bind, Except.bind, hmerge, placed, if_true]
      rfl
    · obtain ⟨merged?, hrest⟩ := ih fun e he =>
        h e (by rwa [List.find?_cons_of_neg hfolder])
      refine ⟨merged?, ?_⟩
      rw [Bool.not_eq_true] at hfolder
      have hskip : replaceIn u.folder u.requests (entry :: rest) =
          (replaceIn u.folder u.requests rest).map fun r =>
            { r with entries := entry :: r.entries } := by
        rw [replaceIn.eq_def]
        simp only [hfolder]
        cases replaceIn u.folder u.requests rest <;> rfl
      rw [hskip, hrest, placed, hfolder]
      rfl

lemma textName?_filled (u : Update) (entry : Json) : textName? (filled u entry) = textName? entry := by
  cases entry with
  | obj members =>
    have hname : Json.Members.find? "name" (filledMembers u members) =
        Json.Members.find? "name" members := by
      unfold Json.Members.find? filledMembers Json.Members.put
      rw [Table.find?_put, if_neg (by decide)]
    simp only [filled, textName?, hname]
  | _ => rfl

lemma folderItems_filledMembers (u : Update) (members : Json.Members) :
    folderItems (filledMembers u members) =
      u.requests ++ kept (requestNames u.names) (folderItems members) := by
  have hitem : Json.Members.find? "item" (filledMembers u members) =
      some (.arr (u.requests ++ kept (requestNames u.names) (folderItems members))) :=
    Table.find?_put_self' ..
  rw [folderItems, hitem]

lemma requestNames_eq (h : u.folder = v.folder) : requestNames u.names = requestNames v.names := by
  have hclass : u.names.className = v.names.className := List.append_cancel_right h
  rw [requestNames, requestNames, hclass]

/-- **An earlier update leaves no trace.** -/
lemma filled_filled (h : u.folder = v.folder) (entry : Json) :
    filled u (filled v entry) = filled u entry := by
  cases entry with
  | obj members =>
    have hnames := requestNames_eq h
    have hkept := kept_append_kept v.names v.fields v.apiPrefix (folderItems members)
    have hitems : kept (requestNames u.names) (folderItems (filledMembers v members)) =
        kept (requestNames u.names) (folderItems members) := by
      rw [folderItems_filledMembers, hnames, Update.requests, hkept]
    simp only [filled, filledMembers] at hitems ⊢
    rw [hitems]
    exact congrArg Json.obj (Table.put_put ..)
  | _ => rfl

lemma filled_newFolder (h : u.folder = v.folder) :
    filled u (newFolder v.folder v.requests) = newFolder u.folder u.requests := by
  have hkept : kept (requestNames u.names) v.requests = [] := by
    rw [requestNames_eq h]
    exact kept_requests ..
  have hitems : u.requests ++ kept (requestNames u.names) v.requests = u.requests := by
    rw [hkept, List.append_nil]
  show Json.obj [("name".toList, .str v.folder),
    ("item".toList, .arr (u.requests ++ kept (requestNames u.names) v.requests))] = _
  rw [hitems, h]
  rfl

/-! ### Where an update acts -/

lemma isFolder_filled (name : Text) (u : Update) (entry : Json) :
    isFolder name (filled u entry) = isFolder name entry := by
  rw [Bool.eq_iff_iff, isFolder_iff, isFolder_iff, textName?_filled]

lemma isFolder_newFolder (name name' : Text) (items : List Json) :
    isFolder name (newFolder name' items) = (name' == name) := rfl

lemma placed_append (u : Update) (E A : List Json) :
    placed u (E ++ A) =
      if E.any (isFolder u.folder) then placed u E ++ A else E ++ placed u A := by
  induction E with
  | nil => rfl
  | cons entry E ih =>
    rw [List.cons_append, placed, placed, List.any_cons]
    by_cases h : isFolder u.folder entry = true
    · simp [h]
    · rw [Bool.not_eq_true] at h
      rw [h, ih]
      cases E.any (isFolder u.folder) <;> rfl

/-- The first folder of the module is filled, and every other entry stays. -/
lemma getElem?_placed (h : E.any (isFolder u.folder) = true) (i : Nat) :
    (placed u E)[i]? =
      if E.findIdx? (isFolder u.folder) = some i then E[i]?.map (filled u) else E[i]? := by
  induction E generalizing i with
  | nil => cases h
  | cons entry E ih =>
    rw [placed, List.findIdx?_cons]
    by_cases hentry : isFolder u.folder entry = true
    · rw [if_pos hentry, if_pos hentry]
      cases i with
      | zero => rfl
      | succ i => rfl
    · rw [if_neg hentry, if_neg hentry]
      rw [List.any_cons, Bool.or_eq_true] at h
      cases i with
      | zero => simp
      | succ i =>
        rw [List.getElem?_cons_succ, List.getElem?_cons_succ, ih (h.resolve_left hentry) i]
        simp

/-! ## Any number of updates -/

/-- The last update whose folder is the entry at a place. -/
def lastAt (E : List Json) (done : List Update) (i : Nat) : Option Update :=
  done.reverse.find? fun u => E.findIdx? (isFolder u.folder) = some i

/-- An entry after updates. -/
def settled (E : List Json) (done : List Update) (i : Nat) (entry : Json) : Json :=
  match lastAt E done i with
  | some u => filled u entry
  | none => entry

/-- The requests of the modules that had no folder, in the order of their first updates. -/
def newcomers (E : List Json) (done : List Update) : List (Text × List Json) :=
  Table.ofEntries ((done.filter fun u => !E.any (isFolder u.folder)).map fun u =>
    (u.folder, u.requests))

/-- Entries after updates: those that were there, at their places, and the new folders. -/
structure Placed (E : List Json) (done : List Update) (entries : List Json) : Prop where
  split : ∃ U, entries = U ++ (newcomers E done).map (fun e => newFolder e.1 e.2) ∧
    ∀ i, U[i]? = E[i]?.map (settled E done i)

lemma Placed.nil (E : List Json) : Placed E [] E where
  split := ⟨E, (List.append_nil E).symm, fun i => by cases E[i]? <;> rfl⟩

lemma lastAt_concat (E : List Json) (done : List Update) (u : Update) (i : Nat) :
    lastAt E (done ++ [u]) i =
      if E.findIdx? (isFolder u.folder) = some i then some u else lastAt E done i := by
  rw [lastAt, List.reverse_concat, List.find?_cons]
  by_cases h : E.findIdx? (isFolder u.folder) = some i
  · simp [h]
  · simp [h, lastAt]

lemma findIdx?_of_lastAt {i : Nat} (h : lastAt E done i = some v) :
    E.findIdx? (isFolder v.folder) = some i := by
  have hfound := List.find?_some h
  exact of_decide_eq_true hfound

/-- The folder at a place belongs to one module. -/
lemma folder_eq_of_findIdx? {i : Nat} (hu : E.findIdx? (isFolder u.folder) = some i)
    (hv : E.findIdx? (isFolder v.folder) = some i) : u.folder = v.folder := by
  obtain ⟨_, hu, -⟩ := List.findIdx?_eq_some_iff_getElem.1 hu
  obtain ⟨_, hv, -⟩ := List.findIdx?_eq_some_iff_getElem.1 hv
  rw [isFolder_iff] at hu hv
  exact Option.some.inj (hu.symm.trans hv)

lemma settled_concat (E : List Json) (done : List Update) (u : Update) (i : Nat) :
    settled E (done ++ [u]) i =
      if E.findIdx? (isFolder u.folder) = some i then filled u ∘ settled E done i
      else settled E done i := by
  funext entry
  rw [settled, lastAt_concat]
  by_cases hu : E.findIdx? (isFolder u.folder) = some i
  · rw [if_pos hu, if_pos hu, Function.comp_apply, settled]
    cases hlast : lastAt E done i with
    | none => rfl
    | some v =>
      exact (filled_filled (folder_eq_of_findIdx? hu (findIdx?_of_lastAt hlast)) entry).symm
  · rw [if_neg hu, if_neg hu, settled]

lemma findIdx?_eq_of_map_eq {U : List Json} {p : Json → Bool} (h : U.map p = E.map p) :
    U.findIdx? p = E.findIdx? p := by
  have hU : (U.map p).findIdx? id = U.findIdx? p := List.findIdx?_map ..
  have hE : (E.map p).findIdx? id = E.findIdx? p := List.findIdx?_map ..
  rw [← hU, h, hE]

lemma newcomers_concat (E : List Json) (done : List Update) (u : Update) :
    newcomers E (done ++ [u]) =
      if E.any (isFolder u.folder) then newcomers E done
      else Table.put u.folder u.requests (newcomers E done) := by
  unfold newcomers
  rw [List.filter_append, List.map_append, Table.ofEntries, Table.ofEntries, Table.overlay,
    Table.overlay, List.foldl_append]
  cases h : E.any (isFolder u.folder) with
  | true => simp [h]
  | false => simp [h]

/-- New folders are updated like entries of a table. -/
lemma placed_newFolders {T : List (Text × List Json)}
    (hT : ∀ e ∈ T, ∃ v : Update, e = (v.folder, v.requests)) (u : Update) :
    placed u (T.map fun e => newFolder e.1 e.2) =
      (Table.put u.folder u.requests T).map fun e => newFolder e.1 e.2 := by
  induction T with
  | nil => rfl
  | cons e T ih =>
    obtain ⟨v, rfl⟩ := hT e (List.mem_cons_self ..)
    rw [List.map_cons, placed, Table.put, isFolder_newFolder]
    by_cases h : v.folder = u.folder
    · rw [if_pos (beq_iff_eq.2 h), if_pos h, filled_newFolder h.symm, List.map_cons, h]
    · rw [if_neg (by rwa [beq_iff_eq]), if_neg h, ih fun e he => hT e (List.mem_cons_of_mem _ he),
        List.map_cons]

lemma exists_of_mem_newcomers {e : Text × List Json} (h : e ∈ newcomers E done) :
    ∃ v : Update, e = (v.folder, v.requests) := by
  obtain ⟨v, -, heq⟩ := List.mem_map.1 (Table.mem_of_mem_ofEntries h)
  exact ⟨v, heq.symm⟩

/-- Updates do not change which entry is the folder of a module. -/
lemma map_isFolder_eq {U : List Json} (hU : ∀ i, U[i]? = E[i]?.map (settled E done i))
    (name : Text) : U.map (isFolder name) = E.map (isFolder name) := by
  refine List.ext_getElem? fun i => ?_
  rw [List.getElem?_map, List.getElem?_map, hU, Option.map_map]
  refine congrArg (Option.map · E[i]?) (funext fun entry => ?_)
  rw [Function.comp_apply, settled]
  split
  · exact isFolder_filled ..
  · rfl

/-- **An update keeps the description.** -/
theorem Placed.step (h : Placed E done entries) (u : Update) :
    Placed E (done ++ [u]) (placed u entries) := by
  obtain ⟨U, rfl, hU⟩ := h.split
  have hmap := map_isFolder_eq hU u.folder
  have hany : U.any (isFolder u.folder) = E.any (isFolder u.folder) := by
    have hU : (U.map (isFolder u.folder)).any id = U.any (isFolder u.folder) := List.any_map
    have hE : (E.map (isFolder u.folder)).any id = E.any (isFolder u.folder) := List.any_map
    rw [← hU, hmap, hE]
  have hfind := findIdx?_eq_of_map_eq hmap
  constructor
  rw [placed_append, newcomers_concat, hany]
  cases hfolder : E.any (isFolder u.folder) with
  | true =>
    refine ⟨placed u U, rfl, fun i => ?_⟩
    rw [getElem?_placed (by rw [hany, hfolder]), hfind, hU, settled_concat]
    by_cases hi : E.findIdx? (isFolder u.folder) = some i
    · rw [if_pos hi, if_pos hi, Option.map_map]
    · rw [if_neg hi, if_neg hi]
  | false =>
    have hnone : E.findIdx? (isFolder u.folder) = none := by
      rw [List.findIdx?_eq_none_iff]
      exact fun x hx => by simpa using List.any_eq_false.1 hfolder x hx
    refine ⟨U, ?_, fun i => ?_⟩
    · rw [if_neg Bool.false_ne_true, if_neg Bool.false_ne_true,
        placed_newFolders (fun e he => exists_of_mem_newcomers he)]
    · rw [hU, settled_concat, hnone, if_neg nofun]

end Scaffold.Collection
