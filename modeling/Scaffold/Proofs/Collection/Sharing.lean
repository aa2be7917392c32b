import Scaffold.Proofs.Collection.Folders
import Scaffold.Proofs.Json.Sound

/-!
# The shared collection

A sync of a module changes two members of the shared collection: the variables are made acceptable
and the requests of the module are put into its folder (`synced`).  After any number of syncs the
collection is still the one that people had, in the sense of `IsSynced`: what they own is there, and
what is generated is what the last sync of each module generated.

Making variables acceptable twice is the same as doing it once (`acceptedMember_acceptedMember`), and
for the folders there is `Placed.step`; so one sync keeps the description (`Progress.step`).
-/

namespace Scaffold.Collection

variable {u : Update} {done : List Update} {initial current members : Json.Members} {entry : Json}

/-! ## Variables -/

/-- A variable that the service accepts. -/
def IsAccepted (entry : Json) : Prop :=
  ∃ members, entry = .obj members ∧ (Json.Members.get "key" members).isTruthy = true ∧
    ∃ t, Json.Members.find? "type" members = some (.str t) ∧ Text.lower t ∈ variableTypes

/-- The list of variables after they were made acceptable; without any left there is no list. -/
def acceptedMember : Option Json → Option Json
  | none => none
  | some .null => some .null
  | some listed =>
    match (variableEntries listed).filterMap acceptedVariable? with
    | [] => none
    | v :: vs => some (.arr (v :: vs))

lemma isAccepted_of_acceptedVariable? {entry v : Json} (h : acceptedVariable? entry = some v) :
    IsAccepted v := by
  unfold acceptedVariable? at h
  -- replacing the type leaves the key
  have hreplaced : ∀ members : Json.Members, (Json.Members.get "key" members).isTruthy = true →
      IsAccepted (.obj (Json.Members.put "type" (.lit "string") members)) := by
    intro members hkey
    refine ⟨_, rfl, ?_, "string".toList, Table.find?_put_self' .., by decide⟩
    have hother : Json.Members.find? "key" (Json.Members.put "type" (.lit "string") members) =
        Json.Members.find? "key" members := by
      unfold Json.Members.find? Json.Members.put
      rw [Table.find?_put, if_neg (by decide)]
    rwa [Json.Members.get, hother]
  split at h
  · rename_i members
    split at h
    · rename_i hkey
      split at h
      · rename_i t ht
        split at h
        · rename_i hmem
          obtain rfl := Option.some.inj h
          exact ⟨members, rfl, hkey, t, ht, hmem⟩
        · obtain rfl := Option.some.inj h
          exact hreplaced members hkey
      · obtain rfl := Option.some.inj h
        exact hreplaced members hkey
    · cases h
  · cases h

/-- An acceptable variable is not changed. -/
lemma acceptedVariable?_of_isAccepted {v : Json} (h : IsAccepted v) :
    acceptedVariable? v = some v := by
  obtain ⟨members, rfl, hkey, t, ht, hmem⟩ := h
  simp only [acceptedVariable?, hkey, ht, hmem, if_true]

lemma filterMap_acceptedVariable? {vs : List Json} (h : ∀ v ∈ vs, IsAccepted v) :
    vs.filterMap acceptedVariable? = vs := by
  have hsome : vs.filterMap acceptedVariable? = vs.filterMap some :=
    List.filterMap_congr fun v hv => acceptedVariable?_of_isAccepted (h v hv)
  rw [hsome, List.filterMap_some]

/-- What is left of a list of variables. -/
lemma exists_of_acceptedMember {found : Option Json} {v : Json} (hnull : found ≠ some .null)
    (h : acceptedMember found = some v) :
    ∃ vs, v = .arr vs ∧ vs ≠ [] ∧ ∀ entry ∈ vs, IsAccepted entry := by
  unfold acceptedMember at h
  split at h
  · cases h
  · exact absurd rfl hnull
  · rename_i listed _
    split at h
    · cases h
    · rename_i first rest hlist
      obtain rfl := Option.some.inj h
      refine ⟨_, rfl, List.cons_ne_nil _ _, fun entry hentry => ?_⟩
      rw [← hlist] at hentry
      obtain ⟨before, -, hbefore⟩ := List.mem_filterMap.1 hentry
      exact isAccepted_of_acceptedVariable? hbefore

/-- **Making variables acceptable** a second time changes nothing. -/
lemma acceptedMember_acceptedMember (found : Option Json) :
    acceptedMember (acceptedMember found) = acceptedMember found := by
  by_cases hnull : found = some .null
  · rw [hnull]
    rfl
  · cases h : acceptedMember found with
    | none => rfl
    | some v =>
      obtain ⟨vs, rfl, hne, haccepted⟩ := exists_of_acceptedMember hnull h
      obtain ⟨first, rest, rfl⟩ := List.exists_cons_of_ne_nil hne
      have hkept := filterMap_acceptedVariable? haccepted
      simp only [acceptedMember, variableEntries, hkept]

lemma find?_erase (key other : Text) (members : Json.Members) :
    Json.Members.find? other (Json.Members.erase key members) =
      if key = other then none else Json.Members.find? other members := by
  unfold Json.Members.find? Json.Members.erase
  exact Table.find?_erase key other members

/-- What making the variables of a collection acceptable does to its members. -/
lemma find?_acceptVariables (key : Text) (members : Json.Members) :
    Json.Members.find? key (acceptVariables members) =
      if key = "variable".toList then acceptedMember (Json.Members.find? "variable" members)
      else Json.Members.find? key members := by
  have hsame : acceptedMember (Json.Members.find? "variable" members) =
      Json.Members.find? "variable" members →
      Json.Members.find? key members =
        if key = "variable".toList then acceptedMember (Json.Members.find? "variable" members)
        else Json.Members.find? key members := by
    intro h
    split
    · rename_i hkey
      rw [h, hkey]
    · rfl
  unfold acceptVariables
  split
  · rename_i hfind
    exact hsame (by rw [hfind]; rfl)
  · rename_i hfind
    exact hsame (by rw [hfind]; rfl)
  · rename_i listed hnull hfind
    rw [hfind, acceptedMember.eq_def]
    split
    · rename_i hnone
      rw [find?_erase]
      simp only [hnone, eq_comm (a := key)]
    · rename_i first rest hlist
      have hput := Table.find?_put "variable".toList key (Json.arr (first :: rest)) members
      simp only [hlist, eq_comm (a := key)]
      exact hput

/-! ## One sync -/

/-- A collection after a sync of a module. -/
def synced (u : Update) (members : Json.Members) : Json.Members :=
  Json.Members.put "item" (.arr (placed u (entries members))) (acceptVariables members)

lemma entries_acceptVariables (members : Json.Members) :
    entries (acceptVariables members) = entries members := by
  rw [entries, entries, find?_acceptVariables, if_neg (by decide)]

lemma find?_synced (key : Text) (u : Update) (members : Json.Members) :
    Json.Members.find? key (synced u members) =
      if key = "item".toList then some (.arr (placed u (entries members)))
      else if key = "variable".toList then acceptedMember (Json.Members.find? "variable" members)
      else Json.Members.find? key members := by
  rw [← find?_acceptVariables]
  have hput := Table.find?_put "item".toList key (Json.arr (placed u (entries members)))
    (acceptVariables members)
  simp only [eq_comm (a := key)]
  exact hput

lemma entries_synced (u : Update) (members : Json.Members) :
    entries (synced u members) = placed u (entries members) := by
  rw [entries, find?_synced, if_pos rfl]

/-- The folder of a module is replaced in an accepted collection. -/
lemma replaceFolder_eq
    (h : ∀ entry, (entries members).find? (isFolder u.folder) = some entry → IsMergeable entry) :
    ∃ merged?, replaceFolder (acceptVariables members) u.folder u.requests =
      .ok ⟨synced u members, merged?⟩ := by
  obtain ⟨merged?, hreplace⟩ := replaceIn_eq h
  refine ⟨merged?, ?_⟩
  rw [replaceFolder, entries_acceptVariables, hreplace]
  rfl

/-! ### What can be merged with stays so -/

lemma hasPlainName_of_mem_requests {item : Json} (h : item ∈ u.requests) :
    hasPlainName item = true := by
  have hall : u.requests.all hasPlainName = true := rfl
  exact List.all_eq_true.1 hall item h

lemma isMergeable_filled (u : Update) (h : IsMergeable entry) : IsMergeable (filled u entry) := by
  cases entry with
  | obj members =>
    have hitem : Json.Members.find? "item" (filledMembers u members) =
        some (.arr (u.requests ++ kept (requestNames u.names) (folderItems members))) :=
      Table.find?_put_self' ..
    show AreMergeable (Json.Members.find? "item" (filledMembers u members))
    rw [hitem]
    intro item hmem
    rcases List.mem_append.1 hmem with hmem | hmem
    · exact hasPlainName_of_mem_requests hmem
    · exact (orEmptyList_eq h).2 item (List.mem_of_mem_filter hmem)
  | _ => exact h

lemma isMergeable_newFolder (u : Update) : IsMergeable (newFolder u.folder u.requests) := by
  intro item hmem
  exact hasPlainName_of_mem_requests hmem

lemma isMergeable_placed {name : Text} (u : Update) {E : List Json}
    (h : ∀ entry, E.find? (isFolder name) = some entry → IsMergeable entry) :
    ∀ entry, (placed u E).find? (isFolder name) = some entry → IsMergeable entry := by
  induction E with
  | nil =>
    intro entry hfind
    obtain rfl := List.mem_singleton.1 (List.mem_of_find?_eq_some hfind)
    exact isMergeable_newFolder u
  | cons first rest ih =>
    intro entry hfind
    rw [placed] at hfind
    split at hfind
    · by_cases hfirst : isFolder name first = true
      · rw [List.find?_cons_of_pos (by rwa [isFolder_filled])] at hfind
        obtain rfl := Option.some.inj hfind
        exact isMergeable_filled u (h first (List.find?_cons_of_pos hfirst))
      · rw [List.find?_cons_of_neg (by rwa [isFolder_filled])] at hfind
        exact h entry (by rwa [List.find?_cons_of_neg hfirst])
    · by_cases hfirst : isFolder name first = true
      · rw [List.find?_cons_of_pos hfirst] at hfind
        exact h entry (by rwa [List.find?_cons_of_pos hfirst])
      · rw [List.find?_cons_of_neg hfirst] at hfind
        exact ih (fun e he => h e (by rwa [List.find?_cons_of_neg hfirst])) entry hfind

/-! ### What is sound stays so -/

section Sound

variable {strict : Prop}

open Json

lemma isSound_url (apiPrefix folder : Text) (withId : Bool) :
    IsSound strict (url apiPrefix folder withId) := by
  simp [url, isSound_object]

lemma isSound_bodyRequest (name : Text) (method : String) (body : Members) {address : Json}
    (h : IsSound strict address) (script : List Text) :
    IsSound strict (bodyRequest name method body address script) := by
  simp [bodyRequest, documentHeader, documentBody, beforeRequest, isSound_object, isSound_arr, h]

lemma isSound_plainRequest (name : Text) (method : String) {address : Json}
    (h : IsSound strict address) : IsSound strict (plainRequest name method address) := by
  simp [plainRequest, isSound_object, isSound_arr, h]

lemma isSound_of_mem_requests {n : Names} {fields : List Field} {apiPrefix : Text} {item : Json}
    (h : item ∈ requests n fields apiPrefix) : IsSound strict item := by
  have hurl : ∀ withId, IsSound strict (url apiPrefix n.folder withId) := isSound_url _ _
  simp only [requests, List.mem_cons, List.not_mem_nil, or_false] at h
  rcases h with rfl | rfl | rfl | rfl | rfl
  · exact isSound_bodyRequest _ _ _ (hurl false) _
  · exact isSound_plainRequest _ _ (hurl false)
  · exact isSound_plainRequest _ _ (hurl true)
  · exact isSound_bodyRequest _ _ _ (hurl true) _
  · exact isSound_plainRequest _ _ (hurl true)

lemma isSound_filled (u : Update) (h : IsSound strict entry) : IsSound strict (filled u entry) := by
  cases entry with
  | obj members =>
    refine IsSound.put h (isSound_arr.2 fun item hitem => ?_) _
    rcases List.mem_append.1 hitem with hitem | hitem
    · exact isSound_of_mem_requests hitem
    · have hmem : item ∈ folderItems members := List.mem_of_mem_filter hitem
      unfold folderItems at hmem
      split at hmem
      · rename_i items hfind
        exact isSound_arr.1 (h.find? hfind) item hmem
      · cases hmem
  | _ => exact h

lemma isSound_newFolder (u : Update) : IsSound strict (newFolder u.folder u.requests) := by
  have hitems : IsSound strict (.arr u.requests) :=
    isSound_arr.2 fun item hitem => isSound_of_mem_requests hitem
  simp [newFolder, isSound_object, hitems]

lemma isSound_placed (u : Update) {E : List Json} (h : ∀ e ∈ E, IsSound strict e) :
    ∀ e ∈ placed u E, IsSound strict e := by
  induction E with
  | nil =>
    intro e he
    obtain rfl := List.mem_singleton.1 he
    exact isSound_newFolder u
  | cons first rest ih =>
    have hfirst := h first (List.mem_cons_self ..)
    have hrest : ∀ e ∈ rest, IsSound strict e := fun e he => h e (List.mem_cons_of_mem _ he)
    rw [placed]
    split
    · exact List.forall_mem_cons.2 ⟨isSound_filled u hfirst, hrest⟩
    · exact List.forall_mem_cons.2 ⟨hfirst, ih hrest⟩

lemma isSound_of_mem_entries (h : IsSound strict (.obj members)) :
    ∀ e ∈ entries members, IsSound strict e := by
  unfold entries
  split
  · rename_i items hfind
    exact isSound_arr.1 (h.find? hfind)
  · exact fun e he => absurd he List.not_mem_nil

lemma isSound_acceptedVariable? {v : Json} (h : IsSound strict entry)
    (hv : acceptedVariable? entry = some v) : IsSound strict v := by
  unfold acceptedVariable? at hv
  split at hv
  · rename_i members
    split at hv
    · split at hv
      · split at hv
        · obtain rfl := Option.some.inj hv
          exact h
        · obtain rfl := Option.some.inj hv
          exact h.put (isSound_lit _) _
      · obtain rfl := Option.some.inj hv
        exact h.put (isSound_lit _) _
    · cases hv
  · cases hv

lemma isSound_acceptVariables (h : IsSound strict (.obj members)) :
    IsSound strict (.obj (acceptVariables members)) := by
  unfold acceptVariables
  split
  · exact h
  · exact h
  · rename_i listed _ hfind
    split
    · exact h.erase _
    · rename_i first rest hlist
      refine h.put (isSound_arr.2 fun v hv => ?_) _
      rw [← hlist] at hv
      obtain ⟨before, hmem, haccepted⟩ := List.mem_filterMap.1 hv
      have hlisted := h.find? hfind
      cases listed with
      | arr items => exact isSound_acceptedVariable? (isSound_arr.1 hlisted before hmem) haccepted
      | _ => cases hmem

theorem isSound_synced (u : Update) (h : IsSound strict (.obj members)) :
    IsSound strict (.obj (synced u members)) :=
  (isSound_acceptVariables h).put (isSound_arr.2 (isSound_placed u (isSound_of_mem_entries h))) _

end Sound

/-! ## Any number of syncs -/

/-- What a collection is after syncs of modules, in terms of what it was at first. -/
structure IsSynced (initial : Json.Members) (done : List Update) (final : Json.Members) : Prop where
  /-- Without a sync nothing changes. -/
  nothing : done = [] → final = initial
  /-- Members other than the two that syncs are about are unchanged. -/
  others : ∀ key, key ≠ "item".toList → key ≠ "variable".toList →
    Json.Members.find? key final = Json.Members.find? key initial
  /-- The entries are what they are listed as. -/
  listed : done ≠ [] → Json.Members.find? "item" final = some (.arr (entries final))
  /-- An entry that is not the folder of a synced module, which is the first of its name, stays at
  its place as it was. -/
  unchanged : ∀ i entry, (entries initial)[i]? = some entry →
    (∀ u ∈ done, (entries initial).findIdx? (isFolder u.folder) ≠ some i) →
    (entries final)[i]? = some entry
  /-- The folder of a synced module stays at its place and keeps its members; its items are the
  requests of the last sync, and behind them what it held that bears none of their names. -/
  folder : ∀ before u after, done = before ++ u :: after → (∀ v ∈ after, v.folder ≠ u.folder) →
    ∀ i members, (entries initial).findIdx? (isFolder u.folder) = some i →
      (entries initial)[i]? = some (.obj members) →
      (entries final)[i]? = some (.obj (Json.Members.put "item"
        (.arr (u.requests ++ kept (requestNames u.names) (folderItems members))) members))
  /-- Behind the entries that were there follow the folders of the other synced modules, in the order
  of their first syncs, with the requests of their last ones. -/
  added : (entries final).drop (entries initial).length =
    (newcomers (entries initial) done).map fun e => newFolder e.1 e.2
  /-- The variables are those that were there, made acceptable. -/
  variableList : done ≠ [] →
    Json.Members.find? "variable" final = acceptedMember (Json.Members.find? "variable" initial)
  /-- The variables are absent, or a list with something in it that the service accepts. -/
  accepted : done ≠ [] → ∀ v, Json.Members.find? "variable" final = some v →
    ∃ vs, v = .arr vs ∧ vs ≠ [] ∧ ∀ entry ∈ vs, IsAccepted entry

/-- What one sync after another keeps. -/
structure Progress (initial : Json.Members) (done : List Update) (current : Json.Members) : Prop where
  nothing : done = [] → current = initial
  others : ∀ key, key ≠ "item".toList → key ≠ "variable".toList →
    Json.Members.find? key current = Json.Members.find? key initial
  listed : done ≠ [] → Json.Members.find? "item" current = some (.arr (entries current))
  placed : Placed (entries initial) done (entries current)
  variableList : done ≠ [] →
    Json.Members.find? "variable" current = acceptedMember (Json.Members.find? "variable" initial)

lemma Progress.nil (initial : Json.Members) : Progress initial [] initial where
  nothing _ := rfl
  others _ _ _ := rfl
  listed h := absurd rfl h
  placed := Placed.nil _
  variableList h := absurd rfl h

/-- **One sync** keeps what is known of the collection. -/
theorem Progress.step (h : Progress initial done current) (u : Update) :
    Progress initial (done ++ [u]) (synced u current) where
  nothing hnil := absurd hnil (by simp)
  others key hitem hvariable := by
    rw [find?_synced, if_neg hitem, if_neg hvariable, h.others key hitem hvariable]
  listed _ := by rw [entries_synced, find?_synced, if_pos rfl]
  placed := by
    rw [entries_synced]
    exact h.placed.step u
  variableList _ := by
    rw [find?_synced, if_neg (by decide), if_pos rfl]
    by_cases hdone : done = []
    · rw [h.nothing hdone]
    · rw [h.variableList hdone, acceptedMember_acceptedMember]

/-! ### What the description says of each entry -/

lemma length_eq_of_getElem? {U E : List Json} {f : Nat → Json → Json}
    (h : ∀ i, U[i]? = E[i]?.map (f i)) : U.length = E.length := by
  have hiff : ∀ i, U.length ≤ i ↔ E.length ≤ i := by
    intro i
    rw [← List.getElem?_eq_none_iff, ← List.getElem?_eq_none_iff, h, Option.map_eq_none_iff]
  exact le_antisymm ((hiff _).2 le_rfl) ((hiff _).1 le_rfl)

lemma Placed.drop {E entries : List Json} (h : Placed E done entries) :
    entries.drop E.length = (newcomers E done).map fun e => newFolder e.1 e.2 := by
  obtain ⟨U, rfl, hU⟩ := h.split
  rw [← length_eq_of_getElem? hU, List.drop_left]

lemma Placed.getElem? {E entries : List Json} (h : Placed E done entries) {i : Nat}
    (hi : E[i]? = some entry) : entries[i]? = some (settled E done i entry) := by
  obtain ⟨U, rfl, hU⟩ := h.split
  have hsettled : U[i]? = some (settled E done i entry) := by rw [hU, hi, Option.map_some]
  rw [List.getElem?_append_left (List.getElem?_eq_some_iff.1 hsettled).1, hsettled]

lemma lastAt_eq_some {E : List Json} {before after : List Update} {i : Nat}
    (hu : E.findIdx? (isFolder u.folder) = some i) (hlast : ∀ v ∈ after, v.folder ≠ u.folder) :
    lastAt E (before ++ u :: after) i = some u := by
  have hafter : after.reverse.find? (fun v => E.findIdx? (isFolder v.folder) = some i) = none := by
    rw [List.find?_eq_none]
    intro v hv hfound
    exact hlast v (List.mem_reverse.1 hv) (folder_eq_of_findIdx? (of_decide_eq_true hfound) hu)
  rw [lastAt, List.reverse_append, List.reverse_cons, List.append_assoc, List.find?_append, hafter,
    Option.none_or, List.singleton_append, List.find?_cons_of_pos (by simpa using hu)]

theorem Progress.isSynced (h : Progress initial done current)
    (hnull : Json.Members.find? "variable" initial ≠ some .null) : IsSynced initial done current where
  nothing := h.nothing
  others := h.others
  listed := h.listed
  unchanged i entry hentry hother := by
    have hnone : lastAt (entries initial) done i = none := by
      rw [lastAt, List.find?_eq_none]
      intro u hu hfound
      exact hother u (List.mem_reverse.1 hu) (of_decide_eq_true hfound)
    rw [h.placed.getElem? hentry, settled, hnone]
  folder before u after hdone hlast i members hfolder hmembers := by
    rw [h.placed.getElem? hmembers, settled, hdone, lastAt_eq_some hfolder hlast]
    rfl
  added := h.placed.drop
  variableList := h.variableList
  accepted hdone v hv := exists_of_acceptedMember hnull ((h.variableList hdone).symm.trans hv)

end Scaffold.Collection
