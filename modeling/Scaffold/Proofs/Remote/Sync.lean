import Scaffold.Proofs.Collection.Sharing
import Scaffold.Remote.Client

/-!
# Syncing modules with the shared collection

The server answers with the collection of the last write.  Every sync fetches that collection,
changes it and writes it back (`runOn_updateFolder`); what it fetches is what was written because a
proper document is read back from its text.  So after any sequence of syncs, of any modules in any
order, the collection on the server is the initial one in the sense of `IsSynced`
(`shared_collection_is_kept`).

A collection with an infinite number in it can be fetched but not sent.  Such a sync fails and leaves
the server as it was, and the statement is about the syncs that succeed; with finite numbers these
are all.
-/

namespace Scaffold.Client

open Collection

variable {w : World} {members initial current : Json.Members} {u : Update}
  {calls done : List Update}

/-! ## One call -/

lemma isProper_collectionBody {v : Json} (h : v.IsProper) : (Remote.collectionBody v).IsProper :=
  ⟨List.nodup_singleton _, h, trivial⟩

/-- A collection comes back from the body of an answer. -/
lemma outcome_collectionBody (method : Method) (path : Text) {v : Json} (h : v.IsProper) :
    outcome method path (.response 200 (Remote.collectionBody v).compact) =
      .ok (Remote.collectionBody v) := by
  have hparse := Json.parse_compact (isProper_collectionBody h)
  have hbody : bodyDocument (Remote.collectionBody v).compact = .ok (Remote.collectionBody v) := by
    rw [← hparse]
    rfl
  rw [outcome, hbody]
  rfl

lemma runOn_send_get (c : Client) (hremote : w.remote = .store (.obj members)) (hproper : (Json.obj members).IsProper)
    (path : Text) (sent : Json) (body : Text) :
    ∃ w', (c.send .get path sent body).runOn w = (.ok (Remote.collectionBody (.obj members)), w') ∧
      w'.remote = .store (.obj members) := by
  have houtcome := outcome_collectionBody .get path hproper
  refine ⟨_, Prod.ext ?_ rfl, ?_⟩
  · simp only [send, Act.runOn_ofFunction, hremote, Remote.answer, houtcome]
    rfl
  · simp only [send, Act.runOn_ofFunction, hremote, Remote.answer]

lemma runOn_send_put (c : Client) {stored : Json} (hremote : w.remote = .store stored) (path : Text) {sent : Json}
    (hproper : sent.IsProper) (body : Text) :
    ∃ w', (c.send .put path sent body).runOn w = (.ok (Remote.collectionBody sent), w') ∧
      w'.remote = .store sent := by
  have houtcome := outcome_collectionBody .put path hproper
  refine ⟨_, Prod.ext ?_ rfl, ?_⟩
  · simp only [send, Act.runOn_ofFunction, hremote, Remote.answer, houtcome]
    rfl
  · simp only [send, Act.runOn_ofFunction, hremote, Remote.answer]

/-- Fetching returns the collection and leaves the server as it is. -/
lemma runOn_fetch (c : Client) (id : Text) (hremote : w.remote = .store (.obj members))
    (hproper : (Json.obj members).IsProper) :
    ∃ w', (c.fetch id).runOn w = (.ok members, w') ∧ w'.remote = .store (.obj members) := by
  obtain ⟨w', hsend, hw'⟩ := runOn_send_get c
    (w := { w with log := w.log ++ [⟨.info, .remote, "Fetching collection from Postman API: " ++ id⟩] })
    hremote hproper (collectionPath id) .null []
  refine ⟨w', ?_, hw'⟩
  rw [fetch, Act.runOn_bind, Act.runOn_say]
  simp only [Act.runOn_bind, hsend]
  rfl

/-- A collection is stored if all its numbers are finite; else the server is left as it is. -/
lemma runOn_store (c : Client) (id : Text) (members : Json.Members) {stored : Json} (hremote : w.remote = .store stored)
    (hproper : (Json.obj members).IsProper) :
    ∃ w', (c.store id members).runOn w =
        (if (Json.obj members).isFinite then .ok () else .error .infiniteNumber, w') ∧
      w'.remote = if (Json.obj members).isFinite then .store (.obj members) else w.remote := by
  have hfinite : (Remote.collectionBody (.obj members)).isFinite = (Json.obj members).isFinite :=
    Bool.and_true _
  rw [store]
  simp only [hfinite]
  cases (Json.obj members).isFinite with
  | true =>
    obtain ⟨w', hsend, hw'⟩ := runOn_send_put c hremote (collectionPath id) hproper
      (Remote.collectionBody (.obj members)).compact
    refine ⟨w', ?_, hw'⟩
    rw [if_pos rfl, Act.runOn_bind, hsend]
    rfl
  | false => exact ⟨w, rfl, rfl⟩

/-- Putting requests into the folder of a module does not reach the server. -/
lemma runOn_replaceFolder
    (hfolder : ∀ entry, (entries members).find? (isFolder u.folder) = some entry → IsMergeable entry)
    (w : World) :
    ∃ w', (replaceFolder (acceptVariables members) u.names.collectionFolder u.requests).runOn w =
        (.ok (synced u members), w') ∧ w'.remote = w.remote := by
  obtain ⟨merged?, hreplace⟩ := replaceFolder_eq hfolder
  have hreplace : Collection.replaceFolder (acceptVariables members) u.names.collectionFolder
      u.requests = .ok ⟨synced u members, merged?⟩ := hreplace
  refine ⟨_, Prod.ext ?_ rfl, ?_⟩
  · simp only [replaceFolder, Act.ofFit, Act.runOn_bind, Act.runOn_say, Act.runOn_ofExcept, hreplace]
    rfl
  · simp only [replaceFolder, Act.ofFit, Act.runOn_bind, Act.runOn_say, Act.runOn_ofExcept, hreplace]
    rfl

/-- **One sync** replaces the collection on the server by the changed one, unless it cannot be
sent. -/
theorem runOn_updateFolder (c : Client) (id : Text) (hremote : w.remote = .store (.obj members))
    (hproper : (Json.obj members).IsProper)
    (hfolder : ∀ entry, (entries members).find? (isFolder u.folder) = some entry → IsMergeable entry) :
    ∃ w', (c.updateFolder id u.names u.collection).runOn w =
        (if (Json.obj (synced u members)).isFinite then .ok (synced u members)
          else .error .infiniteNumber, w') ∧
      w'.remote =
        if (Json.obj (synced u members)).isFinite then .store (.obj (synced u members))
        else .store (.obj members) := by
  have hsound : Json.IsSound False (.obj (synced u members)) :=
    isSound_synced u ⟨hproper, False.elim⟩
  have hitems : Act.ofFit (do Json.sequence ((← u.collection.member? "item").getD (.arr []))) =
      Act.ofExcept (.ok u.requests) := rfl
  obtain ⟨w₁, hfetch, hw₁⟩ := runOn_fetch c id hremote hproper
  obtain ⟨w₂, hreplace, hw₂⟩ := runOn_replaceFolder hfolder
    { w₁ with log := w₁.log ++ acceptRecords members }
  obtain ⟨w₃, hstore, hw₃⟩ := runOn_store c id (synced u members)
    (w := { w₂ with log := w₂.log ++ [⟨.info, .remote, "Sending PUT request to Postman API..."⟩] })
    (hw₂.trans hw₁) hsound.1
  rw [updateFolder, hitems]
  simp only [Act.runOn_bind, hfetch, Act.runOn_say, Act.runOn_ofExcept, hreplace, hstore]
  cases hfinite : (Json.obj (synced u members)).isFinite with
  | true =>
    rw [hfinite] at hw₃
    exact ⟨_, rfl, hw₃⟩
  | false =>
    rw [hfinite] at hw₃
    exact ⟨w₃, rfl, hw₃.trans (hw₂.trans hw₁)⟩

/-! ## Any number of calls -/

/-- Syncs modules one after another and returns those whose sync succeeded. -/
def syncAll (c : Client) (id : Text) : List Update → Act (List Update)
  | [] => pure []
  | u :: calls => do
    let result ← Act.attempt (c.updateFolder id u.names u.collection)
    let done ← syncAll c id calls
    return if result.isOk then u :: done else done

lemma syncAll_cons (c : Client) (id : Text) {w₁ w₂ : World} {result : Except Failure Json.Members}
    (hcall : (c.updateFolder id u.names u.collection).runOn w = (result, w₁))
    (hrest : (syncAll c id calls).runOn w₁ = (.ok done, w₂)) :
    (syncAll c id (u :: calls)).runOn w =
      (.ok (if result.isOk then u :: done else done), w₂) := by
  rw [syncAll]
  simp only [Act.runOn_bind, Act.runOn_attempt, hcall, hrest]
  rfl

/-- The induction is on the calls, and what earlier calls did is a variable. -/
lemma runOn_syncAll {strict : Prop} (c : Client) (id : Text) (hremote : w.remote = .store (.obj current))
    (hsound : Json.IsSound strict (.obj current))
    (hfolders : ∀ u ∈ calls, ∀ entry, (entries current).find? (isFolder u.folder) = some entry →
      IsMergeable entry)
    (hprogress : Progress initial done current) :
    ∃ more final w', (syncAll c id calls).runOn w = (.ok more, w') ∧
      w'.remote = .store (.obj final) ∧ more.Sublist calls ∧ (strict → more = calls) ∧
      Progress initial (done ++ more) final := by
  induction calls generalizing w done current with
  | nil =>
    refine ⟨[], current, w, rfl, hremote, List.Sublist.refl _, fun _ => rfl, ?_⟩
    rwa [List.append_nil]
  | cons u calls ih =>
    obtain ⟨w₁, hcall, hw₁⟩ := runOn_updateFolder c id hremote hsound.1
      (hfolders u (List.mem_cons_self ..))
    cases hfinite : (Json.obj (synced u current)).isFinite with
    | true =>
      rw [hfinite, if_pos rfl] at hcall hw₁
      have hfolders' : ∀ v ∈ calls, ∀ entry,
          (entries (synced u current)).find? (isFolder v.folder) = some entry → IsMergeable entry := by
        intro v hv
        rw [entries_synced]
        exact isMergeable_placed u (hfolders v (List.mem_cons_of_mem _ hv))
      obtain ⟨more, final, w', hrest, hw', hsublist, hall, hfinal⟩ :=
        ih hw₁ (isSound_synced u hsound) hfolders' (hprogress.step u)
      refine ⟨u :: more, final, w', syncAll_cons c id hcall hrest, hw', hsublist.cons_cons u,
        fun h => by rw [hall h], ?_⟩
      rwa [List.append_assoc] at hfinal
    | false =>
      -- what is not finite is not sent, and the collection stays as it was
      rw [hfinite, if_neg Bool.false_ne_true] at hcall hw₁
      obtain ⟨more, final, w', hrest, hw', hsublist, hall, hfinal⟩ :=
        ih hw₁ hsound (fun v hv => hfolders v (List.mem_cons_of_mem _ hv)) hprogress
      refine ⟨more, final, w', syncAll_cons c id hcall hrest, hw', hsublist.cons u, fun h => ?_, hfinal⟩
      rw [(isSound_synced u hsound).2 h] at hfinite
      cases hfinite

/-- **What people have in the shared collection is kept**, whatever modules are synced with it, how
often and in what order: the collection on the server ends as `IsSynced` says.  Asked of the initial
collection are variables that are not null and, in the folders of the modules, items that can be
merged with. -/
theorem shared_collection_is_kept (c : Client) (id : Text) (calls : List Update)
    (hremote : w.remote = .store (.obj initial)) (hproper : (Json.obj initial).IsProper)
    (hvariable : Json.Members.find? "variable" initial ≠ some .null)
    (hfolders : ∀ u ∈ calls, ∀ entry, (entries initial).find? (isFolder u.folder) = some entry →
      IsMergeable entry) :
    ∃ done final w', (syncAll c id calls).runOn w = (.ok done, w') ∧
      w'.remote = .store (.obj final) ∧ done.Sublist calls ∧
      ((Json.obj initial).isFinite = true → done = calls) ∧ IsSynced initial done final := by
  have hsound : Json.IsSound ((Json.obj initial).isFinite = true) (.obj initial) := ⟨hproper, fun h => h⟩
  obtain ⟨done, final, w', hrun, hw', hsublist, hall, hprogress⟩ :=
    runOn_syncAll c id hremote hsound hfolders (Progress.nil initial)
  exact ⟨done, final, w', hrun, hw', hsublist, hall, hprogress.isSynced hvariable⟩

/-! ### An example -/

/-- A collection that people have worked on: a note between the folders, a folder with a stale
request and one of their own in it, a second folder of the same name, and variables of which one has
no key. -/
def sampleCollection : Json.Members :=
  [Json.member "info" (.object [("name", .lit "Shop")]),
    Json.member "item" (.arr [.lit "note",
      .object [("name", .lit "Order API"), ("description", .lit "by hand"),
        ("item", .arr [.object [("name", .lit "Create Order")], .object [("name", .lit "Smoke")]])],
      .object [("name", .lit "Order API"), ("item", .null)]]),
    Json.member "variable" (.arr [.object [("key", .lit "token"), ("type", .int 1)], .object []])]

/-- A sync of the orders with one field. -/
def orderUpdate : Update :=
  ⟨⟨"order", "Order", "order"⟩, [⟨"title", true, false, .scalar .string, []⟩], defaultApiPrefix⟩

/-- A sync of the users. -/
def userUpdate : Update := ⟨⟨"user", "User", "user"⟩, [], defaultApiPrefix⟩

/-- Orders, users and orders again are synced with a collection that knows the orders only. -/
theorem shared_collection_is_kept_shop :
    (Json.obj sampleCollection).IsProper ∧
      Json.Members.find? "variable" sampleCollection ≠ some .null ∧
      ∃ done final w', (syncAll ⟨"key", defaultAddress⟩ "shop" [orderUpdate, userUpdate, orderUpdate]).runOn
          ⟨⟨[], [], []⟩, .store (.obj sampleCollection), [], []⟩ = (.ok done, w') ∧
        w'.remote = .store (.obj final) ∧ done.Sublist [orderUpdate, userUpdate, orderUpdate] ∧
        ((Json.obj sampleCollection).isFinite = true →
          done = [orderUpdate, userUpdate, orderUpdate]) ∧
        IsSynced sampleCollection done final := by
  have hproper : (Json.obj sampleCollection).IsProper := by
    refine ⟨by decide, ?_⟩
    simp [sampleCollection, Json.member, Json.object, Json.lit, Json.IsProper, Json.AreProper,
      Json.MembersAreProper, Table.keys]
  have hvariable : Json.Members.find? "variable" sampleCollection ≠ some .null := fun h => by cases h
  have horder : ∀ entry, (entries sampleCollection).find? (isFolder orderUpdate.folder) = some entry →
      IsMergeable entry := by
    intro entry hfind
    obtain rfl := Option.some.inj hfind
    have hplain : [Json.object [("name", .lit "Create Order")], Json.object [("name", .lit "Smoke")]].all
        hasPlainName = true := rfl
    exact List.all_eq_true.1 hplain
  have huser : ∀ entry, (entries sampleCollection).find? (isFolder userUpdate.folder) = some entry →
      IsMergeable entry := fun _ h => by cases h
  refine ⟨hproper, hvariable, shared_collection_is_kept _ _ _ rfl hproper hvariable ?_⟩
  intro u hu
  simp only [List.mem_cons, List.not_mem_nil, or_false] at hu
  rcases hu with rfl | rfl | rfl
  · exact horder
  · exact huser
  · exact horder

end Scaffold.Client
