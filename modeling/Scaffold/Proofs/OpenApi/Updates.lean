import Scaffold.Proofs.OpenApi.Modules

/-!
# References in a document that is updated again and again

The entries of one module are closed: each of its references leads to one of its own schemas.  Later
updates write over entries and add others, in the same two tables, and never remove a key.  So every
reference that any update wrote leads to a schema of the document after all updates, even if that is
the schema of another module by then.

What an update keeps is that every key written so far still holds an entry written by one of the
updates (`HoldsIn.overlay`); `references_resolve` follows from it over any sequence of updates.
-/

namespace Scaffold.OpenApi

/-- A module with its fields. -/
abbrev Update := Names × List Field

/-- Merges the entries of a module into a document. -/
def update (document : Json) (u : Update) : Except Misfit Json :=
  merge document (.obj (paths u.1)) (.obj (schemas u.1 u.2))

/-- The document after updates, one after another. -/
def updateAll (document : Json) : List Update → Except Misfit Json
  | [] => .ok document
  | u :: us =>
    match update document u with
    | .ok updated => updateAll updated us
    | .error e => .error e

/-- The paths that an update writes. -/
def pathEntries (u : Update) : Json.Members := paths u.1

/-- The schemas that an update writes. -/
def schemaEntries (u : Update) : Json.Members := schemas u.1 u.2

/-- One of the updates writes a value at a key of a table. -/
def Writes (entries : Update → Json.Members) (us : List Update) (key : Text) (v : Json) : Prop :=
  ∃ u ∈ us, Table.find? key (entries u) = some v

/-- Every key that one of the updates writes holds what one of them wrote. -/
def HoldsIn (entries : Update → Json.Members) (us : List Update) (table : Json.Members) : Prop :=
  ∀ key v, Writes entries us key v → ∃ v', Table.find? key table = some v' ∧ Writes entries us key v'

/-- A document that holds the entries of updates. -/
structure Holds (us : List Update) (document : Json) : Prop where
  paths : HoldsIn pathEntries us (pathsOf document)
  schemas : HoldsIn schemaEntries us (schemasOf document)

variable {document updated : Json} {u : Update} {us done : List Update} {t : Text}
  {entries : Update → Json.Members} {table : Json.Members}

lemma holdsIn_nil (entries : Update → Json.Members) (table : Json.Members) : HoldsIn entries [] table :=
  fun _ _ ⟨_, hu, _⟩ => absurd hu List.not_mem_nil

/-- An update writes its own entries and leaves the others. -/
lemma HoldsIn.overlay (h : HoldsIn entries done table) (hnodup : (Table.keys (entries u)).Nodup) :
    HoldsIn entries (done ++ [u]) (Table.overlay table (entries u)) := by
  intro key v hv
  rw [Table.find?_overlay_of_nodup hnodup]
  cases hown : Table.find? key (entries u) with
  | some own => exact ⟨own, rfl, u, by simp, hown⟩
  | none =>
    obtain ⟨w, hw, hfind⟩ := hv
    rcases List.mem_append.1 hw with hw | hw
    · obtain ⟨v', hfound, w', hw', hfind'⟩ := h key v ⟨w, hw, hfind⟩
      exact ⟨v', hfound, w', List.mem_append_left _ hw', hfind'⟩
    · obtain rfl := List.mem_singleton.1 hw
      rw [hown] at hfind
      cases hfind

/-- Updates succeed, and the document holds what they wrote. -/
lemma updateAll_ok (h : IsMergeable document) (hdone : Holds done document) (us : List Update) :
    ∃ final, updateAll document us = .ok final ∧ Holds (done ++ us) final := by
  induction us generalizing document done with
  | nil => exact ⟨document, rfl, by rwa [List.append_nil]⟩
  | cons u us ih =>
    obtain ⟨updated, hupdate, hdocument, hpaths, hschemas⟩ :=
      h.merge (OpenApi.paths u.1) (OpenApi.schemas u.1 u.2)
    have hheld : Holds (done ++ [u]) updated :=
      ⟨hpaths ▸ hdone.paths.overlay (nodup_keys_paths u.1),
        hschemas ▸ hdone.schemas.overlay (nodup_keys_schemas u.1 u.2)⟩
    obtain ⟨final, hfinal, hholds⟩ := ih hdocument.isMergeable hheld
    refine ⟨final, ?_, by rwa [← List.append_cons] at hholds⟩
    rw [updateAll, update, hupdate]
    exact hfinal

/-- What a module refers to is in a document that holds its entries. -/
lemma Holds.exists_schema (h : Holds us document) (hu : u ∈ us)
    (hcited : ∃ name schema, t = schemaRoot ++ name ∧
      Json.Members.find? name (OpenApi.schemas u.1 u.2) = some schema) :
    ∃ name schema, t = schemaRoot ++ name ∧ Table.find? name (schemasOf document) = some schema := by
  obtain ⟨name, schema, rfl, hfind⟩ := hcited
  obtain ⟨schema', hfound, -⟩ := h.schemas name schema ⟨u, hu, hfind⟩
  exact ⟨name, schema', rfl, hfound⟩

/-- **References resolve** after any sequence of updates of a document.  Every key that an update
writes holds an entry of one of the updates in the end, and every reference in any entry that they
wrote is to the place of a schema that the document has. -/
theorem references_resolve (h : IsMergeable document) (us : List Update) :
    ∃ final, updateAll document us = .ok final ∧ Holds us final ∧
      ∀ v, ((∃ path, Writes pathEntries us path v) ∨ ∃ name, Writes schemaEntries us name v) → ∀ t, Cites v t →
        ∃ name schema, t = schemaRoot ++ name ∧
          Table.find? name (schemasOf final) = some schema := by
  obtain ⟨final, hfinal, hholds⟩ := updateAll_ok h ⟨holdsIn_nil _ _, holdsIn_nil _ _⟩ us
  refine ⟨final, hfinal, hholds, fun v hv t hcites => ?_⟩
  rcases hv with ⟨path, u, hu, hfind⟩ | ⟨name, u, hu, hfind⟩
  · have hpaths : Cites (.obj (OpenApi.paths u.1)) t := .member (Table.mem_of_find? hfind) hcites
    exact hholds.exists_schema hu (exists_schema_of_cites_paths u.2 hpaths)
  · exact hholds.exists_schema hu (exists_schema_of_cites_schema hfind hcites)

/-- A document without paths and schemas, updated with orders, with invoices that have other items,
and with orders again. -/
theorem references_resolve_empty :
    let us : List Update := [(orderNames, itemsWith "sku"), (invoiceNames, itemsWith "code"),
      (orderNames, itemsWith "sku")]
    IsMergeable (.obj []) ∧ ∃ final, updateAll (.obj []) us = .ok final ∧ Holds us final ∧
      ∀ v, ((∃ path, Writes pathEntries us path v) ∨ ∃ name, Writes schemaEntries us name v) → ∀ t, Cites v t →
        ∃ name schema, t = schemaRoot ++ name ∧
          Table.find? name (schemasOf final) = some schema := by
  have hempty : IsMergeable (.obj []) := ⟨⟨[], rfl⟩, .inl rfl, .inl rfl⟩
  exact ⟨hempty, references_resolve hempty _⟩

end Scaffold.OpenApi
