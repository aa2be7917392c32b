import Mathlib.Data.Set.List
import Scaffold.Proofs.Generation.Saving

/-!
# The files that a run over many modules keeps up to date

The files of all modules are request collections, which modules may share, and the one API document.
Each of them is kept up to date by upkeeps of one kind, so that what is known of one kind of document
alone makes all upkeeps together lawful (`lawful`): a second run changes none of the files.
-/

namespace Scaffold.Documentation

/-- A module whose documentation is kept up to date. -/
abbrev Module := Names × List Field

variable {s : Settings} {ms : List Module} {a b : Upkeep} {p : Path} {content : Option Bytes}

/-- What is written for a module. -/
def updateOf (s : Settings) (m : Module) : Collection.Update := ⟨m.1, m.2, s.apiPrefix⟩

/-- The upkeep of the request collection of a module. -/
def collectionUpkeep (s : Settings) (m : Module) : Upkeep :=
  Collection.upkeep (collectionFile s m.1) (updateOf s m)

/-- The upkeep of the API document for a module. -/
def documentUpkeep (s : Settings) (m : Module) : Upkeep :=
  OpenApi.upkeep s.documentPath (updateOf s m)

/-- The upkeeps of several modules. -/
def allUpkeeps (s : Settings) (ms : List Module) : List Upkeep :=
  (ms.map fun m => upkeeps s m.1 m.2).flatten

lemma mem_upkeeps_iff {m : Module} : a ∈ upkeeps s m.1 m.2 ↔
    s.updateCollection = true ∧ a = collectionUpkeep s m ∨
      s.updateDocument = true ∧ a = documentUpkeep s m := by
  unfold upkeeps
  cases s.updateCollection <;> cases s.updateDocument <;> simp [collectionUpkeep, documentUpkeep, updateOf]

/-- Every upkeep is of one of two kinds. -/
lemma mem_allUpkeeps_iff : a ∈ allUpkeeps s ms ↔
    s.updateCollection = true ∧ (∃ m ∈ ms, a = collectionUpkeep s m) ∨
      s.updateDocument = true ∧ ∃ m ∈ ms, a = documentUpkeep s m := by
  simp only [allUpkeeps, List.mem_flatten, List.mem_map, exists_exists_and_eq_and, mem_upkeeps_iff]
  constructor
  · rintro ⟨m, hm, ⟨hflag, ha⟩ | ⟨hflag, ha⟩⟩
    · exact .inl ⟨hflag, m, hm, ha⟩
    · exact .inr ⟨hflag, m, hm, ha⟩
  · rintro (⟨hflag, m, hm, ha⟩ | ⟨hflag, m, hm, ha⟩)
    · exact ⟨m, hm, .inl ⟨hflag, ha⟩⟩
    · exact ⟨m, hm, .inr ⟨hflag, ha⟩⟩

/-- The API document is no request collection. -/
def IsApart (s : Settings) (ms : List Module) : Prop :=
  s.updateCollection = true → s.updateDocument = true → ∀ m ∈ ms, collectionFile s m.1 ≠ s.documentPath

/-- A content that upkeeps of a file can be repeated on. -/
def IsGood (s : Settings) (p : Path) (content : Option Bytes) : Prop :=
  s.updateDocument = true → p = s.documentPath → OpenApi.MergesProperly content

/-- Upkeeps of one kind are a run over what they are made from. -/
lemma exists_contentAfter_eq {f : Collection.Update → Upkeep} {as : List Upkeep}
    (h : ∀ a ∈ as, a.path = p → ∃ u, a = f u) :
    ∃ us : List Collection.Update, ∀ c,
      Upkeep.contentAfter p as c = us.foldl (fun c u => (f u).after c) c := by
  have hrange : ∀ a ∈ as.filter (fun a => a.path = p), a ∈ Set.range f := by
    intro a ha
    obtain ⟨hmem, hp⟩ := List.mem_filter.1 ha
    obtain ⟨u, rfl⟩ := h a hmem (of_decide_eq_true hp)
    exact ⟨u, rfl⟩
  obtain ⟨us, hus⟩ : as.filter (fun a => a.path = p) ∈ Set.range (List.map f) := by
    rw [Set.range_list_map]
    exact hrange
  refine ⟨us, fun c => ?_⟩
  rw [Upkeep.contentAfter, ← hus, List.foldl_map]

section Laws

variable (hapart : IsApart s ms)

include hapart

/-- All upkeeps of the API document are of one kind. -/
lemma eq_documentUpkeep (hdocument : s.updateDocument = true) (ha : a ∈ allUpkeeps s ms)
    (hp : a.path = s.documentPath) : ∃ u, a = OpenApi.upkeep s.documentPath u := by
  rcases mem_allUpkeeps_iff.1 ha with ⟨hflag, m, hm, rfl⟩ | ⟨-, m, -, rfl⟩
  · exact absurd hp (hapart hflag hdocument m hm)
  · exact ⟨_, rfl⟩

omit hapart in
/-- All upkeeps of a request collection are of the other kind. -/
lemma eq_collectionUpkeep (hp : s.updateDocument = true → a.path ≠ s.documentPath)
    (ha : a ∈ allUpkeeps s ms) : ∃ u, a = Collection.upkeep a.path u := by
  rcases mem_allUpkeeps_iff.1 ha with ⟨-, m, -, rfl⟩ | ⟨hflag, m, -, rfl⟩
  · exact ⟨_, rfl⟩
  · exact absurd rfl (hp hflag)

/-- **All upkeeps together are lawful.** -/
theorem lawful : Upkeep.Lawful (allUpkeeps s ms) (IsGood s) where
  fresh a ha := by
    rcases mem_allUpkeeps_iff.1 ha with ⟨-, m, -, rfl⟩ | ⟨-, m, -, rfl⟩
    · rfl
    · exact OpenApi.isSome_next_none _ _
  good_none p _ _ := OpenApi.mergesProperly_none
  good_after a ha c hc hflag hp := by
    obtain ⟨u, rfl⟩ := eq_documentUpkeep hapart hflag ha hp
    exact OpenApi.mergesProperly_after _ u (hc hflag rfl)
  isSome_next a ha b hb hab c hc := by
    by_cases hkind : s.updateDocument = true ∧ a.path = s.documentPath
    · obtain ⟨hflag, hp⟩ := hkind
      obtain ⟨v, rfl⟩ := eq_documentUpkeep hapart hflag hb (hab ▸ hp)
      obtain ⟨u, rfl⟩ := eq_documentUpkeep hapart hflag ha hp
      exact OpenApi.isSome_next_after _ u v (hc hflag rfl)
    · have hp : s.updateDocument = true → a.path ≠ s.documentPath := fun h hp => hkind ⟨h, hp⟩
      obtain ⟨u, hu⟩ := eq_collectionUpkeep hp ha
      obtain ⟨v, hv⟩ := eq_collectionUpkeep (hab ▸ hp) hb
      rw [hu, hv, Collection.isSome_next, Collection.isSome_next, Collection.canMerge_after]
  again p c hc := by
    by_cases hkind : s.updateDocument = true ∧ p = s.documentPath
    · obtain ⟨hflag, rfl⟩ := hkind
      have hdocument : ∀ a ∈ allUpkeeps s ms, a.path = s.documentPath →
          ∃ u, a = OpenApi.upkeep s.documentPath u :=
        fun a ha hp => eq_documentUpkeep hapart hflag ha hp
      obtain ⟨us, hus⟩ := exists_contentAfter_eq hdocument
      rw [hus, hus]
      exact OpenApi.contentAfter_contentAfter _ us (hc hflag rfl)
    · have hcollection : ∀ a ∈ allUpkeeps s ms, a.path = p → ∃ u, a = Collection.upkeep p u := by
        rintro a ha rfl
        exact eq_collectionUpkeep (fun h hp => hkind ⟨h, hp⟩) ha
      obtain ⟨us, hus⟩ := exists_contentAfter_eq hcollection
      rw [hus, hus]
      exact Collection.contentAfter_contentAfter p us c

end Laws

end Scaffold.Documentation
