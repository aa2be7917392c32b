import Scaffold.Proofs.Json.Reading

/-!
# Sound documents

A document that goes to the server and comes back has to be proper, and every number in it finite.
Both hold of a list or an object if they hold of its parts, so they are carried through every change
of a document together (`IsSound`).  For files the second half is not needed; there `strict` is
false.
-/

namespace Scaffold.Json

/-- A proper document, and with finite numbers only where that is asked for. -/
def IsSound (strict : Prop) (v : Json) : Prop := v.IsProper ∧ (strict → v.isFinite = true)

variable {strict : Prop} {key : Text} {value : Json} {members : Members} {items : List Json}

lemma areFinite_iff : areFinite items = true ↔ ∀ x ∈ items, x.isFinite = true := by
  induction items with
  | nil => simp [areFinite]
  | cons x xs ih => simp [areFinite, ih]

lemma membersAreFinite_iff :
    membersAreFinite members = true ↔ ∀ m ∈ members, m.2.isFinite = true := by
  induction members with
  | nil => simp [membersAreFinite]
  | cons m ms ih =>
    obtain ⟨k, x⟩ := m
    simp [membersAreFinite, ih]

@[simp] lemma isSound_str (t : Text) : IsSound strict (.str t) := ⟨trivial, fun _ => rfl⟩

@[simp] lemma isSound_bool (b : Bool) : IsSound strict (.bool b) := ⟨trivial, fun _ => rfl⟩

@[simp] lemma isSound_lit (s : String) : IsSound strict (lit s) := isSound_str _

lemma isSound_arr : IsSound strict (.arr items) ↔ ∀ x ∈ items, IsSound strict x := by
  simp only [IsSound, IsProper, isFinite, areProper_iff, areFinite_iff]
  constructor
  · rintro ⟨hproper, hfinite⟩ x hx
    exact ⟨hproper x hx, fun h => hfinite h x hx⟩
  · intro h
    exact ⟨fun x hx => (h x hx).1, fun hstrict x hx => (h x hx).2 hstrict⟩

lemma isSound_obj : IsSound strict (.obj members) ↔
    (Table.keys members).Nodup ∧ ∀ m ∈ members, IsSound strict m.2 := by
  simp only [IsSound, IsProper, isFinite, membersAreProper_iff, membersAreFinite_iff]
  constructor
  · rintro ⟨⟨hkeys, hproper⟩, hfinite⟩
    exact ⟨hkeys, fun m hm => ⟨hproper m hm, fun h => hfinite h m hm⟩⟩
  · rintro ⟨hkeys, h⟩
    exact ⟨⟨hkeys, fun m hm => (h m hm).1⟩, fun hstrict m hm => (h m hm).2 hstrict⟩

/-- An object with literal keys. -/
lemma isSound_object {ms : List (String × Json)} :
    IsSound strict (object ms) ↔
      (ms.map fun m => m.1.toList).Nodup ∧ ∀ m ∈ ms, IsSound strict m.2 := by
  rw [object, isSound_obj, Table.keys, List.map_map]
  refine and_congr Iff.rfl ⟨fun h m hm => h (m.1.toList, m.2) (List.mem_map_of_mem hm), ?_⟩
  intro h m hm
  obtain ⟨entry, hentry, rfl⟩ := List.mem_map.1 hm
  exact h entry hentry

@[simp] lemma isSound_strings (ts : List Text) : IsSound strict (strings ts) := by
  rw [strings, isSound_arr]
  intro x hx
  obtain ⟨t, -, rfl⟩ := List.mem_map.1 hx
  exact isSound_str t

lemma IsSound.put (h : IsSound strict (.obj members)) (hvalue : IsSound strict value) (key : Text) :
    IsSound strict (.obj (Members.put key value members)) := by
  rw [isSound_obj] at h ⊢
  refine ⟨Table.nodup_keys_put h.1 key value, fun m hm => ?_⟩
  rcases Table.mem_put hm with hm | rfl
  · exact h.2 m hm
  · exact hvalue

lemma IsSound.erase (h : IsSound strict (.obj members)) (key : Text) :
    IsSound strict (.obj (Members.erase key members)) := by
  rw [isSound_obj] at h ⊢
  have hsublist : (Members.erase key members).Sublist members := List.filter_sublist
  exact ⟨h.1.sublist (hsublist.map Prod.fst), fun m hm => h.2 m (hsublist.subset hm)⟩

lemma IsSound.find? (h : IsSound strict (.obj members))
    (hfind : Members.find? key members = some value) : IsSound strict value :=
  (isSound_obj.1 h).2 _ (Table.mem_of_find? hfind)

end Scaffold.Json
