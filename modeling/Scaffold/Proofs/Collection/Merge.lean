import Scaffold.Collection.Build
import Scaffold.Collection.Merge
import Scaffold.Proofs.Json.Reading

/-!
# Generated requests among the items of people

A merge keeps of the existing items those that bear none of the generated names, in their order
(`merge_requests`).  The generated names depend on the class only, so requests that were generated
earlier for the same class are always replaced, and a second merge finds the same items to keep
(`kept_append_kept`).
-/

namespace Scaffold.Collection

variable {n : Names} {fields fields' : List Field} {apiPrefix apiPrefix' : Text}

/-! ## The requests of a module -/

/-- The names of the requests of a module. -/
def requestNames (n : Names) : List Text :=
  ["Create " ++ n.className, "Get All " ++ n.className ++ "s", "Get " ++ n.className ++ " by ID",
    "Update " ++ n.className, "Delete " ++ n.className]

/-- The name of an object that is a text. -/
def textName? : Json → Option Text
  | .obj members =>
    match Json.Members.find? "name" members with
    | some (.str t) => some t
    | _ => none
  | _ => none

/-- Whether an item bears one of the names. -/
def isNamed (names : List Text) (item : Json) : Bool :=
  match textName? item with
  | some t => names.contains t
  | none => false

/-- The items that bear none of the names. -/
def kept (names : List Text) (items : List Json) : List Json := items.filter fun i => !isNamed names i

/-- **The names of generated requests** depend on the class only. -/
theorem map_textName?_requests (n : Names) (fields : List Field) (apiPrefix : Text) :
    (requests n fields apiPrefix).map textName? = (requestNames n).map some := rfl

lemma isNamed_of_mem_requests {item : Json} (h : item ∈ requests n fields apiPrefix) :
    isNamed (requestNames n) item = true := by
  have hname : textName? item ∈ (requestNames n).map some := by
    rw [← map_textName?_requests n fields apiPrefix]
    exact List.mem_map_of_mem h
  obtain ⟨t, ht, heq⟩ := List.mem_map.1 hname
  rw [isNamed, ← heq]
  exact List.contains_iff_mem.2 ht

lemma kept_requests (n : Names) (fields : List Field) (apiPrefix : Text) :
    kept (requestNames n) (requests n fields apiPrefix) = [] := by
  rw [kept, List.filter_eq_nil_iff]
  intro item hitem
  simp [isNamed_of_mem_requests hitem]

/-- Generated requests are replaced, and what was kept is kept. -/
lemma kept_append_kept (n : Names) (fields : List Field) (apiPrefix : Text) (items : List Json) :
    kept (requestNames n) (requests n fields apiPrefix ++ kept (requestNames n) items) =
      kept (requestNames n) items := by
  have hrequests := kept_requests n fields apiPrefix
  unfold kept at hrequests ⊢
  rw [List.filter_append, hrequests, List.nil_append, List.filter_filter]
  simp only [Bool.and_self]

/-! ## Merging -/

/-- Whether an item is not an object or has a name that is neither a list nor an object. -/
def hasPlainName : Json → Bool
  | .obj members =>
    match Json.Members.get "name" members with
    | .arr _ | .obj _ => false
    | _ => true
  | _ => true

lemma isReplaced_eq (names : List Text) {item : Json} (h : hasPlainName item = true) :
    isReplaced (names.map .str) item = .ok (isNamed names item) := by
  -- an item without a name in it is not taken for one of the new ones, which all have a name
  have hother : ∀ v : Json, (∀ t, v ≠ .str t) → ((names.map Json.str).any fun t => t.sameKey v) = false := by
    intro v hv
    rw [List.any_map, List.any_eq_false]
    intro t _
    cases v with
    | str u => exact absurd rfl (hv u)
    | _ => exact Bool.false_ne_true
  have htext : ∀ u : Text, ((names.map Json.str).any fun t => t.sameKey (.str u)) =
      names.contains u := by
    intro u
    rw [List.any_map, List.contains_eq_any_beq]
    exact congrArg (names.any ·) (funext fun t => Bool.beq_comm)
  cases item with
  | obj members =>
    simp only [isReplaced, isNamed, textName?, hasPlainName, Json.Members.get] at h ⊢
    cases hname : Json.Members.find? "name" members with
    | none => exact congrArg Except.ok (hother .null (by simp))
    | some v =>
      rw [hname] at h
      cases v with
      | str u => exact congrArg Except.ok (htext u)
      | arr items => cases h
      | obj ms => cases h
      | null => exact congrArg Except.ok (hother .null (by simp))
      | bool b => exact congrArg Except.ok (hother (.bool b) (by simp))
      | int i => exact congrArg Except.ok (hother (.int i) (by simp))
      | real x => exact congrArg Except.ok (hother (.real x) (by simp))
  | _ => rfl

lemma manualItems_eq (names : List Text) {items : List Json}
    (h : ∀ item ∈ items, hasPlainName item = true) :
    manualItems (names.map .str) items = .ok (kept names items) := by
  induction items with
  | nil => rfl
  | cons item items ih =>
    have hitem := isReplaced_eq names (h item (List.mem_cons_self ..))
    have hitems := ih fun i hi => h i (List.mem_cons_of_mem _ hi)
    have hcons : kept names (item :: items) =
        if isNamed names item then kept names items else item :: kept names items := by
      rw [kept, List.filter_cons, ← kept]
      cases isNamed names item <;> rfl
    rw [manualItems, hitem, hitems, hcons]
    rfl

/-- A name that is a list or an object cannot be compared with names. -/
lemma exists_isReplaced_eq (taken : List Json) {item : Json} (h : hasPlainName item = false) :
    ∃ kind, isReplaced taken item = .error (.notKey kind) := by
  cases item with
  | obj members =>
    rw [isReplaced]
    rw [hasPlainName] at h
    split at h
    · rename_i xs hname
      rw [hname]
      exact ⟨_, rfl⟩
    · rename_i ms hname
      rw [hname]
      exact ⟨_, rfl⟩
    · cases h
  | _ => cases h

lemma exists_manualItems_eq (names : List Text) {items : List Json}
    (h : items.all hasPlainName = false) :
    ∃ kind, manualItems (names.map .str) items = .error (.notKey kind) := by
  induction items with
  | nil => cases h
  | cons item items ih =>
    cases hitem : hasPlainName item with
    | false =>
      obtain ⟨kind, hreplaced⟩ := exists_isReplaced_eq (names.map .str) hitem
      refine ⟨kind, ?_⟩
      rw [manualItems, hreplaced]
      rfl
    | true =>
      rw [List.all_cons, hitem, Bool.true_and] at h
      obtain ⟨kind, hrest⟩ := ih h
      refine ⟨kind, ?_⟩
      rw [manualItems, isReplaced_eq names hitem, hrest]
      rfl

lemma mapM_nameKey_requests (n : Names) (fields : List Field) (apiPrefix : Text) :
    (requests n fields apiPrefix).mapM nameKey = .ok ((requestNames n).map .str) := rfl

/-- **A merge** puts the generated requests before the existing items that do not bear one of their
names. -/
theorem merge_requests (n : Names) (fields : List Field) (apiPrefix : Text) {items : List Json}
    (h : ∀ item ∈ items, hasPlainName item = true) :
    merge (.arr (requests n fields apiPrefix)) (.arr items) =
      .ok ⟨requests n fields apiPrefix, kept (requestNames n) items⟩ := by
  have hmanual := manualItems_eq (requestNames n) h
  simp only [merge, Json.sequence, bind, Except.bind, mapM_nameKey_requests, hmanual]
  rfl

/-- A merge with an item whose name is a list or an object fails. -/
lemma exists_merge_eq_error (n : Names) (fields : List Field) (apiPrefix : Text) {items : List Json}
    (h : items.all hasPlainName = false) :
    ∃ kind, merge (.arr (requests n fields apiPrefix)) (.arr items) = .error (.notKey kind) := by
  obtain ⟨kind, hmanual⟩ := exists_manualItems_eq (requestNames n) h
  refine ⟨kind, ?_⟩
  simp only [merge, Json.sequence, bind, Except.bind, mapM_nameKey_requests, hmanual]

end Scaffold.Collection
