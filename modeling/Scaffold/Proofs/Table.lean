import Mathlib.Data.List.Nodup
import Mathlib.Tactic.Common
import Scaffold.Table

/-!
# Looking up what was written

A table made from entries holds for every key the value that was written last (`find?_ofEntries`).
With distinct keys, that is the value of the one entry with the key (`find?_ofEntries_of_mem`).
-/

namespace Scaffold.Table

variable {α β : Type} [DecidableEq α] {key : α} {value : β} {t es : List (α × β)}

lemma find?_eq_none_of_not_mem (h : key ∉ keys t) : find? key t = none := by
  induction t with
  | nil => rfl
  | cons e t ih =>
    obtain ⟨k, v⟩ := e
    simp only [keys, List.map_cons, List.mem_cons, not_or] at h
    rw [find?, if_neg fun hk => h.1 hk.symm]
    exact ih h.2

lemma mem_of_find? (h : find? key t = some value) : (key, value) ∈ t := by
  induction t with
  | nil => cases h
  | cons e t ih =>
    obtain ⟨k, v⟩ := e
    rw [find?] at h
    split at h
    · rename_i hk
      obtain rfl : v = value := Option.some.inj h
      rw [hk]
      exact List.mem_cons_self ..
    · exact List.mem_cons_of_mem _ (ih h)

lemma find?_of_mem (h : (keys t).Nodup) (hmem : (key, value) ∈ t) : find? key t = some value := by
  induction t with
  | nil => cases hmem
  | cons e t ih =>
    obtain ⟨k, v⟩ := e
    rw [keys, List.map_cons, List.nodup_cons] at h
    rw [find?]
    rcases List.mem_cons.1 hmem with heq | hmem
    · obtain ⟨rfl, rfl⟩ := Prod.mk.inj heq
      rw [if_pos rfl]
    · have hne : k ≠ key := by
        rintro rfl
        exact h.1 (List.mem_map.2 ⟨_, hmem, rfl⟩)
      rw [if_neg hne, ih h.2 hmem]

lemma find?_overlay (key : α) (t es : List (α × β)) :
    find? key (overlay t es) = (find? key es.reverse).or (find? key t) := by
  induction es generalizing t with
  | nil => rfl
  | cons e es ih =>
    obtain ⟨k, v⟩ := e
    rw [overlay, List.foldl_cons, ← overlay, ih, find?_put, List.reverse_cons, find?_append, Option.or_assoc]
    congr 1
    rw [find?]
    split
    · rfl
    · rfl

lemma find?_reverse (h : (keys t).Nodup) (key : α) : find? key t.reverse = find? key t := by
  have hreverse : (keys t.reverse).Nodup := by
    rw [keys, List.map_reverse, List.nodup_reverse]
    exact h
  cases hfind : find? key t with
  | some v => exact find?_of_mem hreverse (List.mem_reverse.2 (mem_of_find? hfind))
  | none =>
    cases hfound : find? key t.reverse with
    | none => rfl
    | some v =>
      rw [find?_of_mem h (List.mem_reverse.1 (mem_of_find? hfound))] at hfind
      cases hfind

/-- Entries with distinct keys are found over those of the table they are written over. -/
lemma find?_overlay_of_nodup (h : (keys es).Nodup) (key : α) (t : List (α × β)) :
    find? key (overlay t es) = (find? key es).or (find? key t) := by
  rw [find?_overlay, find?_reverse h]

/-- **The last entry** with a key counts. -/
theorem find?_ofEntries (key : α) (es : List (α × β)) :
    find? key (ofEntries es) = find? key es.reverse := by
  rw [ofEntries, find?_overlay, find?_nil, Option.or_none]

lemma find?_ofEntries_of_mem (h : (keys es).Nodup) (hmem : (key, value) ∈ es) :
    find? key (ofEntries es) = some value := by
  rw [find?_ofEntries]
  refine find?_of_mem ?_ (List.mem_reverse.2 hmem)
  rw [keys, List.map_reverse, List.nodup_reverse]
  exact h

lemma exists_find?_of_mem_keys (h : key ∈ keys t) : ∃ v, find? key t = some v := by
  induction t with
  | nil => cases h
  | cons e t ih =>
    obtain ⟨k, v⟩ := e
    rw [find?]
    split
    · exact ⟨v, rfl⟩
    · rename_i hne
      rcases List.mem_cons.1 h with heq | h
      · exact absurd heq.symm hne
      · exact ih h

lemma exists_find?_ofEntries (h : key ∈ keys es) : ∃ v, find? key (ofEntries es) = some v := by
  rw [find?_ofEntries]
  refine exists_find?_of_mem_keys ?_
  rw [keys, List.map_reverse, List.mem_reverse]
  exact h

lemma mem_keys_overlay (h : key ∈ keys (overlay t es)) : key ∈ keys t ∨ key ∈ keys es := by
  induction es generalizing t with
  | nil => exact .inl h
  | cons e es ih =>
    have hcons : key ∈ keys (e :: es) ↔ key = e.1 ∨ key ∈ keys es := List.mem_cons
    rw [hcons]
    rcases ih (t := put e.1 e.2 t) h with h | h
    · rw [keys_put] at h
      split at h
      · exact .inl h
      · rcases List.mem_append.1 h with h | h
        · exact .inl h
        · exact .inr (.inl (List.mem_singleton.1 h))
    · exact .inr (.inr h)

lemma put_of_not_mem (h : key ∉ keys t) (value : β) : put key value t = t ++ [(key, value)] := by
  induction t with
  | nil => rfl
  | cons e t ih =>
    obtain ⟨k, v⟩ := e
    simp only [keys, List.map_cons, List.mem_cons, not_or] at h
    rw [put, if_neg fun hk => h.1 hk.symm, ih h.2]
    rfl

/-- Only the last write to a key counts. -/
lemma put_put (key : α) (value value' : β) (t : List (α × β)) :
    put key value (put key value' t) = put key value t := by
  induction t with
  | nil => simp [put]
  | cons e t ih =>
    obtain ⟨k, v⟩ := e
    rw [put, put]
    split
    · rename_i hk
      rw [put, if_pos hk]
    · rename_i hk
      rw [put, if_neg hk, ih]

/-- A later write to a key that is present does not depend on writes to another one before it. -/
lemma put_comm {other : α} (hne : other ≠ key) (h : key ∈ keys t) (value value' : β) :
    put key value (put other value' t) = put other value' (put key value t) := by
  induction t with
  | nil => cases h
  | cons e t ih =>
    obtain ⟨k, v⟩ := e
    by_cases hkey : k = key
    · subst hkey
      rw [put, if_neg (Ne.symm hne), put, if_pos rfl, put, if_pos rfl, put, if_neg (Ne.symm hne)]
    · have hmem : key ∈ keys t := (List.mem_cons.1 h).resolve_left (Ne.symm hkey)
      by_cases hother : k = other
      · subst hother
        rw [put, if_pos rfl, put, if_neg hkey, put, if_neg hkey, put, if_pos rfl]
      · rw [put, if_neg hother, put, if_neg hkey, put, if_neg hkey, put, if_neg hother, ih hmem]

lemma mem_keys_put_self (key : α) (value : β) (t : List (α × β)) : key ∈ keys (put key value t) := by
  rw [keys_put]
  split
  · assumption
  · exact List.mem_append_right _ (List.mem_singleton_self key)

lemma find?_put_self' (key : α) (value : β) (t : List (α × β)) :
    find? key (put key value t) = some value := by
  rw [find?_put, if_pos rfl]

lemma find?_erase (key other : α) (table : List (α × β)) :
    find? other (erase key table) = if key = other then none else find? other table := by
  induction table with
  | nil => simp [erase, find?]
  | cons e rest ih =>
    obtain ⟨k, v⟩ := e
    by_cases hk : k = key
    · subst hk
      have herase : erase k ((k, v) :: rest) = erase k rest := by simp [erase]
      rw [herase, ih, find?]
      split <;> rfl
    · have herase : erase key ((k, v) :: rest) = (k, v) :: erase key rest := by simp [erase, hk]
      rw [herase, find?, find?, ih]
      by_cases hother : k = other
      · subst hother
        rw [if_pos rfl, if_neg fun h => hk h.symm, if_pos rfl]
      · rw [if_neg hother, if_neg hother]

lemma overlay_of_nodup (h : (keys (t ++ es)).Nodup) : overlay t es = t ++ es := by
  induction es generalizing t with
  | nil => simp [overlay]
  | cons e es ih =>
    have hnew : e.1 ∉ keys t := by
      rw [keys, List.map_append, List.nodup_append] at h
      exact fun hmem => h.2.2 e.1 hmem e.1 (by simp) rfl
    rw [List.append_cons] at h
    rw [overlay, List.foldl_cons, ← overlay, put_of_not_mem hnew, ih h, List.append_assoc,
      List.singleton_append]

/-- Entries with distinct keys are a table. -/
lemma ofEntries_of_nodup (h : (keys es).Nodup) : ofEntries es = es := overlay_of_nodup h

lemma nodup_keys_put (h : (keys t).Nodup) (key : α) (value : β) : (keys (put key value t)).Nodup := by
  rw [keys_put]
  split
  · exact h
  · rename_i hnew
    exact List.nodup_append.2 ⟨h, List.nodup_singleton key, fun a ha b hb hab =>
      hnew (List.mem_singleton.1 hb ▸ hab ▸ ha)⟩

lemma nodup_keys_erase (h : (keys t).Nodup) (key : α) : (keys (erase key t)).Nodup :=
  h.sublist (List.filter_sublist.map Prod.fst)

lemma nodup_keys_overlay (h : (keys t).Nodup) (es : List (α × β)) : (keys (overlay t es)).Nodup := by
  induction es generalizing t with
  | nil => exact h
  | cons e es ih => exact ih (nodup_keys_put h e.1 e.2)

lemma nodup_keys_ofEntries (es : List (α × β)) : (keys (ofEntries es)).Nodup :=
  nodup_keys_overlay (t := []) List.nodup_nil es

lemma overlay_append (t es es' : List (α × β)) :
    overlay t (es ++ es') = overlay (overlay t es) es' := List.foldl_append

/-- Writing to keys that are present adds none. -/
lemma keys_overlay_of_subset (h : ∀ k ∈ keys es, k ∈ keys t) : keys (overlay t es) = keys t := by
  induction es generalizing t with
  | nil => rfl
  | cons e es ih =>
    have he : e.1 ∈ keys t := h e.1 (List.mem_cons_self ..)
    have hkeys : keys (put e.1 e.2 t) = keys t := by rw [keys_put, if_pos he]
    rw [overlay, List.foldl_cons, ← overlay, ih fun k hk => hkeys ▸ h k (List.mem_cons_of_mem _ hk), hkeys]

lemma keys_subset_overlay (t es : List (α × β)) : keys t ⊆ keys (overlay t es) := by
  induction es generalizing t with
  | nil => exact fun _ h => h
  | cons e es ih =>
    refine fun k hk => ih (put e.1 e.2 t) ?_
    rw [keys_put]
    split
    · exact hk
    · exact List.mem_append_left _ hk

lemma keys_written_subset_overlay (t es : List (α × β)) : keys es ⊆ keys (overlay t es) := by
  induction es generalizing t with
  | nil => exact List.nil_subset _
  | cons e es ih =>
    refine List.cons_subset.2 ⟨?_, ih _⟩
    exact keys_subset_overlay (put e.1 e.2 t) es (mem_keys_put_self ..)

/-- Tables with the same keys in the same order and the same values are the same. -/
lemma ext_of_keys {t' : List (α × β)} (hnodup : (keys t).Nodup) (hkeys : keys t' = keys t)
    (h : ∀ k, find? k t' = find? k t) : t' = t := by
  induction t generalizing t' with
  | nil => exact List.map_eq_nil_iff.1 hkeys
  | cons e t ih =>
    obtain ⟨e', t', rfl⟩ : ∃ e' u, t' = e' :: u := by
      cases t' with
      | nil => cases hkeys
      | cons e' u => exact ⟨e', u, rfl⟩
    obtain ⟨hhead, htail⟩ := List.cons_eq_cons.1 hkeys
    have htail : keys t' = keys t := htail
    rw [keys, List.map_cons, List.nodup_cons] at hnodup
    have hvalue := h e.1
    rw [find?, if_pos hhead, find?, if_pos rfl] at hvalue
    have he : e' = e := Prod.ext hhead (Option.some.inj hvalue)
    subst he
    rw [ih hnodup.2 htail fun k => ?_]
    by_cases hk : e'.1 = k
    · subst hk
      have hnot : e'.1 ∉ keys t := hnodup.1
      rw [find?_eq_none_of_not_mem hnot, find?_eq_none_of_not_mem (htail ▸ hnot)]
    · have hk' := h k
      rwa [find?, if_neg hk, find?, if_neg hk] at hk'

/-- **Writing the same entries again** changes nothing. -/
theorem overlay_overlay (h : (keys (overlay t es)).Nodup) :
    overlay (overlay t es) es = overlay t es := by
  refine ext_of_keys h (keys_overlay_of_subset (keys_written_subset_overlay t es)) fun k => ?_
  rw [find?_overlay k (overlay t es), find?_overlay k t, ← Option.or_assoc, Option.or_self]

/-- Entries of the same keys replace those that were written before them. -/
lemma overlay_append_iff {es' : List (α × β)} (hnodup : (keys es).Nodup) (hkeys : keys es' = keys es)
    (ht : (keys (overlay t es)).Nodup) :
    overlay t (es ++ es') = overlay t es ↔ es' = es := by
  rw [overlay_append]
  constructor
  · intro h
    refine ext_of_keys hnodup hkeys fun k => ?_
    have hfind := congrArg (find? k) h
    rw [find?_overlay_of_nodup (hkeys ▸ hnodup), find?_overlay_of_nodup hnodup] at hfind
    by_cases hk : k ∈ keys es
    · obtain ⟨v, hv⟩ := exists_find?_of_mem_keys hk
      obtain ⟨v', hv'⟩ := exists_find?_of_mem_keys (hkeys ▸ hk)
      rw [hv, hv', Option.some_or, Option.some_or] at hfind
      rw [hv, hv', hfind]
    · rw [find?_eq_none_of_not_mem hk, find?_eq_none_of_not_mem (hkeys ▸ hk)]
  · intro h
    rw [h, overlay_overlay ht]

/-! ## Entries with the same keys -/

lemma keys_overlay_congr {t' es' : List (α × β)} (ht : keys t' = keys t) (hes : keys es' = keys es) :
    keys (overlay t' es') = keys (overlay t es) := by
  induction es generalizing t t' es' with
  | nil =>
    obtain rfl : es' = [] := List.map_eq_nil_iff.1 hes
    exact ht
  | cons e es ih =>
    obtain ⟨e', rest, rfl⟩ := List.exists_cons_of_ne_nil (l := es') (by rintro rfl; cases hes)
    obtain ⟨hhead, htail⟩ := List.cons_eq_cons.1 hes
    have hput : keys (put e'.1 e'.2 t') = keys (put e.1 e.2 t) := by
      rw [keys_put, keys_put, ht, show e'.1 = e.1 from hhead]
    show keys (overlay (put e'.1 e'.2 t') rest) = keys (overlay (put e.1 e.2 t) es)
    exact ih hput htail

/-- Tables of entries with the same keys are the same if the last entries of each key are. -/
lemma ofEntries_eq_iff {es' : List (α × β)} (hkeys : keys es' = keys es) :
    ofEntries es' = ofEntries es ↔ ∀ k, find? k es'.reverse = find? k es.reverse := by
  constructor
  · intro h k
    rw [← find?_ofEntries, ← find?_ofEntries, h]
  · intro h
    refine ext_of_keys (nodup_keys_ofEntries es) (keys_overlay_congr rfl hkeys) fun k => ?_
    rw [find?_ofEntries, find?_ofEntries, h]

lemma find?_reverse_cons (k key : α) (value : β) (es : List (α × β)) :
    find? k ((key, value) :: es).reverse =
      (find? k es.reverse).or (if key = k then some value else none) := by
  rw [List.reverse_cons, find?_append]
  rfl

/-- A value counts for a table unless an entry with its key comes later. -/
lemma ofEntries_cons_iff {es' : List (α × β)} (hkeys : keys es' = keys es) (key : α) (value' value : β) :
    ofEntries ((key, value') :: es') = ofEntries ((key, value) :: es) ↔
      (key ∈ keys es ∨ value' = value) ∧ ofEntries es' = ofEntries es := by
  have hcons : keys ((key, value') :: es') = keys ((key, value) :: es) := congrArg (key :: ·) hkeys
  have hmem : ∀ k, k ∈ keys es ↔ k ∈ keys es.reverse := fun k => by
    rw [keys, keys, List.map_reverse, List.mem_reverse]
  have hmem' : ∀ k, k ∈ keys es ↔ k ∈ keys es'.reverse := fun k => by
    rw [← hkeys, keys, keys, List.map_reverse, List.mem_reverse]
  rw [ofEntries_eq_iff hcons, ofEntries_eq_iff hkeys]
  simp only [find?_reverse_cons]
  constructor
  · intro h
    refine ⟨?_, fun k => ?_⟩
    · by_cases hk : key ∈ keys es
      · exact .inl hk
      · have hvalue := h key
        rw [find?_eq_none_of_not_mem (mt (hmem key).2 hk), find?_eq_none_of_not_mem (mt (hmem' key).2 hk),
          Option.none_or, Option.none_or, if_pos rfl, if_pos rfl] at hvalue
        exact .inr (Option.some.inj hvalue)
    · by_cases hk : k ∈ keys es
      · obtain ⟨v, hv⟩ := exists_find?_of_mem_keys ((hmem k).1 hk)
        obtain ⟨v', hv'⟩ := exists_find?_of_mem_keys ((hmem' k).1 hk)
        have hvalue := h k
        rw [hv, hv', Option.some_or, Option.some_or] at hvalue
        rw [hv, hv', hvalue]
      · rw [find?_eq_none_of_not_mem (mt (hmem k).2 hk), find?_eq_none_of_not_mem (mt (hmem' k).2 hk)]
  · rintro ⟨hkey, h⟩ k
    rw [h k]
    rcases hkey with hkey | rfl
    · by_cases hk : key = k
      · obtain ⟨v, hv⟩ := exists_find?_of_mem_keys ((hmem k).1 (hk ▸ hkey))
        rw [hv, Option.some_or, Option.some_or]
      · rw [if_neg hk, if_neg hk]
    · rfl

lemma mem_put {e : α × β} (h : e ∈ put key value t) : e ∈ t ∨ e = (key, value) := by
  induction t with
  | nil => exact .inr (List.mem_singleton.1 h)
  | cons d t ih =>
    obtain ⟨k, v⟩ := d
    rw [put] at h
    split at h
    · rename_i hk
      rcases List.mem_cons.1 h with rfl | h
      · exact .inr (by rw [hk])
      · exact .inl (List.mem_cons_of_mem _ h)
    · rcases List.mem_cons.1 h with rfl | h
      · exact .inl (List.mem_cons_self ..)
      · exact (ih h).imp_left (List.mem_cons_of_mem _)

lemma mem_overlay {e : α × β} (h : e ∈ overlay t es) : e ∈ t ∨ e ∈ es := by
  induction es generalizing t with
  | nil => exact .inl h
  | cons d es ih =>
    rcases ih (t := put d.1 d.2 t) h with h | h
    · rcases mem_put h with h | rfl
      · exact .inl h
      · exact .inr (List.mem_cons_self ..)
    · exact .inr (List.mem_cons_of_mem _ h)

lemma mem_of_mem_ofEntries {e : α × β} (h : e ∈ ofEntries es) : e ∈ es :=
  (mem_overlay h).resolve_left List.not_mem_nil

lemma mem_keys_of_mem_keys_ofEntries (h : key ∈ keys (ofEntries es)) : key ∈ keys es :=
  (mem_keys_overlay h).resolve_left List.not_mem_nil

/-! ## First entries -/

lemma keys_putNew (key : α) (value : β) (t : List (α × β)) :
    keys (putNew key value t) = if key ∈ keys t then keys t else keys t ++ [key] := by
  unfold putNew
  split
  · rename_i v hfind
    have hmem : key ∈ keys t := List.mem_map_of_mem (f := Prod.fst) (mem_of_find? hfind)
    rw [if_pos hmem]
  · rename_i hfind
    have hnot : key ∉ keys t := fun hmem => by
      obtain ⟨v, hv⟩ := exists_find?_of_mem_keys hmem
      rw [hfind] at hv
      cases hv
    rw [if_neg hnot]
    exact List.map_append

/-- Of the entries with one key the first is put, so that keys stay distinct and none is lost. -/
lemma foldl_putNew (es : List (α × β)) (h : (keys t).Nodup) :
    (keys (es.foldl (fun t e => putNew e.1 e.2 t) t)).Nodup ∧
      keys t ⊆ keys (es.foldl (fun t e => putNew e.1 e.2 t) t) ∧
      keys es ⊆ keys (es.foldl (fun t e => putNew e.1 e.2 t) t) := by
  induction es generalizing t with
  | nil => exact ⟨h, List.Subset.refl _, List.nil_subset _⟩
  | cons e es ih =>
    have hput : (keys (putNew e.1 e.2 t)).Nodup ∧ keys t ⊆ keys (putNew e.1 e.2 t) ∧
        e.1 ∈ keys (putNew e.1 e.2 t) := by
      rw [keys_putNew]
      split
      · exact ⟨h, List.Subset.refl _, ‹_›⟩
      · rename_i hnew
        exact ⟨List.nodup_append.2 ⟨h, List.nodup_singleton _, fun a ha b hb hab =>
          hnew (List.mem_singleton.1 hb ▸ hab ▸ ha)⟩, List.subset_append_left _ _, by simp⟩
    obtain ⟨hnodup, hold, hes⟩ := ih hput.1
    exact ⟨hnodup, List.Subset.trans hput.2.1 hold, List.cons_subset.2 ⟨hold hput.2.2, hes⟩⟩

/-- A key that occurs once has the entry that is found. -/
lemma filter_of_find? (h : (keys t).Nodup) (hfind : find? key t = some value) :
    t.filter (fun e => e.1 = key) = [(key, value)] := by
  induction t with
  | nil => cases hfind
  | cons e t ih =>
    obtain ⟨k, v⟩ := e
    obtain ⟨hnot, hnodup⟩ := List.nodup_cons.1 h
    rw [find?] at hfind
    split at hfind
    · rename_i hk
      obtain rfl := hk
      obtain rfl := Option.some.inj hfind
      have hrest : t.filter (fun e => e.1 = k) = [] := List.filter_eq_nil_iff.2 fun e he hkey =>
        hnot (List.mem_map.2 ⟨e, he, of_decide_eq_true hkey⟩)
      rw [List.filter_cons_of_pos (by simp), hrest]
    · rename_i hk
      rw [List.filter_cons_of_neg (by simpa using hk)]
      exact ih hnodup hfind

end Scaffold.Table
