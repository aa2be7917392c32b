import Mathlib.Data.List.Basic
import Mathlib.Tactic.Common
import Scaffold.Text.Basic

/-!
# Where phrases occur

Source files are edited by insertions that are guarded by the question whether a phrase is already
there.  What an edit does to the phrases of a text is therefore a question about occurrences: how
many there are, where the first one stands, and whether an edit splits one.

`Apart phrase u v` is the side condition that carries this file: no occurrence of the phrase begins
in `u` and ends in `v`.  Under it an occurrence in `u ++ v` lies on one side, so counts add up
(`occurrences_append`) and the first occurrence is the first one of the first side that has any
(`cut?_append`).  An insertion between `u` and `v` is described by applying these twice.
-/

namespace Scaffold.Text

/-- A test of all characters of a text, evaluated along the text. -/
lemma forall_mem_of_all {P : Char → Prop} [DecidablePred P] {t : Text}
    (h : (t.all fun c => decide (P c)) = true) : ∀ c ∈ t, P c := by
  intro c hc
  exact of_decide_eq_true (List.all_eq_true.1 h c hc)

lemma forall_bne_of_not_mem {t : Text} {c : Char} (h : c ∉ t) : ∀ d ∈ t, (d != c) = true :=
  fun _ hd => bne_iff_ne.2 fun heq => h (heq ▸ hd)

/-- A text is cut at the first character that fails a test. -/
lemma takeWhile_append_cons {p : Char → Bool} {t : Text} {c : Char} (ht : ∀ d ∈ t, p d = true)
    (hc : p c = false) (u : Text) :
    (t ++ c :: u).takeWhile p = t ∧ (t ++ c :: u).dropWhile p = c :: u := by
  have hnot : ¬ p c = true := by simp [hc]
  rw [List.takeWhile_append_of_pos ht, List.dropWhile_append_of_pos ht, List.takeWhile_cons_of_neg hnot,
    List.dropWhile_cons_of_neg hnot, List.append_nil]
  exact ⟨rfl, rfl⟩

/-- How often a phrase begins in a text. -/
def occurrences (phrase : Text) : Text → Nat
  | [] => if phrase.isEmpty then 1 else 0
  | c :: rest => (if phrase.isPrefixOf (c :: rest) then 1 else 0) + occurrences phrase rest

lemma occurs_iff_occurrences_pos (phrase text : Text) :
    occurs phrase text = true ↔ 0 < occurrences phrase text := by
  induction text with
  | nil => cases phrase <;> simp [occurs, occurrences]
  | cons c rest ih =>
    rw [occurs, occurrences, Bool.or_eq_true, ih]
    by_cases h : phrase.isPrefixOf (c :: rest) = true
    · rw [if_pos h]
      exact ⟨fun _ => by omega, fun _ => .inl h⟩
    · rw [if_neg h, Nat.zero_add]
      exact or_iff_right h

lemma not_occurs_iff_occurrences_eq_zero (phrase text : Text) :
    occurs phrase text = false ↔ occurrences phrase text = 0 := by
  rw [← Bool.not_eq_true, occurs_iff_occurrences_pos]
  omega

/-- A phrase occurs in a text exactly if the text is the phrase with something around it. -/
lemma occurs_iff_isInfix (phrase text : Text) : occurs phrase text = true ↔ phrase <:+: text := by
  induction text with
  | nil => simp [occurs]
  | cons c rest ih => simp [occurs, ih, List.infix_cons_iff]

/-! ## Occurrences do not cross -/

/-- No occurrence of the phrase begins in `u` and ends in `v`. -/
def Apart (phrase u v : Text) : Prop :=
  ∀ x y, phrase = x ++ y → x ≠ [] → y ≠ [] → x <:+ u → ¬ y <+: v

lemma Apart.mono {phrase t u v w : Text} (h : Apart phrase u v) (ht : t <:+ u) (hw : w <+: v) :
    Apart phrase t w :=
  fun x y hxy hx hy hxt hyw => h x y hxy hx hy (hxt.trans ht) (hyw.trans hw)

/-- Nothing begins in an empty text. -/
lemma apart_nil_left (phrase v : Text) : Apart phrase [] v :=
  fun _ _ _ hx _ hxu => absurd (List.suffix_nil.1 hxu) hx

/-- Nothing ends in an empty text. -/
lemma apart_nil_right (phrase u : Text) : Apart phrase u [] :=
  fun _ _ _ _ hy _ hyv => hy (List.prefix_nil.1 hyv)

/-- A character that the phrase lacks keeps what follows it apart from what stands before. -/
lemma apart_of_head_not_mem {phrase : Text} {c : Char} (h : c ∉ phrase) (u v : Text) :
    Apart phrase u (c :: v) := by
  rintro x y rfl - hy - hyv
  obtain ⟨d, y, rfl⟩ := List.exists_cons_of_ne_nil hy
  obtain ⟨rfl, -⟩ := List.cons_prefix_cons.1 hyv
  simp at h

/-- A character that the phrase lacks keeps what precedes it apart from what stands behind. -/
lemma apart_of_last_not_mem {phrase : Text} {c : Char} (h : c ∉ phrase) (u v : Text) :
    Apart phrase (u ++ [c]) v := by
  rintro x y rfl hx - hxu -
  obtain ⟨x, d, rfl⟩ := (List.eq_nil_or_concat' x).resolve_left hx
  obtain ⟨t, ht⟩ := hxu
  rw [← List.append_assoc] at ht
  obtain ⟨-, hd⟩ := List.append_inj' ht rfl
  simp only [List.cons.injEq, and_true] at hd
  simp [hd] at h

/-- A phrase of one character has no two sides. -/
lemma apart_singleton (c : Char) (u v : Text) : Apart [c] u v := by
  intro x y hxy hx hy
  have := congrArg List.length hxy
  have := List.length_pos_of_ne_nil hx
  have := List.length_pos_of_ne_nil hy
  simp at *
  omega

lemma isPrefixOf_append_of_apart {phrase t u v : Text} (h : Apart phrase u v) (ht : t <:+ u)
    (hne : t ≠ []) : phrase.isPrefixOf (t ++ v) = phrase.isPrefixOf t := by
  rw [Bool.eq_iff_iff, List.isPrefixOf_iff_prefix, List.isPrefixOf_iff_prefix]
  constructor
  · rintro ⟨z, hz⟩
    rcases List.append_eq_append_iff.1 hz with ⟨a, rfl, -⟩ | ⟨a, rfl, hv⟩
    · exact List.prefix_append _ _
    · rcases eq_or_ne a [] with rfl | ha
      · simp
      · exact absurd ⟨z, hv.symm⟩ (h t a rfl hne ha ht)
  · exact fun hp => hp.trans (List.prefix_append _ _)

/-- **Counts add up** where no occurrence crosses. -/
theorem occurrences_append {phrase u v : Text} (hp : phrase ≠ []) (h : Apart phrase u v) :
    occurrences phrase (u ++ v) = occurrences phrase u + occurrences phrase v := by
  induction u with
  | nil => simp [occurrences, hp]
  | cons c u ih =>
    have hstart := isPrefixOf_append_of_apart h (List.suffix_refl _) (by simp)
    rw [List.cons_append] at hstart
    rw [List.cons_append, occurrences, occurrences, hstart, ih (h.mono (List.suffix_cons _ _) (List.prefix_refl _)),
      Nat.add_assoc]

lemma occurs_append {phrase u v : Text} (hp : phrase ≠ []) (h : Apart phrase u v) :
    occurs phrase (u ++ v) = (occurs phrase u || occurs phrase v) := by
  have hcount := occurrences_append hp h
  rw [Bool.eq_iff_iff, Bool.or_eq_true, occurs_iff_occurrences_pos, occurs_iff_occurrences_pos,
    occurs_iff_occurrences_pos, hcount]
  omega

/-- A phrase does not reach over a character that it lacks. -/
lemma occurs_append_cons {phrase : Text} {c : Char} (hp : phrase ≠ []) (hc : c ∉ phrase) (t u : Text) :
    occurs phrase (t ++ c :: u) = (occurs phrase t || occurs phrase (c :: u)) :=
  occurs_append hp (apart_of_head_not_mem hc t u)

/-- A phrase without a line end occurs in lines if it occurs in one of them. -/
lemma occurs_lines {phrase : Text} (hp : phrase ≠ []) (hn : '\n' ∉ phrase) (ls : List Text) :
    occurs phrase (ls.flatMap fun l => l ++ ['\n']) = ls.any (occurs phrase) := by
  have hnewline : occurs phrase ['\n'] = false := by
    rw [← Bool.not_eq_true, occurs_iff_isInfix]
    rintro ⟨x, y, h⟩
    obtain ⟨c, w, rfl⟩ := List.exists_cons_of_ne_nil hp
    have hmem : c ∈ ['\n'] := by rw [← h]; simp
    rw [List.mem_singleton.1 hmem] at hn
    exact hn (List.mem_cons_self ..)
  induction ls with
  | nil => simpa [occurs] using hp
  | cons l ls ih =>
    have hlast : Apart phrase (l ++ ['\n']) (ls.flatMap fun l => l ++ ['\n']) :=
      apart_of_last_not_mem hn l _
    rw [List.flatMap_cons, occurs_append hp hlast, occurs_append_cons hp hn, hnewline, ih,
      Bool.or_false, List.any_cons]

/-- A phrase does not occur where one of its characters does not. -/
lemma occurs_eq_false_of_not_mem {phrase t : Text} {c : Char} (hc : c ∈ phrase) (ht : c ∉ t) :
    occurs phrase t = false := by
  rw [← Bool.not_eq_true, occurs_iff_isInfix]
  rintro ⟨x, y, rfl⟩
  exact ht (by simp [hc])

/-- **The first occurrence** is on the left if there is one on the left, else on the right. -/
theorem cut?_append {phrase u v : Text} (hp : phrase ≠ []) (h : Apart phrase u v) :
    cut? phrase (u ++ v) =
      match cut? phrase u with
      | some (before, after) => some (before, after ++ v)
      | none => (cut? phrase v).map fun (before, after) => (u ++ before, after) := by
  induction u with
  | nil => simp [cut?, hp]
  | cons c u ih =>
    have hstart := isPrefixOf_append_of_apart h (List.suffix_refl _) (by simp)
    rw [List.cons_append] at hstart
    rw [List.cons_append, cut?, cut?, hstart, ih (h.mono (List.suffix_cons _ _) (List.prefix_refl _))]
    split
    · simp
    · cases hu : cut? phrase u with
      | some p => simp
      | none => cases hv : cut? phrase v <;> simp

/-! ## First occurrences -/

lemma prefix_of_cut? {phrase text before after : Text} (h : cut? phrase text = some (before, after)) :
    phrase <+: after := by
  induction text generalizing before with
  | nil =>
    simp only [cut?] at h
    split at h <;> simp_all
  | cons c rest ih =>
    simp only [cut?] at h
    split at h
    · rename_i hp
      simp only [Option.some.injEq, Prod.mk.injEq] at h
      exact h.2 ▸ List.isPrefixOf_iff_prefix.1 hp
    · obtain ⟨⟨b, a⟩, hb, heq⟩ := Option.map_eq_some_iff.1 h
      obtain ⟨-, rfl⟩ := Prod.mk.injEq .. ▸ heq
      exact ih hb

/-- A phrase is found exactly where it occurs. -/
lemma cut?_eq_none_iff (phrase text : Text) : cut? phrase text = none ↔ occurs phrase text = false := by
  induction text with
  | nil => cases phrase <;> simp [cut?, occurs]
  | cons c rest ih =>
    rw [cut?, occurs, Bool.or_eq_false_iff]
    by_cases h : phrase.isPrefixOf (c :: rest) = true
    · simp [h]
    · rw [if_neg h, Option.map_eq_none_iff, ih]
      exact (and_iff_right (Bool.eq_false_iff.2 h)).symm

/-- A phrase in front is the first one. -/
lemma cut?_of_prefix {phrase text : Text} (h : phrase <+: text) : cut? phrase text = some ([], text) := by
  cases text with
  | nil => simp_all [cut?]
  | cons c rest => rw [cut?, if_pos (List.isPrefixOf_iff_prefix.2 h)]

/-- A phrase that occurs is found, there or before. -/
lemma exists_cut?_append (phrase u v : Text) :
    ∃ before z, cut? phrase (u ++ (phrase ++ v)) = some (before, z ++ (phrase ++ v)) := by
  induction u with
  | nil => exact ⟨[], [], cut?_of_prefix (List.prefix_append _ _)⟩
  | cons c u ih =>
    obtain ⟨before, z, h⟩ := ih
    rw [List.cons_append, cut?]
    split
    · exact ⟨[], c :: u, rfl⟩
    · rw [h]
      exact ⟨c :: before, z, rfl⟩

/-- A phrase is found where its last character stands first. -/
lemma cut?_append_of_last {q u : Text} {c : Char} (hq : c ∉ q) (hu : c ∉ u) (v : Text) :
    cut? (q ++ [c]) (u ++ (q ++ [c] ++ v)) = some (u, q ++ [c] ++ v) := by
  induction u with
  | nil => exact cut?_of_prefix (List.prefix_append _ _)
  | cons d u ih =>
    simp only [List.mem_cons, not_or] at hu
    have hnot : ¬ (q ++ [c]) <+: d :: (u ++ (q ++ [c] ++ v)) := by
      rintro ⟨w, hw⟩
      have hcut : q ++ c :: w = (d :: u ++ q) ++ c :: v := by simpa using hw
      have hrest : c ∉ d :: u ++ q := by simp [hu.1, hu.2, hq]
      obtain ⟨z, hz⟩ | ⟨z, hz⟩ := List.prefix_or_prefix_of_prefix
        (List.prefix_append q (c :: w)) (hcut ▸ List.prefix_append (d :: u ++ q) (c :: v))
      · cases z with
        | nil =>
          have := congrArg List.length hz
          simp at this
          omega
        | cons e z =>
          have heq : q ++ c :: w = q ++ (e :: z ++ c :: v) := by
            rw [hcut, ← hz, List.append_assoc]
          have := List.append_cancel_left heq
          rw [List.cons_append, List.cons.injEq] at this
          exact hrest (by rw [← hz, this.1]; simp)
      · have := congrArg List.length hz
        simp at this
        omega
    rw [List.cons_append, cut?, if_neg fun h => hnot (List.isPrefixOf_iff_prefix.1 h), ih hu.2]
    rfl

/-! ## Last occurrences -/

/-- The last occurrence is found exactly where there is one. -/
lemma cutLast?_eq_none_iff (phrase text : Text) :
    cutLast? phrase text = none ↔ occurs phrase text = false := by
  induction text with
  | nil => cases phrase <;> simp [cutLast?, occurs]
  | cons c rest ih =>
    rw [cutLast?, occurs, Bool.or_eq_false_iff, ← ih]
    cases cutLast? phrase rest with
    | some r => simp
    | none => by_cases h : phrase.isPrefixOf (c :: rest) = true <;> simp [h]

/-- No occurrence begins behind the last one. -/
lemma length_le_of_cutLast? {phrase u v before last : Text}
    (h : cutLast? phrase (u ++ (phrase ++ v)) = some (before, last)) : u.length ≤ before.length := by
  induction u generalizing before with
  | nil => exact Nat.zero_le _
  | cons c u ih =>
    have hoccurs : occurs phrase (u ++ (phrase ++ v)) = true :=
      (occurs_iff_isInfix _ _).2 ⟨u, v, List.append_assoc _ _ _⟩
    rw [List.cons_append, cutLast?] at h
    cases hrest : cutLast? phrase (u ++ (phrase ++ v)) with
    | none =>
      rw [(cutLast?_eq_none_iff _ _).1 hrest] at hoccurs
      cases hoccurs
    | some r =>
      obtain ⟨b, a⟩ := r
      rw [hrest] at h
      simp only [Option.some.injEq, Prod.mk.injEq] at h
      obtain ⟨rfl, rfl⟩ := h
      rw [List.length_cons, List.length_cons]
      exact Nat.succ_le_succ (ih hrest)

/-! ## Phrases one after another -/

/-- The phrases stand in a text one after another. -/
inductive InOrder : List Text → Text → Prop
  | nil (t : Text) : InOrder [] t
  | cons (u p : Text) {ps : List Text} {t : Text} : InOrder ps t → InOrder (p :: ps) (u ++ (p ++ t))

namespace InOrder

variable {ps qs : List Text} {p t u v : Text}

lemma append_left (h : InOrder ps t) (u : Text) : InOrder ps (u ++ t) := by
  cases h with
  | nil => exact .nil _
  | cons w p h =>
    rw [← List.append_assoc u w]
    exact .cons _ _ h

/-- What stands in two texts stands in both of them together. -/
lemma append (h : InOrder ps t) (h' : InOrder qs u) : InOrder (ps ++ qs) (t ++ u) := by
  induction h with
  | nil t => exact h'.append_left t
  | cons w p _ ih =>
    rw [List.cons_append, List.append_assoc, List.append_assoc]
    exact .cons _ _ ih

lemma singleton (u p t : Text) : InOrder [p] (u ++ (p ++ t)) :=
  .cons u p (.nil t)

/-- **Where no phrase crosses**, the first ones stand on the left and the others on the right. -/
lemma split (hp : ∀ p ∈ ps, Apart p u v) (h : InOrder ps (u ++ v)) :
    ∃ ps₁ ps₂, ps = ps₁ ++ ps₂ ∧ InOrder ps₁ u ∧ InOrder ps₂ v := by
  induction ps generalizing u with
  | nil => exact ⟨[], [], rfl, .nil _, .nil _⟩
  | cons p ps ih =>
    generalize huv : u ++ v = uv at h
    cases h with
    | cons w _ h =>
      rename_i t
      rcases List.append_eq_append_iff.1 huv with ⟨x, rfl, rfl⟩ | ⟨x, rfl, hx⟩
      · exact ⟨[], p :: ps, rfl, .nil _, .cons _ _ h⟩
      rcases List.append_eq_append_iff.1 hx with ⟨y, rfl, rfl⟩ | ⟨y, rfl, rfl⟩
      · have hrest : ∀ q ∈ ps, Apart q y v := fun q hq =>
          (hp q (List.mem_cons_of_mem _ hq)).mono
            ((List.suffix_append _ _).trans (List.suffix_append _ _)) (List.prefix_refl _)
        obtain ⟨ps₁, ps₂, rfl, h₁, h₂⟩ := ih hrest h
        exact ⟨p :: ps₁, ps₂, rfl, .cons _ _ h₁, h₂⟩
      · rcases eq_or_ne y [] with rfl | hy
        · exact ⟨[x ++ []], ps, rfl, by simpa using singleton w x [], h⟩
        rcases eq_or_ne x [] with rfl | hne
        · exact ⟨[], ([] ++ y) :: ps, rfl, .nil _, .cons [] y h⟩
        · exact absurd (List.prefix_append _ _)
            (hp _ (List.mem_cons_self ..) x y rfl hne hy (List.suffix_append _ _))

/-- An insertion that splits no phrase keeps all of them in order. -/
lemma insert (hp : ∀ p ∈ ps, Apart p u v) (h : InOrder ps (u ++ v)) (m : Text) :
    InOrder ps (u ++ (m ++ v)) := by
  obtain ⟨ps₁, ps₂, rfl, h₁, h₂⟩ := h.split hp
  exact h₁.append (h₂.append_left m)

end InOrder

end Scaffold.Text
