import Mathlib.Data.List.TakeWhile
import Mathlib.Tactic.Common
import Scaffold.Proofs.Text.Blanks
import Scaffold.Text.Case

/-!
# Lower case

What the lower case of a text holds says what the text can hold: beyond ASCII, only the Kelvin sign has
an ASCII lower case (`lowerRuns_image`).

Lower case is reached in one step.  No character of a text in lower case has another lower case, and a
capital sigma, whose lower case depends on its neighbours, is none of them (`isSmall_of_mem_lower`), so
doing it again changes nothing (`lower_lower`).  Nor does it make blanks out of other characters, so a
trimmed text stays trimmed (`trim_lower`).  For the characters beyond ASCII this is a fact about the
table; the table is made of runs, and to compare runs with each other is far cheaper than to look up all
characters that they stand for.
-/

namespace Scaffold.Text

/-! ## Texts and their lower case -/

lemma mem_lowerAfter {t : Text} {c d : Char} (hc : c ∈ t) (hs : c.toNat ≠ 0x3A3)
    (hd : d ∈ lowerChar c) (before : Text) : d ∈ lowerAfter before t := by
  induction t generalizing before with
  | nil => simp at hc
  | cons e rest ih =>
    rw [lowerAfter, List.mem_append]
    rcases List.mem_cons.1 hc with rfl | hc
    · left
      rw [if_neg hs]
      exact hd
    · exact .inr (ih hc _)

/-- A capital sigma leaves one of the two small ones. -/
lemma exists_mem_lowerAfter_of_sigma {t : Text} {c : Char} (hc : c ∈ t) (hs : c.toNat = 0x3A3)
    (before : Text) : ∃ d ∈ lowerAfter before t, 128 ≤ d.toNat := by
  induction t generalizing before with
  | nil => simp at hc
  | cons e rest ih =>
    rcases List.mem_cons.1 hc with rfl | hc
    · rw [lowerAfter, if_pos hs]
      refine ⟨_, List.mem_append_left _ (List.mem_singleton_self _), ?_⟩
      split <;> decide
    · obtain ⟨d, hd, h⟩ := ih hc (e :: before)
      exact ⟨d, List.mem_append_right _ hd, h⟩

/-- The lower case of a character is in the lower case of a text that holds the character, unless
the character is a capital sigma, which leaves one of the two small ones. -/
lemma mem_lower_of_mem {t : Text} {c : Char} (hc : c ∈ t) :
    (∀ d ∈ lowerChar c, d ∈ lower t) ∨ ∃ d ∈ lower t, 128 ≤ d.toNat := by
  by_cases hs : c.toNat = 0x3A3
  · exact .inr (exists_mem_lowerAfter_of_sigma hc hs [])
  · exact .inl fun d hd => mem_lowerAfter hc hs hd []

/-- Which runs of the lower case table lead from beyond ASCII into it: only the Kelvin sign. -/
lemma lowerRuns_image :
    ∀ r ∈ lowerRuns, r.last < 128 ∨ (r.first = 8490 ∧ r.last = 8490) ∨
      (128 ≤ r.image ∧ (r.image + (r.last - r.first) < 0xD800 ∨
        0xE000 ≤ r.image ∧ r.image + (r.last - r.first) < 0x110000)) := by
  decide +kernel

lemma toNat_ofNat {k : Nat} (h : k.isValidChar) : (Char.ofNat k).toNat = k := by
  rw [Char.ofNat, dif_pos h]
  rfl

/-- A character beyond ASCII with a lower case in ASCII is a word character. -/
lemma isWord_of_lowerChar_ascii {c : Char} (hc : 128 ≤ c.toNat)
    (h : ∀ d ∈ lowerChar c, d.toNat < 128) : isWord c = true := by
  rw [lowerChar, if_neg (by omega), mapCase] at h
  split at h
  · rename_i image hl
    -- the only expansion ends with a combining dot
    have : c.toNat = 304 ∧ image = [105, 775] := by
      simp only [lowerExpansions, List.lookup_cons, List.lookup_nil] at hl
      split at hl
      · rename_i he
        exact ⟨by simpa using he, by simpa using hl.symm⟩
      · simp at hl
    obtain ⟨-, rfl⟩ := this
    exact absurd (h (Char.ofNat 775) (by simp)) (by decide)
  split at h
  · rename_i n hn
    obtain ⟨r, hr, rfl⟩ := Option.map_eq_some_iff.1 hn
    have hin := List.find?_some hr
    simp only [Bool.and_eq_true, decide_eq_true_eq] at hin
    obtain ⟨⟨hfirst, hlast⟩, -⟩ := hin
    rcases lowerRuns_image r (List.mem_of_find?_eq_some hr) with hr | ⟨hf, hl⟩ | ⟨hi, hv⟩
    · omega
    · have : c.toNat = 8490 := by omega
      rw [isWord, if_neg (by omega), this]
      decide +kernel
    · have hvalid : (r.image + (c.toNat - r.first)).isValidChar := by
        simp only [Nat.isValidChar]
        omega
      have := h (Char.ofNat (r.image + (c.toNat - r.first))) (by simp)
      rw [toNat_ofNat hvalid] at this
      omega
  · have := h c (by simp)
    omega

/-- The lower case of an ASCII text has no upper case letters. -/
lemma isAsciiUpper_eq_false_of_mem_lower {t : Text} (ht : ∀ c ∈ t, c.toNat < 128) {d : Char} (hd : d ∈ lower t) :
    isAsciiUpper d = false := by
  have hafter : ∀ before, d ∈ lowerAfter before t → isAsciiUpper d = false := by
    clear hd
    intro before hd
    induction t generalizing before with
    | nil => cases hd
    | cons c t ih =>
      obtain ⟨hc, ht⟩ := List.forall_mem_cons.1 ht
      rw [lowerAfter, if_neg (by omega), lowerChar, if_pos hc, List.mem_append] at hd
      rcases hd with hd | hd
      · split at hd
        · rename_i hupper
          obtain rfl := List.mem_singleton.1 hd
          simp only [isAsciiUpper, Bool.and_eq_true, decide_eq_true_eq] at hupper
          have hvalid : (c.toNat + 32).isValidChar := by
            simp only [Nat.isValidChar]
            omega
          have hZ : 'Z'.toNat = 90 := rfl
          have hA : 'A'.toNat = 65 := rfl
          simp only [isAsciiUpper, toNat_ofNat hvalid, Bool.and_eq_false_iff, decide_eq_false_iff_not]
          omega
        · rename_i hupper
          obtain rfl := List.mem_singleton.1 hd
          simpa using hupper
      · exact ih ht _ hd
  exact hafter [] hd

/-! ## Images of the table -/

section Images

variable {k n : Nat}

/-- No image of a run is in another run, as far as bounds and parity can tell. -/
def CaseRun.isApart (r q : CaseRun) : Bool :=
  Nat.blt q.last r.image || (Nat.blt (r.image + (r.last - r.first)) q.first ||
    ((Nat.beq r.step 2 || Nat.beq r.first r.last) && (Nat.beq q.step 2 &&
      Nat.beq ((r.image + q.first) % 2) 1)))

lemma isApart_of_mem : ∀ r ∈ lowerRuns, ∀ q ∈ lowerRuns, r.isApart q = true := by decide +kernel

/-- The images are characters, none of them blank or expanded. -/
lemma image_of_mem : ∀ r ∈ lowerRuns,
    (r.image + (r.last - r.first) < 0xD800 ∨
      0xE000 ≤ r.image ∧ r.image + (r.last - r.first) < 0x110000) ∧
    ∀ range ∈ [(0, 32), (0x85, 0xA0), (304, 304), (0x1680, 0x1680), (0x2000, 0x205F), (0x3000, 0x3000)],
      r.image + (r.last - r.first) < range.1 ∨ range.2 < r.image := by
  decide +kernel

lemma exists_run (h : CaseRun.image? lowerRuns k = some n) : ∃ r ∈ lowerRuns,
    r.first ≤ k ∧ k ≤ r.last ∧ (k - r.first) % r.step = 0 ∧ n = r.image + (k - r.first) := by
  obtain ⟨r, hr, rfl⟩ := Option.map_eq_some_iff.1 h
  have hin := List.find?_some hr
  simp only [Bool.and_eq_true, decide_eq_true_eq, beq_iff_eq] at hin
  exact ⟨r, List.mem_of_find?_eq_some hr, hin.1.1, hin.1.2, hin.2, rfl⟩

/-- **The images of the table are not in the table.** -/
lemma image?_image (h : CaseRun.image? lowerRuns k = some n) : CaseRun.image? lowerRuns n = none := by
  obtain ⟨r, hr, hfirst, hlast, hstep, rfl⟩ := exists_run h
  cases himage : CaseRun.image? lowerRuns (r.image + (k - r.first)) with
  | none => rfl
  | some m =>
    obtain ⟨q, hq, hfirst', hlast', hstep', -⟩ := exists_run himage
    have happart := isApart_of_mem r hr q hq
    simp only [CaseRun.isApart, Bool.or_eq_true, Bool.and_eq_true, Nat.blt_eq] at happart
    rcases happart with h | h | ⟨hr, hq, hodd⟩
    · omega
    · omega
    · have hodd := Nat.eq_of_beq_eq_true hodd
      rw [Nat.eq_of_beq_eq_true hq] at hstep'
      rcases hr with hr | hr
      · rw [Nat.eq_of_beq_eq_true hr] at hstep
        omega
      · have hr := Nat.eq_of_beq_eq_true hr
        omega

lemma toNat_ofNat_image (h : CaseRun.image? lowerRuns k = some n) : (Char.ofNat n).toNat = n := by
  obtain ⟨r, hr, hfirst, hlast, -, rfl⟩ := exists_run h
  have hrange := (image_of_mem r hr).1
  refine toNat_ofNat ?_
  simp only [Nat.isValidChar]
  omega

lemma lookup_image (h : CaseRun.image? lowerRuns k = some n) : lowerExpansions.lookup n = none := by
  obtain ⟨r, hr, hfirst, hlast, -, rfl⟩ := exists_run h
  have hrange := (image_of_mem r hr).2 (304, 304) (by simp)
  have hne : (r.image + (k - r.first) == 304) = false := by
    simp only at hrange
    rw [beq_eq_false_iff_ne]
    omega
  simp only [lowerExpansions, List.lookup_cons, List.lookup_nil, hne]

lemma isBlank_image (h : CaseRun.image? lowerRuns k = some n) : isBlank (Char.ofNat n) = false := by
  have hn := toNat_ofNat_image h
  obtain ⟨r, hr, hfirst, hlast, -, rfl⟩ := exists_run h
  have hrange := (image_of_mem r hr).2
  simp only [List.forall_mem_cons, List.not_mem_nil, IsEmpty.forall_iff, implies_true, and_true] at hrange
  unfold isBlank
  simp only [hn, Bool.or_eq_false_iff, Bool.and_eq_false_iff, decide_eq_false_iff_not, beq_eq_false_iff_ne]
  omega

end Images

/-! ## Small characters -/

variable {t block before : Text} {c d : Char}

/-- A character that lower case leaves alone, wherever it stands. -/
def IsSmall (c : Char) : Prop := c.toNat ≠ 0x3A3 ∧ lowerChar c = [c]

/-- The table lists the ASCII capitals and the capital sigma, so what it does not list is small. -/
lemma isSmall_of_image?_none (hlookup : lowerExpansions.lookup c.toNat = none)
    (h : CaseRun.image? lowerRuns c.toNat = none) : IsSmall c := by
  have hunlisted : ∀ r ∈ lowerRuns, r.step = 1 → ¬ (r.first ≤ c.toNat ∧ c.toNat ≤ r.last) := by
    intro r hr hstep hin
    have hnot := List.find?_eq_none.1 (Option.map_eq_none_iff.1 h) r hr
    simp [hstep, hin, Nat.mod_one] at hnot
  refine ⟨fun hsigma => hunlisted ⟨931, 939, 1, 963⟩ (by decide +kernel) rfl ?_, ?_⟩
  · simp only
    omega
  · have hupper : isAsciiUpper c = false := by
      have hnot := hunlisted ⟨65, 90, 1, 97⟩ List.mem_cons_self rfl
      have hA : 'A'.toNat = 65 := rfl
      have hZ : 'Z'.toNat = 90 := rfl
      rw [isAsciiUpper, hA, hZ]
      simpa using hnot
    rw [lowerChar]
    split
    · rw [hupper]
      rfl
    · rw [mapCase, hlookup, h]

lemma isSmall_of_not_isAsciiUpper (hc : c.toNat < 128) (h : isAsciiUpper c = false) : IsSmall c := by
  refine ⟨by omega, ?_⟩
  rw [lowerChar, if_pos hc, h]
  rfl

/-- What a character leaves in lower case. -/
structure IsLowerOf (c : Char) (block : Text) : Prop where
  ne_nil : block ≠ []
  small : ∀ d ∈ block, IsSmall d
  blank : isBlank c = false → ∀ d ∈ block, isBlank d = false

lemma isLowerOf_singleton (hd : IsSmall d) (hblank : isBlank c = false → isBlank d = false) :
    IsLowerOf c [d] where
  ne_nil := List.cons_ne_nil _ _
  small := List.forall_mem_singleton.2 hd
  blank hc := List.forall_mem_singleton.2 (hblank hc)

/-- The one expansion of the table is a small letter with a dot above. -/
lemma eq_of_lookup {image : List Nat} (h : lowerExpansions.lookup c.toNat = some image) :
    image.map Char.ofNat = ['i', Char.ofNat 775] := by
  simp only [lowerExpansions, List.lookup_cons, List.lookup_nil] at h
  split at h
  · cases h
    rfl
  · cases h

lemma isLowerOf_lowerChar (c : Char) : IsLowerOf c (lowerChar c) := by
  by_cases hascii : c.toNat < 128
  · cases hupper : isAsciiUpper c with
    | false =>
      have hsmall := isSmall_of_not_isAsciiUpper hascii hupper
      rw [hsmall.2]
      exact isLowerOf_singleton hsmall id
    | true =>
      have hA : 'A'.toNat = 65 := rfl
      have hZ : 'Z'.toNat = 90 := rfl
      have hrange : 65 ≤ c.toNat ∧ c.toNat ≤ 90 := by simpa [isAsciiUpper, hA, hZ] using hupper
      have hd : (Char.ofNat (c.toNat + 32)).toNat = c.toNat + 32 := toNat_ofNat (.inl (by omega))
      have hnot : isAsciiUpper (Char.ofNat (c.toNat + 32)) = false := by
        rw [isAsciiUpper, hA, hZ, hd, Bool.and_eq_false_iff, decide_eq_false_iff_not, decide_eq_false_iff_not]
        omega
      rw [lowerChar, if_pos hascii, if_pos hupper]
      refine isLowerOf_singleton (isSmall_of_not_isAsciiUpper (by omega) hnot) fun _ => ?_
      unfold isBlank
      simp only [hd, Bool.or_eq_false_iff, Bool.and_eq_false_iff, decide_eq_false_iff_not, beq_eq_false_iff_ne]
      omega
  · rw [lowerChar, if_neg hascii, mapCase]
    cases hlookup : lowerExpansions.lookup c.toNat with
    | some image =>
      simp only [eq_of_lookup hlookup]
      have hi : IsSmall 'i' := isSmall_of_not_isAsciiUpper (by decide) (by decide)
      have hdot : IsSmall (Char.ofNat 775) := isSmall_of_image?_none (by decide +kernel) (by decide +kernel)
      exact ⟨List.cons_ne_nil _ _, by simp [hi, hdot], fun _ =>
        List.forall_mem_cons.2 ⟨by decide, List.forall_mem_singleton.2 (by decide)⟩⟩
    | none =>
      cases himage : CaseRun.image? lowerRuns c.toNat with
      | none => exact isLowerOf_singleton (isSmall_of_image?_none hlookup himage) id
      | some n =>
        have hn := toNat_ofNat_image himage
        refine isLowerOf_singleton (isSmall_of_image?_none ?_ ?_) fun _ => isBlank_image himage
        · rw [hn]
          exact lookup_image himage
        · rw [hn]
          exact image?_image himage

/-- Both small sigmas are small. -/
lemma isLowerOf_sigma (final : Bool) :
    IsLowerOf c [if final then Char.ofNat 0x3C2 else Char.ofNat 0x3C3] := by
  cases final with
  | false =>
    exact isLowerOf_singleton (isSmall_of_image?_none (by decide +kernel) (by decide +kernel)) fun _ => by decide
  | true =>
    exact isLowerOf_singleton (isSmall_of_image?_none (by decide +kernel) (by decide +kernel)) fun _ => by decide

/-! ## Small texts -/

lemma lowerAfter_cons (before : Text) (c : Char) (t : Text) :
    ∃ block, lowerAfter before (c :: t) = block ++ lowerAfter (c :: before) t ∧ IsLowerOf c block := by
  rw [lowerAfter]
  by_cases hc : c.toNat = 0x3A3
  · exact ⟨_, by rw [if_pos hc], isLowerOf_sigma (casedAhead before && !casedAhead t)⟩
  · exact ⟨_, by rw [if_neg hc], isLowerOf_lowerChar c⟩

/-- **A text in lower case is made of small characters.** -/
lemma isSmall_of_mem_lower (hd : d ∈ lower t) : IsSmall d := by
  have hafter : ∀ (t before : Text), ∀ d ∈ lowerAfter before t, IsSmall d := by
    intro t
    induction t with
    | nil => simp [lowerAfter]
    | cons c t ih =>
      intro before d hd
      obtain ⟨block, heq, hblock⟩ := lowerAfter_cons before c t
      rw [heq, List.mem_append] at hd
      rcases hd with hd | hd
      · exact hblock.small d hd
      · exact ih (c :: before) d hd
  exact hafter t [] d hd

lemma lower_eq_self (h : ∀ c ∈ t, IsSmall c) : lower t = t := by
  have hafter : ∀ before, lowerAfter before t = t := by
    induction t with
    | nil => exact fun _ => rfl
    | cons c t ih =>
      intro before
      obtain ⟨hc, ht⟩ := List.forall_mem_cons.1 h
      rw [lowerAfter, if_neg hc.1, hc.2, ih ht, List.singleton_append]
  exact hafter []

/-- **Lower case is reached in one step.** -/
theorem lower_lower (t : Text) : lower (lower t) = lower t :=
  lower_eq_self fun _ => isSmall_of_mem_lower

/-! ## Blanks -/

/-- The lower case of a text ends with what its last character leaves. -/
lemma exists_lowerAfter_concat (t : Text) (c : Char) (before : Text) :
    ∃ u block, lowerAfter before (t ++ [c]) = u ++ block ∧ IsLowerOf c block := by
  induction t generalizing before with
  | nil =>
    obtain ⟨block, heq, hblock⟩ := lowerAfter_cons before c []
    exact ⟨[], block, heq.trans (List.append_nil block), hblock⟩
  | cons d t ih =>
    obtain ⟨first, hfirst, -⟩ := lowerAfter_cons before d (t ++ [c])
    obtain ⟨u, block, heq, hblock⟩ := ih (d :: before)
    exact ⟨first ++ u, block, by rw [List.cons_append, hfirst, heq, List.append_assoc], hblock⟩

/-- **Lower case adds no blanks to the ends of a text.** -/
theorem trim_lower (h : trim t = t) : trim (lower t) = lower t := by
  rcases List.eq_nil_or_concat' t with rfl | ⟨u, c, rfl⟩
  · rfl
  refine trim_eq_self (fun d hd => ?_) fun d hd => ?_
  · cases hcons : u ++ [c] with
    | nil => exact absurd hcons (by simp)
    | cons a rest =>
      rw [hcons] at h hd
      have ha : isBlank a = false := isBlank_of_head?_trim (t := a :: rest) (by rw [h]; rfl)
      obtain ⟨block, heq, hblock⟩ := lowerAfter_cons [] a rest
      rw [lower, heq, List.head?_append_of_ne_nil _ hblock.ne_nil] at hd
      exact hblock.blank ha d (List.mem_of_mem_head? hd)
  · have hc : isBlank c = false := isBlank_of_getLast?_trim (t := u ++ [c]) (by rw [h]; simp)
    obtain ⟨v, block, heq, hblock⟩ := exists_lowerAfter_concat u c []
    rw [lower, heq, List.getLast?_append_of_ne_nil _ hblock.ne_nil] at hd
    exact hblock.blank hc d (List.mem_of_getLast? hd)

end Scaffold.Text
