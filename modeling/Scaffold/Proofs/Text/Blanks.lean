import Mathlib.Data.List.Basic
import Mathlib.Tactic.Common
import Scaffold.Text.Blank
import Scaffold.Text.Word

/-!
# Trimming

What trimming takes from a text is blank, and what it leaves does not end (or begin) with a blank.
The two directions of use are kept apart: `eq_trimRight_append` describes the result of trimming an
unknown text, and `trimRight_append_blanks` computes it for a text that is known.
-/

namespace Scaffold.Text

variable {t u v : Text} {c : Char}

/-- What is dropped satisfies the test and stands at the end, and what is kept does not end with
such a character. -/
lemma exists_dropRightWhile (p : Char → Bool) (t : Text) :
    ∃ w, t = dropRightWhile p t ++ w ∧ (∀ c ∈ w, p c = true) ∧
      ∀ c, (dropRightWhile p t).getLast? = some c → p c = false := by
  induction t with
  | nil => exact ⟨[], rfl, by simp, by simp [dropRightWhile]⟩
  | cons c t ih =>
    obtain ⟨w, ht, hw, hlast⟩ := ih
    rw [dropRightWhile]
    -- the first character goes only where nothing is left behind it
    cases hkept : dropRightWhile p t with
    | nil =>
      rw [hkept, List.nil_append] at ht
      simp only
      by_cases hc : p c = true
      · refine ⟨c :: w, by simp [hc, ht], ?_, by simp [hc]⟩
        intro d hd
        rcases List.mem_cons.1 hd with rfl | hd
        · exact hc
        · exact hw d hd
      · refine ⟨w, by simp [hc, ht], hw, ?_⟩
        intro d hd
        rw [if_neg hc] at hd
        simp only [List.getLast?_singleton, Option.some.injEq] at hd
        rw [← hd]
        exact Bool.eq_false_iff.2 hc
    | cons d kept =>
      rw [hkept] at ht hlast
      refine ⟨w, by simp [ht], hw, ?_⟩
      intro e he
      rw [List.getLast?_cons_cons] at he
      exact hlast e he

/-- What trimming takes away is blank. -/
lemma eq_trimRight_append (t : Text) :
    ∃ w, t = trimRight t ++ w ∧ (∀ c ∈ w, isBlank c = true) ∧
      ∀ c, (trimRight t).getLast? = some c → isBlank c = false :=
  exists_dropRightWhile isBlank t

/-- Blanks at the end are dropped, up to the last character that is none. -/
lemma dropRightWhile_append {p : Char → Bool} (hv : ∀ c ∈ v, p c = true) (hc : p c = false) :
    dropRightWhile p (u ++ c :: v) = u ++ [c] := by
  have hall : dropRightWhile p v = [] := by
    clear hc
    induction v with
    | nil => rfl
    | cons d v ih =>
      rw [dropRightWhile, ih fun e he => hv e (List.mem_cons_of_mem _ he)]
      simp [hv d (List.mem_cons_self ..)]
  induction u with
  | nil => simp [dropRightWhile, hall, hc]
  | cons d u ih =>
    rw [List.cons_append, dropRightWhile, ih]
    cases hu : u ++ [c] with
    | nil => simp at hu
    | cons e rest => simp [hu]

lemma trimRight_append_blanks (hv : ∀ c ∈ v, isBlank c = true) (hc : isBlank c = false) :
    trimRight (u ++ c :: v) = u ++ [c] :=
  dropRightWhile_append hv hc

/-- A text that does not end with a blank is trimmed already. -/
lemma trimRight_eq_self (h : ∀ c, t.getLast? = some c → isBlank c = false) : trimRight t = t := by
  rcases List.eq_nil_or_concat' t with rfl | ⟨u, c, rfl⟩
  · rfl
  · exact trimRight_append_blanks (by simp) (h c (by simp))

/-- A first character that is no blank stays. -/
lemma trimLeft_eq_self (h : ∀ c, t.head? = some c → isBlank c = false) : trimLeft t = t := by
  cases t with
  | nil => rfl
  | cons c t =>
    refine List.dropWhile_cons_of_neg ?_
    rw [h c rfl]
    exact Bool.false_ne_true

lemma trim_eq_self (hhead : ∀ c, t.head? = some c → isBlank c = false)
    (hlast : ∀ c, t.getLast? = some c → isBlank c = false) : trim t = t := by
  rw [trim, trimLeft_eq_self hhead, trimRight_eq_self hlast]

lemma isBlank_of_head?_trim (h : (trim t).head? = some c) : isBlank c = false := by
  obtain ⟨w, ht, -, -⟩ := eq_trimRight_append (trimLeft t)
  have hhead : (t.dropWhile isBlank).head? = some c := by
    refine (congrArg List.head? ht).trans ?_
    rw [List.head?_append, show trimRight (trimLeft t) = trim t from rfl, h]
    rfl
  have hnot := List.head?_dropWhile_not isBlank t
  rw [hhead] at hnot
  exact hnot

lemma isBlank_of_getLast?_trim (h : (trim t).getLast? = some c) : isBlank c = false := by
  obtain ⟨w, -, -, hlast⟩ := eq_trimRight_append (trimLeft t)
  exact hlast c h

/-- Trimming is done once. -/
lemma trim_trim (t : Text) : trim (trim t) = trim t :=
  trim_eq_self (fun _ => isBlank_of_head?_trim) fun _ => isBlank_of_getLast?_trim

/-- A character that is no blank survives trimming. -/
lemma mem_trim (hc : c ∈ t) (hblank : isBlank c = false) : c ∈ trim t := by
  have hleft : c ∈ trimLeft t := by
    rw [← List.takeWhile_append_dropWhile (p := isBlank) (l := t), List.mem_append] at hc
    refine hc.resolve_left fun htake => ?_
    rw [List.all_eq_true.1 List.all_takeWhile c htake] at hblank
    cases hblank
  obtain ⟨w, ht, hw, -⟩ := eq_trimRight_append (trimLeft t)
  rw [ht, List.mem_append] at hleft
  refine hleft.resolve_right fun hmem => ?_
  rw [hw c hmem] at hblank
  cases hblank

lemma trim_subset (t : Text) : trim t ⊆ t := by
  obtain ⟨w, ht, -⟩ := eq_trimRight_append (trimLeft t)
  have hright : trim t ⊆ trimLeft t := fun c hc => by
    rw [ht]
    exact List.mem_append_left _ hc
  exact List.Subset.trans hright (List.dropWhile_sublist _).subset

lemma exists_trimRight_cons (hc : isBlank c = false) (t : Text) : ∃ u, trimRight (c :: t) = c :: u := by
  obtain ⟨w, ht, hw, -⟩ := eq_trimRight_append (c :: t)
  cases htrim : trimRight (c :: t) with
  | nil =>
    rw [htrim, List.nil_append] at ht
    have hblank := hw c (by rw [← ht]; exact List.mem_cons_self ..)
    rw [hc] at hblank
    cases hblank
  | cons d u =>
    rw [htrim, List.cons_append, List.cons.injEq] at ht
    exact ⟨u, by rw [ht.1]⟩

/-- Trimming stops at a character that is no blank. -/
lemma trimRight_cons_of_not_blank (hc : isBlank c = false) (t : Text) :
    trimRight (u ++ c :: t) = u ++ trimRight (c :: t) := by
  obtain ⟨w, ht, hw, hlast⟩ := eq_trimRight_append (c :: t)
  obtain ⟨x, hx⟩ := exists_trimRight_cons hc t
  obtain ⟨y, d, hy⟩ := (List.eq_nil_or_concat' (trimRight (c :: t))).resolve_left (by simp [hx])
  have hd : isBlank d = false := hlast d (by rw [hy]; simp)
  rw [hy] at ht ⊢
  rw [ht, List.append_assoc, List.singleton_append, ← List.append_assoc,
    trimRight_append_blanks hw hd, List.append_assoc]

/-- A text that does not end with a blank and is part of another one is part of what trimming
leaves. -/
lemma sublist_trimRight (h : u.Sublist t) (hu : ∀ c, u.getLast? = some c → isBlank c = false) :
    u.Sublist (trimRight t) := by
  obtain ⟨w, ht, hw, -⟩ := eq_trimRight_append t
  rw [ht] at h
  obtain ⟨x, y, rfl, hx, hy⟩ := List.sublist_append_iff.1 h
  rcases List.eq_nil_or_concat' y with rfl | ⟨y, c, rfl⟩
  · rw [List.append_nil]
    exact hx
  · have hblank := hw c (hy.subset (by simp))
    have hnot := hu c (by rw [← List.append_assoc]; simp)
    rw [hblank] at hnot
    cases hnot

/-! ## Words -/

/-- The code points that are blank. -/
lemma mem_of_isBlank (h : isBlank c = true) :
    c.toNat ∈ [9, 10, 11, 12, 13, 28, 29, 30, 31, 32, 0x85, 0xA0, 0x1680, 0x2000, 0x2001, 0x2002,
      0x2003, 0x2004, 0x2005, 0x2006, 0x2007, 0x2008, 0x2009, 0x200A, 0x2028, 0x2029, 0x202F, 0x205F,
      0x3000] := by
  simp only [isBlank, Bool.or_eq_true, Bool.and_eq_true, decide_eq_true_eq, beq_iff_eq] at h
  simp only [List.mem_cons, List.not_mem_nil, or_false]
  omega

lemma isWord_eq_false_of_isBlank (h : isBlank c = true) : isWord c = false := by
  have hwords : ∀ n ∈ [0x85, 0xA0, 0x1680, 0x2000, 0x2001, 0x2002, 0x2003, 0x2004, 0x2005, 0x2006,
      0x2007, 0x2008, 0x2009, 0x200A, 0x2028, 0x2029, 0x202F, 0x205F, 0x3000],
      inRanges wordRanges n = false := by
    decide +kernel
  have hmem := mem_of_isBlank h
  by_cases ha : c.toNat < 128
  · have hsmall : c.toNat ≤ 32 := by
      simp only [List.mem_cons, List.not_mem_nil, or_false] at hmem
      omega
    have h1 : 'A'.toNat = 65 := rfl
    have h2 : 'a'.toNat = 97 := rfl
    have h3 : '0'.toNat = 48 := rfl
    have hunderscore : c ≠ '_' := by
      rintro rfl
      exact absurd hsmall (by decide)
    simp [isWord, ha, isAsciiWord, isAsciiAlnum, isAsciiUpper, isAsciiLower, isAsciiDigit, h1, h2, h3,
      hunderscore]
    omega
  · rw [isWord, if_neg ha]
    apply hwords
    simp only [List.mem_cons, List.not_mem_nil, or_false] at hmem ⊢
    omega

/-- A word character is no blank. -/
lemma isBlank_eq_false_of_isWord (h : isWord c = true) : isBlank c = false := by
  by_contra hc
  rw [isWord_eq_false_of_isBlank (by simpa using hc)] at h
  cases h

end Scaffold.Text
