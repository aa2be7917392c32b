import Mathlib.Tactic.Common
import Scaffold.Proofs.Names

/-!
# Lines

A text that is made of lines without newlines consists of these lines.  Names are such texts: blanks
are removed from them, and no change of case makes a newline of another character.
-/

namespace Scaffold

namespace Text

variable {t : Text} {c d : Char}

lemma splitOn_append (t rest : Text) (h : c ∉ t) : splitOn c (t ++ c :: rest) = t :: splitOn c rest := by
  induction t with
  | nil => simp [splitOn]
  | cons d t ih =>
    rw [List.mem_cons, not_or] at h
    rw [List.cons_append, splitOn, if_neg (Ne.symm h.1), ih h.2]

lemma splitOn_of_not_mem (h : c ∉ t) : splitOn c t = [t] := by
  induction t with
  | nil => rfl
  | cons d t ih =>
    rw [List.mem_cons, not_or] at h
    rw [splitOn, if_neg (Ne.symm h.1), ih h.2]

/-- Whether a text has no newline. -/
def isLine (t : Text) : Bool := t.all (· != '\n')

lemma isLine_iff : isLine t = true ↔ '\n' ∉ t := by
  simp only [isLine, List.all_eq_true, bne_iff_ne]
  exact ⟨fun h hmem => h _ hmem rfl, fun h c hc heq => h (heq ▸ hc)⟩

lemma isLine_append (s t : Text) : isLine (s ++ t) = (isLine s && isLine t) := List.all_append

/-- A last piece comes behind a separator. -/
lemma join_concat (separator last : Text) {ps : List Text} (h : ps ≠ []) :
    join separator (ps ++ [last]) = join separator ps ++ (separator ++ last) := by
  induction ps with
  | nil => exact absurd rfl h
  | cons p ps ih =>
    cases ps with
    | nil => simp [join]
    | cons q ps =>
      rw [List.cons_append, List.cons_append, join_cons_cons, ← List.cons_append, ih (List.cons_ne_nil q ps),
        join_cons_cons]
      simp only [List.append_assoc]

/-- **The lines of a file** are found again. -/
theorem splitOn_lines {ls : List Text} (hls : ls ≠ []) (h : ∀ l ∈ ls, '\n' ∉ l) :
    splitOn '\n' (lines ls) = ls := by
  induction ls with
  | nil => exact absurd rfl hls
  | cons l ls ih =>
    obtain ⟨hl, hrest⟩ := List.forall_mem_cons.1 h
    cases ls with
    | nil => exact splitOn_of_not_mem hl
    | cons next ls =>
      have htail := ih (List.cons_ne_nil _ _) hrest
      rw [lines] at htail
      rw [lines, join_cons_cons, List.append_assoc, List.singleton_append, splitOn_append _ _ hl, htail]

/-! ## Changes of case -/

lemma eq_of_ofNat_eq_newline {k : Nat} (h : Char.ofNat k = '\n') : k = 10 := by
  by_cases hk : k.isValidChar
  · rw [← toNat_ofNat hk, h]
    rfl
  · rw [Char.ofNat, dif_neg hk] at h
    exact absurd h (by decide)

lemma newline_of_mem_mapCase {runs : List CaseRun} {expansions : List (Nat × List Nat)}
    (hruns : ∀ r ∈ runs, 10 < r.image) (hexpansions : ∀ e ∈ expansions, 10 ∉ e.2)
    (h : '\n' ∈ mapCase runs expansions c) : c = '\n' := by
  rw [mapCase] at h
  split at h
  · rename_i image hlookup
    obtain ⟨k, hk, hnewline⟩ := List.mem_map.1 h
    rw [eq_of_ofNat_eq_newline hnewline] at hk
    obtain ⟨l₁, l₂, heq, -⟩ := List.lookup_eq_some_iff.1 hlookup
    exact absurd hk (hexpansions (c.toNat, image) (by simp [heq]))
  · split at h
    · rename_i k hk
      obtain ⟨r, hr, rfl⟩ := Option.map_eq_some_iff.1 hk
      have himage := eq_of_ofNat_eq_newline (List.mem_singleton.1 h).symm
      have hlarge := hruns r (List.mem_of_find?_eq_some hr)
      omega
    · exact (List.mem_singleton.1 h).symm

lemma newline_of_mem_lowerChar (h : '\n' ∈ lowerChar c) : c = '\n' := by
  rw [lowerChar] at h
  split at h
  · split at h
    · have := eq_of_ofNat_eq_newline (List.mem_singleton.1 h).symm
      omega
    · exact (List.mem_singleton.1 h).symm
  · exact newline_of_mem_mapCase (by decide +kernel) (by decide +kernel) h

lemma newline_of_mem_upperChar (h : '\n' ∈ upperChar c) : c = '\n' := by
  rw [upperChar] at h
  split at h
  · split at h
    · rename_i hlower
      have hk := eq_of_ofNat_eq_newline (List.mem_singleton.1 h).symm
      simp only [isAsciiLower, Bool.and_eq_true, decide_eq_true_eq] at hlower
      have ha : 'a'.toNat = 97 := rfl
      omega
    · exact (List.mem_singleton.1 h).symm
  · exact newline_of_mem_mapCase (by decide +kernel) (by decide +kernel) h

lemma newline_not_mem_lower (h : '\n' ∉ t) : '\n' ∉ lower t := by
  have hafter : ∀ (t before : Text), '\n' ∉ t → '\n' ∉ lowerAfter before t := by
    intro t
    induction t with
    | nil => exact fun _ h => h
    | cons c t ih =>
      intro before h
      rw [List.mem_cons, not_or] at h
      rw [lowerAfter, List.mem_append, not_or]
      refine ⟨fun hc => ?_, ih _ h.2⟩
      split at hc
      · split at hc
        · exact absurd (List.mem_singleton.1 hc) (by decide)
        · exact absurd (List.mem_singleton.1 hc) (by decide)
      · exact h.1 (newline_of_mem_lowerChar hc).symm
  exact hafter t [] h

end Text

namespace Names

variable {raw : Text} {n : Names}

lemma newline_not_mem_className (h : ofRaw? raw = some n) : '\n' ∉ n.className := by
  unfold ofRaw? at h
  split at h
  · cases h
  · rename_i c rest hraw
    have hfree : '\n' ∉ c :: rest := by
      rw [← hraw, Text.withoutBlanks, List.mem_filter]
      exact fun hmem => absurd hmem.2 (by decide +kernel)
    rw [List.mem_cons, not_or] at hfree
    obtain rfl := Option.some.inj h
    exact List.mem_append.not.2 (not_or.2
      ⟨fun hc => hfree.1 (Text.newline_of_mem_upperChar hc).symm, Text.newline_not_mem_lower hfree.2⟩)

lemma newline_not_mem_folder (h : ofRaw? raw = some n) : '\n' ∉ n.folder := by
  rw [folder_eq_lower h]
  exact Text.newline_not_mem_lower (newline_not_mem_className h)

end Names

end Scaffold
