import Mathlib.Data.List.TakeWhile
import Mathlib.Tactic.Common
import Scaffold.Names
import Scaffold.Proofs.Text.Case

/-!
# The characters of module names

The folder of a module is the lower case of its class name, so what is known of the folder says
what the class name can hold.  The one surprise is beyond ASCII: the Kelvin sign has an ASCII lower
case, so a class name with an ASCII folder need not be ASCII itself.  It still consists of word
characters (`isWord_of_mem_className`), and none of its ASCII characters is punctuation
(`isIdentifierRest_of_mem_className`), which is all that the generated code asks of it.
-/

namespace Scaffold

namespace Text

/-- Whether a text is an identifier of the generated code, to its last character. -/
def isExactIdentifier : Text → Bool
  | [] => false
  | c :: rest => isIdentifierStart c && rest.all isIdentifierRest

lemma isIdentifierRest_of_mem {t : Text} (h : isExactIdentifier t = true) {c : Char} (hc : c ∈ t) :
    isIdentifierRest c = true := by
  cases t with
  | nil => simp at hc
  | cons d rest =>
    simp only [isExactIdentifier, Bool.and_eq_true, List.all_eq_true] at h
    rcases List.mem_cons.1 hc with rfl | hc
    · simp [isIdentifierRest, h.1]
    · exact h.2 c hc

lemma ne_nil_of_isExactIdentifier {t : Text} (h : isExactIdentifier t = true) : t ≠ [] := by
  rintro rfl
  simp [isExactIdentifier] at h

lemma isIdentifierRest_of_isAsciiWord {c : Char} (h : isAsciiWord c = true) :
    isIdentifierRest c = true := by
  simp only [isAsciiWord, isAsciiAlnum, Bool.or_eq_true] at h
  simp only [isIdentifierRest, isIdentifierStart, Bool.or_eq_true]
  tauto

lemma isAsciiWord_of_isIdentifierRest {c : Char} (h : isIdentifierRest c = true) (hc : c ≠ '$') :
    isAsciiWord c = true := by
  simp only [isIdentifierRest, isIdentifierStart, Bool.or_eq_true, beq_iff_eq, hc, or_false] at h
  simp only [isAsciiWord, isAsciiAlnum, Bool.or_eq_true, beq_iff_eq]
  tauto

lemma toNat_lt_of_isIdentifierRest {c : Char} (h : isIdentifierRest c = true) : c.toNat < 128 := by
  rcases eq_or_ne c '$' with rfl | hc
  · decide
  have hw := isAsciiWord_of_isIdentifierRest h hc
  simp only [isAsciiWord, isAsciiAlnum, isAsciiUpper, isAsciiLower, isAsciiDigit, Bool.or_eq_true,
    Bool.and_eq_true, decide_eq_true_eq, beq_iff_eq] at hw
  have h1 : 'Z'.toNat = 90 := rfl
  have h2 : 'z'.toNat = 122 := rfl
  have h3 : '9'.toNat = 57 := rfl
  rcases hw with ((hw | hw) | hw) | rfl
  · omega
  · omega
  · omega
  · decide

/-- A character that names of the generated code can have: a word character or a dollar sign. -/
def isNameChar (c : Char) : Bool := isWord c || c == '$'

lemma isNameChar_of_isWord {c : Char} (h : isWord c = true) : isNameChar c = true := by
  simp [isNameChar, h]

lemma isNameChar_of_isIdentifierRest {c : Char} (h : isIdentifierRest c = true) :
    isNameChar c = true := by
  rcases eq_or_ne c '$' with rfl | hc
  · rfl
  · exact isNameChar_of_isWord (isWord_of_isAsciiWord (isAsciiWord_of_isIdentifierRest h hc))

lemma isBlank_eq_false_of_isNameChar {c : Char} (h : isNameChar c = true) : isBlank c = false := by
  simp only [isNameChar, Bool.or_eq_true, beq_iff_eq] at h
  rcases h with h | rfl
  · exact isBlank_eq_false_of_isWord h
  · rfl

/-- A name holds none of the other characters. -/
lemma not_mem_of_isNameChar {t : Text} {c : Char} (h : ∀ c ∈ t, isNameChar c = true)
    (hc : isNameChar c = false) : c ∉ t := by
  intro hmem
  rw [h c hmem] at hc
  cases hc

lemma not_mem_of_isWord {t : Text} {c : Char} (h : ∀ c ∈ t, isWord c = true)
    (hc : isWord c = false) : c ∉ t := by
  intro hmem
  rw [h c hmem] at hc
  cases hc

/-- A name that is no word, cut at its first dollar sign. -/
lemma exists_first_dollar {t : Text} (h : ∀ c ∈ t, isNameChar c = true)
    (hword : ¬ ∀ c ∈ t, isWord c = true) : ∃ w u, t = w ++ '$' :: u ∧ ∀ c ∈ w, isWord c = true := by
  have hsplit := List.takeWhile_append_dropWhile (p := isWord) (l := t)
  have hw : ∀ c ∈ t.takeWhile isWord, isWord c = true := fun c hc => List.mem_takeWhile_imp hc
  cases hdrop : t.dropWhile isWord with
  | nil =>
    rw [hdrop, List.append_nil] at hsplit
    rw [hsplit] at hw
    exact absurd hw hword
  | cons d u =>
    rw [hdrop] at hsplit
    have hd : isWord d = false := by
      have := List.head_dropWhile_not isWord (l := t) (by simp [hdrop])
      simpa [hdrop] using this
    have hname := h d (by rw [← hsplit]; simp)
    simp only [isNameChar, hd, Bool.false_or, beq_iff_eq] at hname
    exact ⟨_, u, by rw [← hname, hsplit], hw⟩

/-- A name that is no word, cut at its last dollar sign. -/
lemma exists_last_dollar {t : Text} (h : ∀ c ∈ t, isNameChar c = true)
    (hword : ¬ ∀ c ∈ t, isWord c = true) : ∃ u w, t = u ++ '$' :: w ∧ ∀ c ∈ w, isWord c = true := by
  have hreverse : ¬ ∀ c ∈ t.reverse, isWord c = true := by simpa using hword
  obtain ⟨w, u, ht, hw⟩ := exists_first_dollar (by simpa using h) hreverse
  refine ⟨u.reverse, w.reverse, ?_, by simpa using hw⟩
  rw [← List.reverse_reverse t, ht]
  simp

end Text

namespace Names

variable {raw : Text} {n : Names}

lemma folder_eq_lower (h : ofRaw? raw = some n) : n.folder = Text.lower n.className := by
  unfold ofRaw? at h
  split at h
  · simp at h
  · simp only [Option.some.injEq] at h
    subst h
    rfl

lemma className_ne_nil (h : ofRaw? raw = some n) (hf : n.folder ≠ []) : n.className ≠ [] := by
  intro hc
  rw [folder_eq_lower h, hc] at hf
  exact hf rfl

/-- The ASCII characters of a class name are those of identifiers if the folder is one. -/
theorem isIdentifierRest_of_mem_className (h : ofRaw? raw = some n)
    (hf : Text.isExactIdentifier n.folder = true) {c : Char} (hc : c ∈ n.className)
    (ha : c.toNat < 128) : Text.isIdentifierRest c = true := by
  have hlower : ∀ d ∈ Text.lowerChar c, d ∈ n.folder := by
    rw [folder_eq_lower h]
    intro d hd
    exact Text.mem_lowerAfter hc (by omega) hd []
  rw [Text.lowerChar, if_pos ha] at hlower
  by_cases hu : Text.isAsciiUpper c = true
  · simp [Text.isIdentifierRest, Text.isIdentifierStart, hu]
  · rw [if_neg hu] at hlower
    exact Text.isIdentifierRest_of_mem hf (hlower c (by simp))

/-- A character of a class name, where the folder is in ASCII: an upper case letter, a character of
the folder, or a word character beyond ASCII. -/
lemma cases_of_mem_className (h : ofRaw? raw = some n) (hf : ∀ d ∈ n.folder, d.toNat < 128) {c : Char}
    (hc : c ∈ n.className) : Text.isAsciiUpper c = true ∨ c ∈ n.folder ∨ Text.isWord c = true := by
  rw [folder_eq_lower h] at hf ⊢
  rcases Text.mem_lower_of_mem hc with hlower | ⟨d, hd, h128⟩
  · by_cases ha : c.toNat < 128
    · rw [Text.lowerChar, if_pos ha] at hlower
      by_cases hu : Text.isAsciiUpper c = true
      · exact .inl hu
      · rw [if_neg hu] at hlower
        exact .inr (.inl (hlower c (by simp)))
    · exact .inr (.inr (Text.isWord_of_lowerChar_ascii (by omega) fun d hd => hf d (hlower d hd)))
  · exact absurd (hf d hd) (by omega)

lemma isWord_of_isAsciiUpper {c : Char} (h : Text.isAsciiUpper c = true) : Text.isWord c = true :=
  Text.isWord_of_isAsciiWord (by simp [Text.isAsciiWord, Text.isAsciiAlnum, h])

/-- A class name consists of word characters if the folder is an ASCII word. -/
theorem isWord_of_mem_className (h : ofRaw? raw = some n)
    (hf : ∀ c ∈ n.folder, Text.isAsciiWord c = true) {c : Char} (hc : c ∈ n.className) :
    Text.isWord c = true := by
  have hascii : ∀ d ∈ n.folder, d.toNat < 128 := fun d hd =>
    Text.toNat_lt_of_isIdentifierRest (Text.isIdentifierRest_of_isAsciiWord (hf d hd))
  rcases cases_of_mem_className h hascii hc with hu | hmem | hword
  · exact isWord_of_isAsciiUpper hu
  · exact Text.isWord_of_isAsciiWord (hf c hmem)
  · exact hword

/-- A class name consists of name characters if the folder is an identifier. -/
theorem isNameChar_of_mem_className (h : ofRaw? raw = some n)
    (hf : Text.isExactIdentifier n.folder = true) {c : Char} (hc : c ∈ n.className) :
    Text.isNameChar c = true := by
  have hrest : ∀ d ∈ n.folder, Text.isIdentifierRest d = true :=
    fun d hd => Text.isIdentifierRest_of_mem hf hd
  have hascii : ∀ d ∈ n.folder, d.toNat < 128 := fun d hd => Text.toNat_lt_of_isIdentifierRest (hrest d hd)
  rcases cases_of_mem_className h hascii hc with hu | hmem | hword
  · exact Text.isNameChar_of_isWord (isWord_of_isAsciiUpper hu)
  · exact Text.isNameChar_of_isIdentifierRest (hrest c hmem)
  · exact Text.isNameChar_of_isWord hword

/-- Behind its first letter the class name that an ASCII name stands for has no upper case letter. -/
lemma isAsciiUpper_eq_false_of_mem_tail (h : ofRaw? raw = some n) (hraw : ∀ c ∈ raw, c.toNat < 128) {d : Char}
    (hd : d ∈ n.className.tail) : Text.isAsciiUpper d = false := by
  unfold ofRaw? at h
  split at h
  · cases h
  · rename_i c rest hsplit
    have hsub : ∀ e ∈ c :: rest, e.toNat < 128 := by
      intro e he
      rw [← hsplit] at he
      obtain ⟨w, hw, -⟩ := Text.eq_trimRight_append (Text.trimLeft raw)
      have htrim : e ∈ Text.trimLeft raw := hw ▸ List.mem_append_left _ (List.mem_of_mem_filter he)
      exact hraw e ((List.dropWhile_sublist _).subset htrim)
    obtain ⟨hc, hrest⟩ := List.forall_mem_cons.1 hsub
    obtain rfl := Option.some.inj h
    have hfirst : ∃ c', Text.upperChar c = [c'] := by
      rw [Text.upperChar, if_pos hc]
      split
      · exact ⟨_, rfl⟩
      · exact ⟨_, rfl⟩
    obtain ⟨c', hc'⟩ := hfirst
    rw [hc'] at hd
    exact Text.isAsciiUpper_eq_false_of_mem_lower hrest hd

end Names

end Scaffold
