import Mathlib.Data.List.TakeWhile
import Mathlib.Tactic.Common
import Scaffold.Proofs.Text.Occurrences
import Scaffold.Recovery.Search
import Scaffold.Types.Literal

/-!
# Searching a text that is a sequence of pieces

A generated file is a concatenation, and a search goes over it place by place.  The piece that a
search is for is found by a reading that succeeds; what has to be shown of all the other pieces is
that no reading succeeds at any place inside of them, and this whatever follows (`Inert`).  Inert
pieces are closed under concatenation, so a search is computed piece by piece
(`all_append_of_inert`, `all_append_of_read`).

Where a reading also sees the character before it (`Silent`), the last character of a piece is handed
to the next one.
-/

namespace Scaffold.Recovery

variable {α : Type} {phrase p q s t u v w rest : Text} {c d : Char}

/-! ## Steps of a reading -/

lemma after?_eq_some_iff : after? p s = some t ↔ s = p ++ t := by
  unfold after?
  constructor
  · intro h
    split at h
    · rename_i hp
      obtain ⟨r, rfl⟩ := List.isPrefixOf_iff_prefix.1 hp
      simp only [List.drop_left, Option.some.injEq] at h
      rw [h]
    · cases h
  · rintro rfl
    rw [if_pos (List.isPrefixOf_iff_prefix.2 (List.prefix_append _ _)), List.drop_left]

@[simp] lemma after?_append (p s : Text) : after? p (p ++ s) = some s :=
  after?_eq_some_iff.2 rfl

/-- A phrase is not read where a text starts with another character. -/
lemma after?_cons_of_ne (h : c ≠ d) (p s : Text) : after? (c :: p) (d :: s) = none := by
  simp [after?, h]

lemma after?_singleton (c : Char) (s : Text) : after? [c] (c :: s) = some s :=
  after?_append [c] s

lemma skipBlanks_cons_of_not_blank (h : Text.isBlank c = false) (s : Text) :
    skipBlanks (c :: s) = c :: s := by
  simp [skipBlanks, h]

@[simp] lemma skipBlanks_space (s : Text) : skipBlanks (' ' :: s) = skipBlanks s := rfl

/-- A name is read up to a character that does not belong to it. -/
lemma word?_append (hw : ∀ c ∈ w, Text.isWord c = true) (hne : w ≠ []) (hc : Text.isWord c = false)
    (s : Text) : word? (w ++ c :: s) = some (w, c :: s) := by
  obtain ⟨htake, hdrop⟩ := Text.takeWhile_append_cons hw hc s
  unfold word?
  rw [htake, hdrop]
  cases w with
  | nil => exact absurd rfl hne
  | cons d w => rfl

lemma word?_cons_of_not_word (h : Text.isWord c = false) (s : Text) : word? (c :: s) = none := by
  simp [word?, h]

/-- What is read as a name stands in front and consists of word characters. -/
lemma append_of_word? (h : word? s = some (w, t)) :
    s = w ++ t ∧ w ≠ [] ∧ ∀ c ∈ w, Text.isWord c = true := by
  unfold word? at h
  split at h
  · cases h
  · rename_i w' hw
    simp only [Option.some.injEq, Prod.mk.injEq] at h
    obtain ⟨rfl, rfl⟩ := h
    exact ⟨(List.takeWhile_append_dropWhile ..).symm, hw, fun c hc => List.mem_takeWhile_imp hc⟩

/-! ## All readings -/

/-- Nothing is read at a place inside of a text, whatever follows the text. -/
def Inert (read? : Text → Option α) (p : Text) : Prop :=
  ∀ t, t <:+ p → t ≠ [] → ∀ rest, read? (t ++ rest) = none

section All

variable {read? : Text → Option α}

lemma Inert.append (hp : Inert read? p) (hq : Inert read? q) : Inert read? (p ++ q) := by
  intro t ht hne rest
  obtain ⟨u, hu⟩ := ht
  rcases List.append_eq_append_iff.1 hu with ⟨x, rfl, rfl⟩ | ⟨x, rfl, rfl⟩
  · rcases eq_or_ne x [] with rfl | hx
    · exact hq q (List.suffix_refl _) (by simpa using hne) rest
    · rw [List.append_assoc]
      exact hp x (List.suffix_append _ _) hx _
  · exact hq t (List.suffix_append _ _) hne rest

lemma Inert.of_suffix (hp : Inert read? p) (hq : q <:+ p) : Inert read? q :=
  fun t ht hne rest => hp t (ht.trans hq) hne rest

/-- Nothing is read in a text none of whose characters can begin it. -/
lemma inert_of_heads (h : ∀ c ∈ p, ∀ s, read? (c :: s) = none) : Inert read? p := by
  intro t ht hne rest
  obtain ⟨c, t, rfl⟩ := List.exists_cons_of_ne_nil hne
  exact h c (ht.subset (by simp)) _

/-- Nothing is read where the phrase that begins it does not occur and cannot be completed. -/
lemma inert_of_phrase (hread : ∀ s, ¬ phrase <+: s → read? s = none) (hp : ¬ phrase <:+: p)
    (hcross : ∀ v, Text.Apart phrase p v) : Inert read? p := by
  intro t ht hne rest
  apply hread
  rw [← List.isPrefixOf_iff_prefix, Text.isPrefixOf_append_of_apart (hcross rest) ht hne,
    List.isPrefixOf_iff_prefix]
  exact fun h => hp (h.isInfix.trans ht.isInfix)

end All

section AllFrom

variable {read? : Text → Option (α × Text)} {a : α}

lemma allFrom_append (p rest : Text) : allFrom read? p.length (p ++ rest) = all read? rest := by
  induction p with
  | nil => rfl
  | cons c p ih =>
    rw [List.length_cons, List.cons_append, allFrom]
    exact ih

lemma all_append_of_inert (h : Inert read? p) (rest : Text) :
    all read? (p ++ rest) = all read? rest := by
  induction p with
  | nil => rfl
  | cons c p ih =>
    have hnone : read? (c :: (p ++ rest)) = none :=
      h (c :: p) (List.suffix_refl _) (by simp) rest
    rw [List.cons_append, all, allFrom, hnone]
    exact ih (h.of_suffix (List.suffix_cons _ _))

lemma all_append_of_read (h : read? (p ++ rest) = some (a, rest)) (hp : p ≠ []) :
    all read? (p ++ rest) = a :: all read? rest := by
  obtain ⟨c, p, rfl⟩ := List.exists_cons_of_ne_nil hp
  rw [List.cons_append] at h ⊢
  have hlength : (p ++ rest).length - rest.length = p.length := by
    rw [List.length_append, Nat.add_sub_cancel]
  rw [all, allFrom, h]
  show a :: allFrom read? ((p ++ rest).length - rest.length) (p ++ rest) = _
  rw [hlength, allFrom_append]

@[simp] lemma all_nil : all read? [] = [] := rfl

lemma all_of_inert (h : Inert read? p) : all read? p = [] := by
  have := all_append_of_inert h []
  rwa [List.append_nil] at this

/-- What is found was read at some place. -/
lemma exists_of_mem_allFrom {skip : Nat} (h : a ∈ allFrom read? skip p) : ∃ t left, read? t = some (a, left) := by
  induction p generalizing skip with
  | nil => cases h
  | cons c p ih =>
    cases skip with
    | succ skip => exact ih h
    | zero =>
      rw [allFrom] at h
      split at h
      · rename_i b left hread
        rcases List.mem_cons.1 h with rfl | h
        · exact ⟨_, left, hread⟩
        · exact ih h
      · exact ih h

end AllFrom

/-! ## The first reading -/

/-- Nothing is read at a place inside of a text that stands behind a character. -/
def Silent (read? : Option Char → Text → Option α) (before : Option Char) (p : Text) : Prop :=
  ∀ u t, p = u ++ t → t ≠ [] → ∀ rest, read? (u.getLast?.or before) (t ++ rest) = none

section First

variable {read? : Option Char → Text → Option α} {before : Option Char}

lemma silent_nil : Silent read? before [] := by
  intro u t h hne
  exact absurd (List.append_eq_nil_iff.1 h.symm).2 hne

lemma Silent.append (hp : Silent read? before p) (hq : Silent read? (p.getLast?.or before) q) :
    Silent read? before (p ++ q) := by
  intro u t h hne rest
  rcases List.append_eq_append_iff.1 h with ⟨x, rfl, rfl⟩ | ⟨x, rfl, rfl⟩
  · have := hq x t rfl hne rest
    rwa [← Option.or_assoc, ← List.getLast?_append] at this
  · rcases eq_or_ne x [] with rfl | hx
    · have := hq [] q (by simp) (by simpa using hne) rest
      simpa using this
    · rw [List.append_assoc]
      exact hp u x rfl hx _

lemma silent_flatMap {β : Type} {f : β → Text} {xs : List β}
    (h : ∀ x ∈ xs, ∀ before, Silent read? before (f x)) : Silent read? before (xs.flatMap f) := by
  induction xs generalizing before with
  | nil => exact silent_nil
  | cons x xs ih =>
    rw [List.flatMap_cons]
    exact (h x (by simp) before).append (ih fun y hy => h y (by simp [hy]))

lemma silent_of_all (h : ∀ b t, t <:+ p → t ≠ [] → ∀ rest, read? b (t ++ rest) = none) :
    Silent read? before p := by
  rintro u t rfl hne rest
  exact h _ t (List.suffix_append _ _) hne rest

lemma firstAfter?_append_of_silent (h : Silent read? before p) (rest : Text) :
    firstAfter? read? before (p ++ rest) = firstAfter? read? (p.getLast?.or before) rest := by
  induction p generalizing before with
  | nil => rfl
  | cons c p ih =>
    have hnone : read? before (c :: (p ++ rest)) = none := by
      have := h [] (c :: p) rfl (by simp) rest
      simpa using this
    have htail : Silent read? (some c) p := by
      rintro u t rfl hne rest
      have := h (c :: u) t rfl hne rest
      rwa [List.getLast?_cons, Option.some_or,
        show some (u.getLast?.getD c) = u.getLast?.or (some c) by cases u.getLast? <;> rfl] at this
    rw [List.cons_append, firstAfter?, hnone]
    show firstAfter? read? (some c) (p ++ rest) = _
    rw [ih htail]
    congr 1
    rw [List.getLast?_cons]
    cases p.getLast? <;> rfl

lemma firstAfter?_of_silent (h : Silent read? before p) (hnil : ∀ b, read? b [] = none) :
    firstAfter? read? before p = none := by
  have := firstAfter?_append_of_silent h []
  rw [List.append_nil] at this
  rw [this, firstAfter?, hnil]

lemma firstAfter?_of_read {a : α} (h : read? before s = some a) :
    firstAfter? read? before s = some a := by
  cases s with
  | nil => exact h
  | cons c s => rw [firstAfter?, h]

/-- What can be read somewhere is read somewhere first. -/
lemma isSome_firstAfter?_append (p : Text)
    (h : (firstAfter? read? (p.getLast?.or before) rest).isSome = true) :
    (firstAfter? read? before (p ++ rest)).isSome = true := by
  induction p generalizing before with
  | nil => exact h
  | cons c p ih =>
    rw [List.cons_append, firstAfter?]
    cases read? before (c :: (p ++ rest)) with
    | some a => rfl
    | none =>
      apply ih
      rw [List.getLast?_cons] at h
      cases hp : p.getLast? <;> rw [hp] at h <;> exact h

end First

section FirstPlain

variable {read? : Text → Option α}

lemma firstAfter?_const (before before' : Option Char) (s : Text) :
    firstAfter? (fun _ t => read? t) before s = firstAfter? (fun _ t => read? t) before' s := by
  cases s <;> rfl

lemma first?_append_of_inert (h : Inert read? p) (rest : Text) :
    first? read? (p ++ rest) = first? read? rest := by
  have hsilent : Silent (fun _ t => read? t) none p :=
    silent_of_all fun _ t ht hne rest => h t ht hne rest
  unfold first?
  rw [firstAfter?_append_of_silent hsilent, firstAfter?_const _ none]

lemma first?_of_inert (h : Inert read? p) (hnil : read? [] = none) : first? read? p = none := by
  have := first?_append_of_inert h []
  rw [List.append_nil] at this
  rw [this, first?, firstAfter?, hnil]

lemma first?_of_read {a : α} (h : read? s = some a) : first? read? s = some a :=
  firstAfter?_of_read h

lemma isSome_first?_append (p : Text) (h : (first? read? rest).isSome = true) :
    (first? read? (p ++ rest)).isSome = true := by
  apply isSome_firstAfter?_append
  rw [firstAfter?_const _ none]
  exact h

end FirstPlain

/-! ## String literals -/

/-- A literal is read up to its closing quote. -/
lemma literalBody?_escape (v rest : Text) :
    literalBody? '\'' (v.flatMap Literal.escapeChar ++ '\'' :: rest) =
      some (v.flatMap Literal.escapeChar, rest) := by
  induction v with
  | nil => rfl
  | cons c v ih =>
    rw [List.flatMap_cons]
    by_cases h : c = '\\' ∨ c = '\''
    · have hline : c ≠ '\n' := by rcases h with rfl | rfl <;> decide
      have hescape : Literal.escapeChar c = ['\\', c] := by simp [Literal.escapeChar, h]
      rw [hescape]
      show literalBody? '\'' ('\\' :: c :: (v.flatMap Literal.escapeChar ++ '\'' :: rest)) = _
      rw [literalBody?, if_neg hline, ih]
      rfl
    · have hescape : Literal.escapeChar c = [c] := by simp [Literal.escapeChar, h]
      push Not at h
      rw [hescape, List.singleton_append, List.cons_append, literalBody?, if_neg h.2, ih]
      · rfl
      · exact fun hc _ => h.1 hc
      · exact fun d r hc _ => h.1 hc

/-- Reading a literal undoes its escapes. -/
lemma unescape_escape (v : Text) : unescape (v.flatMap Literal.escapeChar) = v := by
  induction v with
  | nil => rfl
  | cons c v ih =>
    rw [List.flatMap_cons]
    by_cases h : c = '\\' ∨ c = '\''
    · have hescape : Literal.escapeChar c = ['\\', c] := by simp [Literal.escapeChar, h]
      have hline : c ≠ '\n' := by rcases h with rfl | rfl <;> decide
      rw [hescape]
      show unescape ('\\' :: c :: v.flatMap Literal.escapeChar) = _
      rw [unescape, ih]
      exact fun hc => absurd hc hline
    · have hescape : Literal.escapeChar c = [c] := by simp [Literal.escapeChar, h]
      push Not at h
      rw [hescape, List.singleton_append, unescape, ih]
      · exact fun r hc _ => h.1 hc
      · exact fun d r hc _ => h.1 hc

lemma literal?_quote (v rest : Text) :
    literal? (Literal.quote v ++ rest) = some (v.flatMap Literal.escapeChar, rest) := by
  have h : Literal.quote v ++ rest =
      '\'' :: (v.flatMap Literal.escapeChar ++ '\'' :: rest) := by simp [Literal.quote]
  rw [h, literal?]
  exact literalBody?_escape v rest

end Scaffold.Recovery
