import Mathlib.Data.List.Basic
import Mathlib.Tactic.Common
import Scaffold.Router.Scan

/-!
# The scan for a closing bracket, character by character

`closing?` reads escape pairs and the two slashes of a comment at once, so its state between two
characters is not visible and it cannot be cut in the middle of a text.  `Scan` is the same scan
with one step per character: what is pending after a backslash or a slash is part of the state.  A
text then acts on states by a fold, an insertion into a text is an insertion into the fold, and the
question whether an edit moves the end of a list becomes the question what the inserted text does
to one state (`closing?_eq_some_iff`, `closing?_eq_none_iff`).
-/

namespace Scaffold.Router

/-- Where a scan stands between two characters. -/
inductive Phase where
  | code
  /-- In code, behind a slash that may begin a comment. -/
  | slash
  | string (quote : Char)
  /-- In a string literal, behind a backslash. -/
  | escaped (quote : Char)
  | comment
  deriving DecidableEq, Repr

/-- A scan: the number of open brackets, and where it stands. -/
structure Scan where
  depth : Int
  phase : Phase
  deriving DecidableEq, Repr

namespace Phase

/-- The phase behind a character of code. -/
def inCode (c : Char) : Phase := if isQuote c then .string c else if c = '/' then .slash else .code

/-- The phase behind a character, whatever becomes of the brackets. -/
def next : Phase → Char → Phase
  | .code, c => inCode c
  | .slash, c => if c = '/' then .comment else inCode c
  | .string q, c => if c = '\\' then .escaped q else if c = q then .code else .string q
  | .escaped q, _ => .string q
  | .comment, c => if c = '\n' then .code else .comment

variable {p : Phase} {c q : Char}

/-- A character that opens or continues a string literal. -/
lemma of_next_string (h : p.next c = .string q ∨ p.next c = .escaped q) :
    ((p = .code ∨ p = .slash ∧ c ≠ '/') ∧ isQuote c = true ∧ c = q) ∨ p = .string q ∨ p = .escaped q := by
  have hcode : inCode c = .string q ∨ inCode c = .escaped q → isQuote c = true ∧ c = q := by
    intro h
    unfold inCode at h
    split at h
    · rename_i hquote
      exact ⟨hquote, by simpa using h⟩
    · split at h <;> simp at h
  cases p with
  | code => exact .inl ⟨.inl rfl, hcode h⟩
  | slash =>
    rw [next] at h
    split at h
    · simp at h
    · exact .inl ⟨.inr ⟨rfl, ‹_›⟩, hcode h⟩
  | string q₁ =>
    rw [next] at h
    split at h
    · exact .inr (.inl (by simpa using h))
    · split at h
      · simp at h
      · exact .inr (.inl (by simpa using h))
  | escaped q₁ => exact .inr (.inr (by simpa [next] using h))
  | comment =>
    rw [next] at h
    split at h <;> simp at h

/-- A character that leads to code continues it, or ends a string literal or a comment. -/
lemma of_next_code (h : p.next c = .code ∨ p.next c = .slash) :
    (p = .code ∨ p = .slash ∧ c ≠ '/') ∨ p = .string c ∨ c = '\n' := by
  cases p with
  | code => exact .inl (.inl rfl)
  | slash =>
    refine .inl (.inr ⟨rfl, ?_⟩)
    rintro rfl
    simp [next] at h
  | string q =>
    rw [next] at h
    split at h
    · simp at h
    · split at h
      · exact .inr (.inl (by rw [‹c = q›]))
      · simp at h
  | escaped q => simp [next] at h
  | comment =>
    rw [next] at h
    split at h
    · exact .inr (.inr ‹_›)
    · simp at h

/-- Only a slash can begin a comment. -/
lemma eq_slash_of_next (h : p.next c = .slash) : c = '/' := by
  have hcode : inCode c = .slash → c = '/' := by
    intro h
    unfold inCode at h
    split at h
    · cases h
    · by_contra hc
      rw [if_neg hc] at h
      cases h
  cases p with
  | code => exact hcode h
  | slash =>
    rw [next] at h
    split at h
    · cases h
    · exact hcode h
  | string q =>
    rw [next] at h
    split at h
    · cases h
    · split at h <;> cases h
  | escaped q => cases h
  | comment =>
    rw [next] at h
    split at h <;> cases h

end Phase

namespace Scan

/-- The scan that a mode between two tokens stands for. -/
def ofMode (depth : Int) : Mode → Scan
  | .code => ⟨depth, .code⟩
  | .string q => ⟨depth, .string q⟩
  | .comment => ⟨depth, .comment⟩

/-- A character of code; there is no next state behind the bracket that closes the list. -/
def readCode (depth : Int) (c : Char) : Option Scan :=
  if c = ']' && depth = 1 then none
  else some ⟨if c = '[' then depth + 1 else if c = ']' then depth - 1 else depth,
    if isQuote c then .string c else if c = '/' then .slash else .code⟩

/-- The state after one character. -/
def step (s : Scan) (c : Char) : Option Scan :=
  match s.phase with
  | .code => readCode s.depth c
  | .slash => if c = '/' then some ⟨s.depth, .comment⟩ else readCode s.depth c
  | .string q => some ⟨s.depth, if c = '\\' then .escaped q else if c = q then .code else .string q⟩
  | .escaped q => some ⟨s.depth, .string q⟩
  | .comment => some ⟨s.depth, if c = '\n' then .code else .comment⟩

/-- Brackets have no effect on the phase. -/
lemma phase_step {s s' : Scan} {c : Char} (h : s.step c = some s') : s'.phase = s.phase.next c := by
  have hread : ∀ {d}, readCode d c = some s' → s'.phase = .inCode c := by
    intro d hread
    unfold readCode at hread
    split at hread
    · cases hread
    · rw [← Option.some.inj hread]
      rfl
  obtain ⟨d, p⟩ := s
  cases p with
  | code => exact hread h
  | slash =>
    simp only [step] at h
    rw [Phase.next]
    split at h
    · rename_i hc
      rw [if_pos hc, ← Option.some.inj h]
    · rename_i hc
      rw [if_neg hc, hread h]
  | string q =>
    rw [← Option.some.inj h]
    rfl
  | escaped q =>
    rw [← Option.some.inj h]
    rfl
  | comment =>
    rw [← Option.some.inj h]
    rfl

/-- The state after a text, if the list is not closed in it. -/
def run (s : Scan) (t : Text) : Option Scan := t.foldlM step s

@[simp] lemma run_nil (s : Scan) : s.run [] = some s := rfl

@[simp] lemma run_cons (s : Scan) (c : Char) (t : Text) :
    s.run (c :: t) = (s.step c).bind fun s' => s'.run t := rfl

lemma run_append (s : Scan) (t u : Text) :
    s.run (t ++ u) = (s.run t).bind fun s' => s'.run u := by
  simp [run, List.foldlM_append]

lemma exists_step_of_run_concat {s s' : Scan} {t : Text} {c : Char} (h : s.run (t ++ [c]) = some s') :
    ∃ s₁, s.run t = some s₁ ∧ s₁.step c = some s' := by
  rw [run_append] at h
  obtain ⟨s₁, hrun, hlast⟩ := Option.bind_eq_some_iff.1 h
  obtain ⟨s₂, hstep, hs⟩ := Option.bind_eq_some_iff.1 hlast
  obtain rfl : s₂ = s' := Option.some.inj hs
  exact ⟨s₁, hrun, hstep⟩

/-- Splits a text before the character that a scan does not pass. -/
def stop? (s : Scan) : Text → Option (Text × Text)
  | [] => none
  | c :: rest =>
    match s.step c with
    | none => some ([], c :: rest)
    | some s' => (s'.stop? rest).map fun (b, a) => (c :: b, a)

/-- A slash that is not followed by another one has no effect. -/
lemma stop?_slash (d : Int) {rest : Text} (h : ∀ t, rest ≠ '/' :: t) :
    (⟨d, .slash⟩ : Scan).stop? rest = (⟨d, .code⟩ : Scan).stop? rest := by
  cases rest with
  | nil => rfl
  | cons c t =>
    have hc : c ≠ '/' := fun hc => h t (by rw [hc])
    simp [stop?, step, hc]

end Scan

/-- The scan by tokens is the scan by characters. -/
theorem closing?_eq_stop? (depth : Int) (mode : Mode) (text : Text) :
    closing? depth mode text = (Scan.ofMode depth mode).stop? text := by
  fun_induction closing? depth mode text with
  | case1 => rfl
  | case2 depth q d rest ih =>
    rw [ih]
    cases h : (Scan.ofMode depth (.string q)).stop? rest <;>
      simp_all [Scan.ofMode, Scan.stop?, Scan.step]
  | case3 depth q c rest hpair ih =>
    by_cases hc : c = '\\'
    · subst hc
      cases rest with
      | nil => simp [closing?, Scan.stop?, Scan.ofMode, Scan.step]
      | cons d rest => exact absurd rfl (hpair d rest rfl)
    · rw [ih]
      rcases eq_or_ne c q with rfl | hq
      · simp [Scan.ofMode, Scan.stop?, Scan.step, hc]
      · simp [Scan.ofMode, Scan.stop?, Scan.step, hc, hq]
  | case4 depth c rest ih =>
    rw [ih]
    by_cases hc : c = '\n' <;> simp [Scan.ofMode, Scan.stop?, Scan.step, hc]
  | case5 depth rest ih =>
    rw [ih]
    cases h : (Scan.ofMode depth .comment).stop? rest <;>
      simp_all [Scan.ofMode, Scan.stop?, Scan.step, Scan.readCode, isQuote]
  | case6 depth c rest hslash hclose =>
    simp_all [Scan.ofMode, Scan.stop?, Scan.step, Scan.readCode]
  | case7 depth c rest hslash hopen depth' ih =>
    have hstep : (Scan.ofMode depth .code).step c =
        some ⟨depth', if isQuote c then .string c else if c = '/' then .slash else .code⟩ :=
      if_neg hopen
    rw [ih, Scan.stop?, hstep]
    by_cases hq : isQuote c = true
    · simp only [hq, if_true]
      rfl
    rcases eq_or_ne c '/' with rfl | hc
    · -- a single slash: the next character is not another one
      rw [if_neg hq, if_neg hq, if_pos rfl]
      simp only [Scan.stop?_slash _ fun t => hslash t rfl]
      rfl
    · rw [if_neg hq, if_neg hq, if_neg hc]
      rfl

namespace Scan

/-- A scan stops at the first character that it does not pass. -/
lemma stop?_eq_some_iff {s : Scan} {t b a : Text} :
    s.stop? t = some (b, a) ↔
      ∃ c rest s', a = c :: rest ∧ t = b ++ a ∧ s.run b = some s' ∧ s'.step c = none := by
  induction t generalizing s b with
  | nil =>
    refine ⟨fun h => by simp [stop?] at h, ?_⟩
    rintro ⟨c, rest, s', rfl, ht, -⟩
    simp at ht
  | cons d t ih =>
    cases hd : s.step d with
    | none =>
      simp only [stop?, hd, Option.some.injEq, Prod.mk.injEq]
      constructor
      · rintro ⟨rfl, rfl⟩
        exact ⟨d, t, s, rfl, rfl, rfl, hd⟩
      · rintro ⟨c, rest, s', rfl, ht, hrun, hstep⟩
        cases b with
        | nil => exact ⟨rfl, ht⟩
        | cons e b =>
          obtain ⟨rfl, -⟩ := List.cons.inj ht
          simp [hd] at hrun
    | some s₁ =>
      simp only [stop?, hd, Option.map_eq_some_iff, Prod.exists, Prod.mk.injEq]
      constructor
      · rintro ⟨b, a, h, rfl, rfl⟩
        obtain ⟨c, rest, s', rfl, rfl, hrun, hstep⟩ := ih.1 h
        exact ⟨c, rest, s', rfl, rfl, by simpa [hd] using hrun, hstep⟩
      · rintro ⟨c, rest, s', rfl, ht, hrun, hstep⟩
        cases b with
        | nil =>
          obtain ⟨rfl, -⟩ := List.cons.inj ht
          obtain rfl : s = s' := by simpa using hrun
          simp [hd] at hstep
        | cons e b =>
          obtain ⟨rfl, rfl⟩ := List.cons.inj ht
          exact ⟨b, c :: rest, ih.2 ⟨c, rest, s', rfl, rfl, by simpa [hd] using hrun, hstep⟩,
            rfl, rfl⟩

/-- A scan that never stops passes the whole text. -/
lemma stop?_eq_none_iff {s : Scan} {t : Text} : s.stop? t = none ↔ ∃ s', s.run t = some s' := by
  induction t generalizing s with
  | nil => simp [stop?]
  | cons d t ih => cases hd : s.step d <;> simp [stop?, hd, ih]

/-- Only a closing bracket of the list itself stops a scan. -/
lemma step_eq_none_iff {s : Scan} {c : Char} :
    s.step c = none ↔ c = ']' ∧ s.depth = 1 ∧ (s.phase = .code ∨ s.phase = .slash) := by
  obtain ⟨d, p⟩ := s
  cases p <;> simp only [step, readCode]
  · simp
  · by_cases hc : c = '/'
    · simp [hc]
    · simp [hc]
  all_goals simp

end Scan

/-- **The end of a list** is the first bracket at which the scan stands in code with one bracket
open. -/
theorem closing?_eq_some_iff {depth : Int} {mode : Mode} {text before after : Text} :
    closing? depth mode text = some (before, after) ↔
      ∃ rest s, after = ']' :: rest ∧ text = before ++ after ∧
        (Scan.ofMode depth mode).run before = some s ∧ s.depth = 1 ∧
        (s.phase = .code ∨ s.phase = .slash) := by
  rw [closing?_eq_stop?, Scan.stop?_eq_some_iff]
  constructor
  · rintro ⟨c, rest, s, rfl, ht, hrun, hstep⟩
    obtain ⟨rfl, h1, hp⟩ := Scan.step_eq_none_iff.1 hstep
    exact ⟨rest, s, rfl, ht, hrun, h1, hp⟩
  · rintro ⟨rest, s, rfl, ht, hrun, h1, hp⟩
    exact ⟨']', rest, s, rfl, ht, hrun, Scan.step_eq_none_iff.2 ⟨rfl, h1, hp⟩⟩

/-- A list without an end is passed as a whole. -/
theorem closing?_eq_none_iff {depth : Int} {mode : Mode} {text : Text} :
    closing? depth mode text = none ↔ ∃ s, (Scan.ofMode depth mode).run text = some s := by
  rw [closing?_eq_stop?, Scan.stop?_eq_none_iff]

end Scaffold.Router
