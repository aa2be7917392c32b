import Mathlib.Data.List.Induction
import Scaffold.Proofs.Router.Appending

/-!
# What stands before a new entry

Entries are separated by commas, and blanks and comments between them do not count: what does is the last of
the `signs` before the new entry.  The comma is inserted by looking for a brace anywhere in the list and for a
comment on its last line only.  If the code before that comment ends in code for the scan of the whole list as
well (`EndsInCode`), the inserted comma is a sign of its own and what stands before it is the last character of
that code (`Parts.signs_of_endsInCode`); elsewhere it falls into a comment or a string literal and no sign is
added (`Parts.signs_of_not_endsInCode`).  Nothing is said about lists of the second kind that have no comma of
their own.
-/

namespace Scaffold.Router

open Text (isBlank)

variable {n : Names} {content entry code comma comment result before list after t u w : Text} {l : Located}
  {s : Scan} {q : Char}

/-- What a character of code leaves; a slash waits for the next character. -/
def codeSign (c : Char) : Text := if isBlank c || c == '/' then [] else [c]

namespace Phase

/-- What a character leaves of the code. -/
def sign : Phase → Char → Text
  | .code, c => codeSign c
  | .slash, c => if c = '/' then [] else '/' :: codeSign c
  | _, _ => []

/-- A slash that begins no comment is done with. -/
def settle : Phase → Phase
  | .slash => .code
  | p => p

end Phase

/-- The code of a text, character by character, without blanks and comments; of a string literal the opening
quote is left. -/
def signs : Phase → Text → Text
  | p, [] => if p = .slash then ['/'] else []
  | p, c :: t => p.sign c ++ signs (p.next c) t

/-! ## Signs of parts -/

/-- A slash without another one behind it is a sign. -/
lemma signs_slash (h : t.head? ≠ some '/') : signs .slash t = '/' :: signs .code t := by
  cases t with
  | nil => rfl
  | cons c t =>
    have hc : c ≠ '/' := by simpa using h
    simp only [signs, Phase.sign, Phase.next, if_neg hc, List.cons_append]

/-- The signs of a text are those of its parts, unless a comment begins where they meet. -/
lemma signs_append {s' : Scan} (hrun : s.run t = some s') (hslash : s'.phase = .slash → u.head? ≠ some '/') :
    signs s.phase (t ++ u) = signs s.phase t ++ signs s'.phase.settle u := by
  induction t generalizing s with
  | nil =>
    obtain rfl : s = s' := Option.some.inj hrun
    obtain ⟨d, p⟩ := s
    cases p with
    | slash => exact signs_slash (hslash rfl)
    | _ => rfl
  | cons c t ih =>
    obtain ⟨s₁, hstep, hrest⟩ := Option.bind_eq_some_iff.1 hrun
    rw [List.cons_append, signs, signs, ← Scan.phase_step hstep, ih hrest, List.append_assoc]

lemma signs_code_append (hrun : (⟨0, .code⟩ : Scan).run t = some s)
    (hslash : s.phase = .slash → u.head? ≠ some '/') :
    signs .code (t ++ u) = signs .code t ++ signs s.phase.settle u :=
  signs_append hrun hslash

/-! ## Texts without signs -/

/-- Blanks leave nothing, in code and in a comment. -/
lemma signs_blanks (hw : ∀ c ∈ w, isBlank c = true) : signs .code w = [] ∧ signs .comment w = [] := by
  induction w with
  | nil => exact ⟨rfl, rfl⟩
  | cons c w ih =>
    obtain ⟨hcode, hcomment⟩ := ih fun e he => hw e (List.mem_cons_of_mem _ he)
    have hc := hw c (List.mem_cons_self ..)
    have hne : c ≠ '/' := by
      rintro rfl
      exact absurd hc (by decide)
    have hquote := Scan.isQuote_eq_false_of_isBlank hc
    constructor
    · simp [signs, Phase.sign, Phase.next, codeSign, Phase.inCode, hc, hne, hquote, hcode]
    · rw [signs, Phase.next]
      split
      · exact hcode
      · exact hcomment

/-- The rest of a line is passed in a comment. -/
lemma signs_words {words : Text} (hwords : '\n' ∉ words) (w : Text) :
    signs .comment (words ++ w) = signs .comment w := by
  induction words with
  | nil => rfl
  | cons c words ih =>
    simp only [List.mem_cons, not_or] at hwords
    rw [List.cons_append, signs, Phase.next, if_neg (Ne.symm hwords.1), ih hwords.2]
    rfl

/-- A comment and the blanks around it leave nothing. -/
lemma signs_comment (hcomment : comment = [] ∨ IsComment comment) (hw : ∀ c ∈ w, isBlank c = true) :
    signs .code (comment ++ w) = [] := by
  rcases hcomment with rfl | hcomment
  · exact (signs_blanks hw).1
  · cases hcomment with
    | @comment blanks words hblanks hwords =>
      rw [List.append_assoc, signs_code_append (Scan.run_blanks hblanks) (by simp), (signs_blanks hblanks).1, List.nil_append]
      have hslashes : ∀ x, signs .code ('/' :: '/' :: x) = signs .comment x := fun _ => rfl
      exact (hslashes _).trans ((signs_words hwords w).trans (signs_blanks hw).2)

/-! ## Signs at the end -/

/-- A character of code that is no blank is a sign. -/
lemma signs_concat_code {c : Char} (hrun : (⟨0, .code⟩ : Scan).run t = some s)
    (hs : s.phase = .code ∨ s.phase = .slash ∧ c ≠ '/') (hc : isBlank c = false) :
    signs .code (t ++ [c]) = signs .code t ++ [c] := by
  have hone : signs .code [c] = [c] := by
    by_cases hslash : c = '/'
    · rw [hslash]
      rfl
    · by_cases hquote : isQuote c = true
      · simp [signs, Phase.sign, codeSign, Phase.next, Phase.inCode, hc, hslash, hquote]
      · simp [signs, Phase.sign, codeSign, Phase.next, Phase.inCode, hc, hslash, hquote]
  rcases hs with hs | ⟨hs, hne⟩
  · rw [signs_code_append hrun (by simp [hs]), hs]
    exact congrArg _ hone
  · rw [signs_code_append hrun (by simp [hne]), hs]
    exact congrArg _ hone

/-- A character of a string literal is none. -/
lemma signs_concat_string {c : Char} (hrun : (⟨0, .code⟩ : Scan).run t = some s)
    (hs : s.phase = .string q ∨ s.phase = .escaped q) : signs .code (t ++ [c]) = signs .code t := by
  have hone : signs (.string q) [c] = [] := by
    simp only [signs, Phase.sign, Phase.next, List.nil_append]
    split <;> [rfl; split <;> rfl]
  rcases hs with hs | hs
  · rw [signs_code_append hrun (by simp [hs]), hs, Phase.settle, hone, List.append_nil]
    simp
  · rw [signs_code_append hrun (by simp [hs]), hs]
    exact List.append_nil _

/-- An open string literal has left its quote. -/
lemma getLast?_signs_of_string (hrun : (⟨0, .code⟩ : Scan).run t = some s)
    (hs : s.phase = .string q ∨ s.phase = .escaped q) : (signs .code t).getLast? = some q := by
  induction t using List.reverseRecOn generalizing s with
  | nil =>
    obtain rfl : (⟨0, .code⟩ : Scan) = s := Option.some.inj hrun
    simp at hs
  | append_singleton t c ih =>
    obtain ⟨s₁, ht, hstep⟩ := Scan.exists_step_of_run_concat hrun
    rw [Scan.phase_step hstep] at hs
    rcases Phase.of_next_string hs with ⟨hcode, hquote, rfl⟩ | hstring
    · have hblank : isBlank c = false := by
        by_contra hc
        rw [Scan.isQuote_eq_false_of_isBlank (by simpa using hc)] at hquote
        cases hquote
      rw [signs_concat_code ht hcode hblank, List.getLast?_concat]
    · rw [signs_concat_string ht hstring]
      exact ih ht hstring

/-- A character that is no blank and ends in code is the last sign. -/
lemma getLast?_signs {c : Char} (hrun : (⟨0, .code⟩ : Scan).run (t ++ [c]) = some s)
    (hs : s.phase = .code ∨ s.phase = .slash) (hc : isBlank c = false) :
    (signs .code (t ++ [c])).getLast? = some c := by
  obtain ⟨s₁, ht, hstep⟩ := Scan.exists_step_of_run_concat hrun
  rw [Scan.phase_step hstep] at hs
  rcases Phase.of_next_code hs with hcode | hstring | rfl
  · rw [signs_concat_code ht hcode hc, List.getLast?_concat]
  · rw [signs_concat_string ht (.inl hstring), getLast?_signs_of_string ht (.inl hstring)]
  · exact absurd hc (by decide)

/-! ## Brackets -/

/-- A scan inside the list stays inside. -/
lemma Scan.one_le_depth {s' : Scan} (hrun : s.run t = some s') (h : 1 ≤ s.depth) : 1 ≤ s'.depth := by
  -- only a closing bracket lowers the depth, and at depth one it ends the list
  have hread : ∀ {d c s₁}, 1 ≤ d → Scan.readCode d c = some s₁ → 1 ≤ s₁.depth := by
    intro d c s₁ hd hread
    unfold Scan.readCode at hread
    split at hread
    · cases hread
    · rename_i hclose
      rw [← Option.some.inj hread]
      simp only [Bool.and_eq_true, decide_eq_true_eq, not_and] at hclose
      simp only
      split
      · omega
      · split
        · have := hclose ‹_›
          omega
        · exact hd
  induction t generalizing s with
  | nil =>
    obtain rfl : s = s' := Option.some.inj hrun
    exact h
  | cons c t ih =>
    obtain ⟨s₁, hstep, hrun⟩ := Option.bind_eq_some_iff.1 hrun
    refine ih hrun ?_
    obtain ⟨d, p⟩ := s
    cases p with
    | code => exact hread h hstep
    | slash =>
      simp only [Scan.step] at hstep
      split at hstep
      · rw [← Option.some.inj hstep]
        exact h
      · exact hread h hstep
    | string q =>
      rw [← Option.some.inj hstep]
      exact h
    | escaped q =>
      rw [← Option.some.inj hstep]
      exact h
    | comment =>
      rw [← Option.some.inj hstep]
      exact h

/-- A bracket that ends the code of a list with one bracket open is the one that opens the list. -/
lemma eq_nil_of_run_bracket {p : Text} (hp : (p ++ ['[']).head? = some '[')
    (hrun : (⟨0, .code⟩ : Scan).run (p ++ ['[']) = some s) (hdepth : s.depth = 1)
    (hs : s.phase = .code ∨ s.phase = .slash) : p = [] := by
  obtain ⟨s₁, hs₁, hstep⟩ := Scan.exists_step_of_run_concat hrun
  cases p with
  | nil => rfl
  | cons c p =>
    obtain rfl : c = '[' := Option.some.inj hp
    -- otherwise the list is open before the last bracket, which then opens another one
    have hinside : 1 ≤ s₁.depth := by
      have hopen : (⟨0, .code⟩ : Scan).step '[' = some ⟨1, .code⟩ := rfl
      rw [Scan.run_cons, hopen, Option.bind_some] at hs₁
      exact Scan.one_le_depth hs₁ (Int.le_refl 1)
    have hread : ∀ {d}, Scan.readCode d '[' = some s → s.depth = d + 1 := fun hread => by
      rw [← Option.some.inj hread]
      rfl
    obtain ⟨d, phase⟩ := s₁
    rw [Scan.phase_step hstep] at hs
    rcases Phase.of_next_code hs with (hphase | ⟨hphase, -⟩) | hphase | hnewline
    · simp only at hphase hinside
      subst hphase
      have hd : s.depth = d + 1 := hread hstep
      omega
    · simp only at hphase hinside
      subst hphase
      have hd : s.depth = d + 1 := hread hstep
      omega
    · exact absurd ((Scan.regular_code 0).run hs₁ '[' (.inl hphase)) (by decide)
    · exact absurd hnewline (by decide)

/-- A comment leaves the depth as it is. -/
lemma run_isComment (hcomment : IsComment comment)
    (hs : s.phase = .code ∨ s.phase = .slash ∧ comment.head? ≠ some '/') :
    s.run comment = some ⟨s.depth, .comment⟩ := by
  have hwords : ∀ {d : Int} {words : Text}, '\n' ∉ words →
      (⟨d, .comment⟩ : Scan).run words = some ⟨d, .comment⟩ := by
    intro d words hwords
    induction words with
    | nil => rfl
    | cons c words ih =>
      simp only [List.mem_cons, not_or] at hwords
      rw [Scan.run_cons, Scan.step, if_neg (Ne.symm hwords.1), Option.bind_some, ih hwords.2]
  obtain ⟨d, p⟩ := s
  cases hcomment with
  | @comment blanks words hblanks hnewline =>
    have hplain : (⟨d, .code⟩ : Scan).run (blanks ++ '/' :: '/' :: words) = some ⟨d, .comment⟩ := by
      rw [Scan.run_append, Scan.run_blanks hblanks, Option.bind_some]
      exact hwords hnewline
    rcases hs with hs | ⟨hs, hne⟩ <;> simp only at hs <;> subst hs
    · exact hplain
    · obtain ⟨c, t, ht⟩ : ∃ c t, blanks ++ '/' :: '/' :: words = c :: t := List.exists_cons_of_ne_nil (by simp)
      rw [ht] at hplain hne ⊢
      have hc : c ≠ '/' := fun hc => hne (by rw [hc, List.head?_cons])
      rw [← hplain, Scan.run_cons, Scan.step, if_neg hc]
      rfl

/-! ## The signs of the list -/

/-- The code before the comment on the last line of a list ends outside of string literals and comments. -/
def EndsInCode (l : Located) (code : Text) : Prop :=
  ∃ p s, code = l.before ++ p ∧ (⟨0, .code⟩ : Scan).run p = some s ∧ (s.phase = .code ∨ s.phase = .slash)

/-- Blanks behind the list leave nothing. -/
lemma signs_trimRight_list (hl : locate? content = some l) (hw : ∀ c ∈ w, isBlank c = true) :
    signs .code (Text.trimRight l.list ++ w) = signs .code l.list := by
  obtain ⟨s, hrun, -, hphase⟩ := run_trimRight_list hl
  have hblanks : ∀ w, (∀ c ∈ w, isBlank c = true) →
      signs .code (Text.trimRight l.list ++ w) = signs .code (Text.trimRight l.list) := by
    intro w hw
    obtain ⟨hcode, hcomment⟩ := signs_blanks hw
    have hhead : w.head? ≠ some '/' := fun hhead =>
      absurd (hw '/' (List.mem_of_head? hhead)) (by decide)
    rw [signs_code_append hrun fun _ => hhead]
    rcases hphase with hphase | hphase | hphase <;> rw [hphase] <;> simp [Phase.settle, hcode, hcomment]
  obtain ⟨v, hlist, hv, -⟩ := Text.eq_trimRight_append l.list
  rw [hblanks w hw, ← hblanks v hv, ← hlist]

/-- A comma outside of code leaves nothing. -/
lemma signs_comma {c : Char} (hrun : (⟨0, .code⟩ : Scan).run t = some s)
    (hs : ¬ (s.phase = .code ∨ s.phase = .slash)) (hc : isBlank c = true ∨ c = '/') :
    signs .code (t ++ ',' :: c :: u) = signs .code (t ++ c :: u) := by
  have hregular := (Scan.regular_code 0).run hrun
  obtain ⟨hquote, hescape⟩ := Scan.ne_of_isBlank_or_slash hc
  rw [signs_code_append hrun fun h => absurd (.inr h) hs, signs_code_append hrun fun h => absurd (.inr h) hs]
  congr 1
  obtain ⟨d, p⟩ := s
  cases p with
  | code => exact absurd (.inl rfl) hs
  | slash => exact absurd (.inr rfl) hs
  | string q =>
    have hq : ',' ≠ q := by
      rintro rfl
      exact absurd (hregular ',' (.inl rfl)) (by decide)
    -- the comma is one more character of the string
    have hstay : (Phase.string q).next ',' = .string q := by simp [Phase.next, hq]
    have hstring : signs (.string q) (',' :: c :: u) = signs (.string q) (c :: u) := by
      rw [signs, hstay]
      rfl
    exact hstring
  | escaped q =>
    have hq : c ≠ q := by
      rintro rfl
      rw [hregular c (.inr rfl)] at hquote
      cases hquote
    have hstay : (Phase.string q).next c = .string q := by simp [Phase.next, hq, hescape]
    have hstring : signs (.string q) (c :: u) = signs (.string q) u := by
      rw [signs, hstay]
      rfl
    exact hstring
  | comment => rfl

namespace Appends

variable {p : Text} (ha : Appends content l entry code comma comment result) (hp : p ≠ [])
  (hcode : code = l.before ++ p) (hrun : (⟨0, .code⟩ : Scan).run p = some s)

include ha hp hcode hrun

/-- A slash at the end of the code does not begin a comment with what follows. -/
lemma head?_ne (hphase : s.phase = .slash) (hw : ∀ c ∈ w, isBlank c = true) :
    (comment ++ w).head? ≠ some '/' := by
  intro hhead
  have hlast : code.getLast? = some '/' := by
    rw [hcode, List.getLast?_append_of_ne_nil _ hp, Scan.getLast?_of_phase_slash hp hrun hphase]
  have hslash := ha.slash
  cases comment with
  | nil => exact absurd (hw '/' (List.mem_of_head? hhead)) (by decide)
  | cons c comment => exact hslash hhead hlast

/-- Code before the comment ends with one bracket open. -/
lemma depth_eq (hs : s.phase = .code ∨ s.phase = .slash) (hlist : Text.trimRight l.list = p ++ comment) :
    s.depth = 1 := by
  obtain ⟨s', hs', hdepth, -⟩ := run_trimRight_list ha.located
  rw [hlist, Scan.run_append, hrun, Option.bind_some] at hs'
  rcases ha.isComment with rfl | hcomment
  · obtain rfl : s = s' := Option.some.inj hs'
    exact hdepth
  · have hnext : s.phase = .code ∨ s.phase = .slash ∧ comment.head? ≠ some '/' := hs.imp_right fun h => by
      have hne := ha.head?_ne hp hcode hrun h (w := []) (by simp)
      exact ⟨h, by simpa using hne⟩
    rw [run_isComment hcomment hnext] at hs'
    rw [← Option.some.inj hs'] at hdepth
    exact hdepth

/-- Behind code, the list has no further signs. -/
lemma signs_list (hs : s.phase = .code ∨ s.phase = .slash) (hlist : Text.trimRight l.list = p ++ comment) :
    signs .code l.list = signs .code p ∧
      signs .code (p ++ (comma ++ (comment ++ ['\n', ' ', ' ']))) = signs .code p ++ comma := by
  have happend : ∀ u : Text, (s.phase = .slash → u.head? ≠ some '/') →
      signs .code (p ++ u) = signs .code p ++ signs .code u := by
    intro u hu
    rw [signs_code_append hrun hu]
    rcases hs with hs | hs <;> rw [hs] <;> rfl
  have hblanks : ∀ w, (∀ c ∈ w, isBlank c = true) → signs .code (p ++ (comment ++ w)) = signs .code p := by
    intro w hw
    rw [happend _ fun h => ha.head?_ne hp hcode hrun h hw, signs_comment ha.isComment hw, List.append_nil]
  constructor
  · obtain ⟨w, hw, hblank, -⟩ := Text.eq_trimRight_append l.list
    rw [hw, hlist, List.append_assoc, hblanks w hblank]
  · rcases ha.comma_cases with rfl | rfl
    · rw [List.nil_append, hblanks _ isBlank_lineStart, List.append_nil]
    · have hcomma : ∀ u, signs .code (',' :: u) = [','] ++ signs .code u := fun _ => rfl
      rw [happend _ (by simp), List.singleton_append, hcomma, signs_comment ha.isComment isBlank_lineStart,
        List.append_nil]

end Appends

namespace Parts

variable (hparts : Parts l code comma comment before list)
  (ha : Appends content l entry code comma comment result)

include hparts ha

/-- Where the code before the comment ends in code, the comma is the last sign, and what stands before it is
the last character of the code. -/
lemma signs_of_endsInCode (hin : EndsInCode l code) :
    signs .code list = signs .code l.list ++ comma ∧ (signs .code l.list).getLast? = code.getLast? ∧
      (code.getLast? = some '[' → signs .code l.list = ['[']) := by
  obtain ⟨q, s, hq, hrun, hs⟩ := hin
  obtain ⟨tail', htrim⟩ := exists_trimRight_list ha.located
  cases hparts with
  | @ahead z hbefore hcomment =>
    rw [hbefore, List.append_assoc] at hq
    have hz : z ++ q = [] := by simpa using hq.symm
    rw [(List.append_eq_nil_iff.1 hz).1, List.nil_append, htrim] at hcomment
    exact absurd hcomment (ha.comment_ne tail')
  | @inside p hp hcode hlist =>
    obtain rfl : p = q := List.append_cancel_left (hcode.symm.trans hq)
    obtain ⟨p, c, rfl⟩ := (List.eq_nil_or_concat' p).resolve_left hp
    have hlast : code.getLast? = some c := by rw [hcode, ← List.append_assoc, List.getLast?_concat]
    obtain ⟨hold, hnew⟩ := ha.signs_list hp hcode hrun hs hlist
    rw [hold, hnew, hlast, getLast?_signs hrun hs (ha.trimmed c hlast)]
    refine ⟨rfl, rfl, fun hbracket => ?_⟩
    obtain rfl := Option.some.inj hbracket
    have hhead : (p ++ ['[']).head? = some '[' := by
      have hfull : (p ++ ['['] ++ comment).head? = some '[' := by rw [← hlist, htrim, List.head?_cons]
      rwa [List.head?_append_of_ne_nil _ hp] at hfull
    obtain rfl := eq_nil_of_run_bracket hhead hrun (ha.depth_eq hp hcode hrun hs hlist) hs
    rfl

/-- Elsewhere no sign is added. -/
lemma signs_of_not_endsInCode (hnot : ¬ EndsInCode l code) : signs .code list = signs .code l.list := by
  cases hparts with
  | ahead hbefore hcomment => exact signs_trimRight_list ha.located isBlank_lineStart
  | @inside p hp hcode hlist =>
    obtain ⟨s', hs', -⟩ := run_trimRight_list ha.located
    rw [hlist, Scan.run_append] at hs'
    obtain ⟨s, hs, -⟩ := Option.bind_eq_some_iff.1 hs'
    have hout : ¬ (s.phase = .code ∨ s.phase = .slash) := fun h => hnot ⟨p, s, hcode, hs, h⟩
    rw [← signs_trimRight_list ha.located isBlank_lineStart, hlist, List.append_assoc]
    rcases ha.comma_cases with rfl | rfl
    · rfl
    · obtain ⟨c, t, hc, hfirst⟩ := ha.exists_cons [' ', ' ']
      rw [hc, List.singleton_append]
      exact signs_comma hs hout (hfirst.imp_right And.left)

end Parts

/-! ## The new entry and the ones before it -/

lemma needsComma_eq_true_iff {list code : Text} :
    needsComma list code = true ↔
      '{' ∈ list ∧ code.getLast? ≠ some ',' ∧ code.getLast? ≠ some '[' := by
  rw [needsComma, Bool.and_eq_true, Bool.and_eq_true, List.contains_iff_mem, Bool.not_eq_true',
    Bool.not_eq_true', Bool.eq_false_iff, Bool.eq_false_iff, ne_eq, ne_eq, endsWith_singleton_iff,
    endsWith_singleton_iff, and_assoc]

/-- What the signs before a new entry end with, in terms of the list that it was appended to. -/
structure Separates (l : Located) (code list : Text) : Prop where
  /-- A list without entries stays one. -/
  empty : signs .code l.list = ['['] → signs .code list = ['[']
  /-- A comma at the end stays there. -/
  trailing : (signs .code l.list).getLast? = some ',' → (signs .code list).getLast? = some ','
  /-- Entries are followed by a comma if there is a brace in the list and the code before the comment on its
  last line ends outside of string literals and comments. -/
  brace : '{' ∈ l.list → signs .code l.list ≠ ['['] → EndsInCode l code →
    (signs .code list).getLast? = some ','
  /-- Without a brace no comma is added. -/
  plain : '{' ∉ l.list → signs .code list = signs .code l.list

lemma Parts.separates (hparts : Parts l code comma comment before list)
    (ha : Appends content l entry code comma comment result) : Separates l code list := by
  have hcomma := ha.comma_eq
  have hnone : ¬ ('{' ∈ l.list ∧ code.getLast? ≠ some ',' ∧ code.getLast? ≠ some '[') → comma = [] := fun hnot => by
    rw [hcomma, if_neg (mt needsComma_eq_true_iff.1 hnot)]
  by_cases hin : EndsInCode l code
  · obtain ⟨hsigns, hlast, hbracket⟩ := hparts.signs_of_endsInCode ha hin
    refine ⟨fun h => ?_, fun h => ?_, fun hbrace hentry _ => ?_, fun h => ?_⟩
    · have hopen : code.getLast? = some '[' := by rw [← hlast, h, List.getLast?_singleton]
      rw [hsigns, h, hnone fun hand => hand.2.2 hopen, List.append_nil]
    · rw [hsigns, hnone fun hand => hand.2.1 (hlast.symm.trans h), List.append_nil, h]
    · by_cases hends : code.getLast? = some ','
      · rw [hsigns, hnone fun hand => hand.2.1 hends, List.append_nil, hlast, hends]
      · rw [hsigns, hcomma, if_pos (needsComma_eq_true_iff.2 ⟨hbrace, hends, fun h => hentry (hbracket h)⟩),
          List.getLast?_concat]
    · rw [hsigns, hnone fun hand => h hand.1, List.append_nil]
  · have hsigns := hparts.signs_of_not_endsInCode ha hin
    exact ⟨fun h => hsigns.trans h, fun h => by rw [hsigns, h], fun _ _ h => absurd h hin, fun _ => hsigns⟩

/-- **A new entry is separated** from the entries before it. -/
theorem insertRoute_separates (h : n.IsModule) (hresult : insertRoute content (registration n) = some result) :
    ∃ l code comma comment before list, Appends content l (registration n) code comma comment result ∧
      HasLast n before list l.after result ∧ Separates l code list := by
  obtain ⟨l, code, comma, comment, ha⟩ := exists_appends hresult
  obtain ⟨before, list, hlast, hparts⟩ := ha.exists_hasLast h
  exact ⟨l, code, comma, comment, before, list, ha, hlast, hparts.separates ha⟩

/-- The comma comes before the comment behind the last entry. -/
theorem insertRoute_separates_admin :
    let content : Text := "const apiRoutes = [\n  \x7b path: '/a', route: A \x7d // admin only\n];\n"
    let user : Names := ⟨"User", "User", "user"⟩
    let result : Text := "const apiRoutes = [\n  \x7b path: '/a', route: A \x7d, // admin only\n" ++
      "  \x7b path: '/user', route: UserRoutes \x7d\n];\n"
    user.IsModule ∧ insertRoute content (registration user) = some result ∧
      ∃ l code comma comment before list, Appends content l (registration user) code comma comment result ∧
        HasLast user before list l.after result ∧ Separates l code list := by
  intro content user result
  have huser : user.IsModule := ⟨⟨"User", by decide⟩, by decide⟩
  have hresult : insertRoute content (registration user) = some result := by decide
  exact ⟨huser, hresult, insertRoute_separates huser hresult⟩

/-- An entry without a brace is not followed by a comma. -/
theorem not_separated_home :
    let content : Text := "const apiRoutes = [home];\n"
    let user : Names := ⟨"User", "User", "user"⟩
    user.IsModule ∧ ∃ l result before list, locate? content = some l ∧
      insertRoute content (registration user) = some result ∧ HasLast user before list l.after result ∧
      signs .code l.list ≠ ['['] ∧ (signs .code list).getLast? ≠ some ',' := by
  intro content user
  refine ⟨⟨⟨"User", by decide⟩, by decide⟩, ⟨"const apiRoutes = ", "[home", "];\n"⟩, _,
    "const apiRoutes = ", "[home\n  ", by decide, rfl, ⟨by decide, ⟨"[home", rfl⟩, by decide⟩, by decide, by decide⟩

end Scaffold.Router
