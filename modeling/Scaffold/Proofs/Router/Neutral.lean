import Scaffold.Proofs.Router.Phrases
import Scaffold.Proofs.Router.Scan

/-!
# What a scan does not see

The end of the list of routes is found by a scan that counts brackets outside of strings and
comments, and an import can land anywhere: between two statements, in the list itself, in a comment
or in a template literal.  It is inserted at the beginning of a line, and there a scan stands in
code or in a string, never behind a slash or a backslash.  From such a state the import leads back
to the same state, since its two quotes either open and close a string of its own or close and open
the one that it landed in (`run_importStatement`).  A comma before a blank or a comment is not seen
either, wherever the scan stands (`run_comma`).
-/

namespace Scaffold.Router

namespace Scan

variable {s s' : Scan} {t : Text} {c q : Char} {d : Int}

/-- A string literal is one between quotes. -/
def Regular (s : Scan) : Prop :=
  ∀ q, s.phase = .string q ∨ s.phase = .escaped q → isQuote q = true

lemma Regular.step (h : s.Regular) (hs : s.step c = some s') : s'.Regular := by
  intro q hq
  rw [phase_step hs] at hq
  rcases Phase.of_next_string hq with ⟨-, hquote, rfl⟩ | hstring
  · exact hquote
  · exact h q hstring

/-- Every state that a scan reaches is regular. -/
lemma Regular.run (h : s.Regular) (hs : s.run t = some s') : s'.Regular := by
  induction t generalizing s with
  | nil =>
    cases hs
    exact h
  | cons c t ih =>
    rw [run_cons] at hs
    obtain ⟨s₁, h₁, hs⟩ := Option.bind_eq_some_iff.1 hs
    exact ih (h.step h₁) hs

lemma regular_code (d : Int) : (⟨d, .code⟩ : Scan).Regular := by
  rintro q (hq | hq) <;> cases hq

/-! ## Line starts -/

/-- Where a scan can stand at the beginning of a line. -/
def AtLineStart (s : Scan) : Prop :=
  s.phase = .code ∨ ∃ q, isQuote q = true ∧ s.phase = .string q

/-- A newline never ends a list. -/
lemma exists_step_newline (s : Scan) : ∃ s', s.step '\n' = some s' := by
  obtain ⟨d, p⟩ := s
  cases p <;> exact ⟨_, rfl⟩

lemma Regular.atLineStart (h : s.Regular) (hs : s.step '\n' = some s') : s'.AtLineStart := by
  obtain ⟨d, p⟩ := s
  cases p with
  | code =>
    cases hs
    exact .inl rfl
  | slash =>
    cases hs
    exact .inl rfl
  | string q =>
    have hquote : isQuote q = true := h q (.inl rfl)
    have hq : '\n' ≠ q := by
      rintro rfl
      cases hquote
    simp only [Scan.step, Option.some.injEq] at hs
    rw [if_neg (by decide), if_neg hq] at hs
    subst hs
    exact .inr ⟨q, hquote, rfl⟩
  | escaped q =>
    cases hs
    exact .inr ⟨q, h q (.inr rfl), rfl⟩
  | comment =>
    cases hs
    exact .inl rfl

lemma AtLineStart.step_newline (h : s.AtLineStart) : s.step '\n' = some s := by
  obtain ⟨d, p⟩ := s
  rcases h with h | ⟨q, hquote, h⟩
  · simp only at h
    subst h
    rfl
  · simp only at h
    subst h
    have hq : '\n' ≠ q := by
      rintro rfl
      cases hquote
    rw [Scan.step]
    simp only
    rw [if_neg (by decide), if_neg hq]

/-! ## Texts without effect -/

/-- A character that counts in code. -/
def isSignal (c : Char) : Bool := isQuote c || c == '[' || c == ']'

lemma isSignal_eq_false_of_isBlank (h : Text.isBlank c = true) : isSignal c = false := by
  have hne : ∀ x, Text.isBlank x = false → c ≠ x := by
    rintro x hx rfl
    rw [h] at hx
    cases hx
  simp [isSignal, isQuote, hne '\'' (by decide), hne '"' (by decide), hne '`' (by decide),
    hne '[' (by decide), hne ']' (by decide)]

lemma isQuote_eq_false_of_isBlank (h : Text.isBlank c = true) : isQuote c = false := by
  have hsignal := isSignal_eq_false_of_isBlank h
  simp only [isSignal, Bool.or_eq_false_iff] at hsignal
  exact hsignal.1.1

/-- What may follow a comma behind an entry begins no text in quotes, and escapes nothing. -/
lemma ne_of_isBlank_or_slash (hc : Text.isBlank c = true ∨ c = '/') : isQuote c = false ∧ c ≠ '\\' := by
  rcases hc with hblank | rfl
  · refine ⟨isQuote_eq_false_of_isBlank hblank, ?_⟩
    rintro rfl
    exact absurd hblank (by decide)
  · decide

lemma readCode_of_plain (h : isSignal c = false) :
    readCode d c = some ⟨d, if c = '/' then .slash else .code⟩ := by
  simp only [isSignal, Bool.or_eq_false_iff, beq_eq_false_iff_ne, ne_eq] at h
  obtain ⟨⟨hquote, hopen⟩, hclose⟩ := h
  simp [readCode, hquote, hopen, hclose]

/-- Code without slashes is passed. -/
lemma run_plain (h : ∀ c ∈ t, isSignal c = false ∧ c ≠ '/') :
    (⟨d, .code⟩ : Scan).run t = some ⟨d, .code⟩ := by
  induction t with
  | nil => rfl
  | cons c t ih =>
    obtain ⟨hc, hslash⟩ := h c (by simp)
    rw [run_cons, step, readCode_of_plain hc, if_neg hslash]
    exact ih fun e he => h e (by simp [he])

lemma run_blanks (h : ∀ c ∈ t, Text.isBlank c = true) : (⟨d, .code⟩ : Scan).run t = some ⟨d, .code⟩ := by
  refine run_plain fun c hc => ⟨isSignal_eq_false_of_isBlank (h c hc), ?_⟩
  rintro rfl
  exact absurd (h _ hc) (by decide)

/-- Code with single slashes is passed. -/
lemma run_slashed {p : Phase} (hp : p = .code ∨ p = .slash ∧ t.head? ≠ some '/')
    (h : ∀ c ∈ t, isSignal c = false) (hslashes : ¬ ['/', '/'] <:+: t) :
    ∃ p', (p' = .code ∨ p' = .slash) ∧ (⟨d, p⟩ : Scan).run t = some ⟨d, p'⟩ := by
  induction t generalizing p with
  | nil => exact ⟨p, hp.imp_right And.left, rfl⟩
  | cons c t ih =>
    have hstep : (⟨d, p⟩ : Scan).step c = some ⟨d, if c = '/' then .slash else .code⟩ := by
      rw [← readCode_of_plain (h c (by simp))]
      rcases hp with rfl | ⟨rfl, hhead⟩
      · rfl
      · simp only [step]
        rw [if_neg fun hc => hhead (by simp [hc])]
    have hrest : ¬ ['/', '/'] <:+: t := fun hi => hslashes (List.infix_cons hi)
    rw [run_cons, hstep]
    refine ih ?_ (fun e he => h e (by simp [he])) hrest
    by_cases hc : c = '/'
    · rw [if_pos hc]
      refine .inr ⟨rfl, fun hhead => hslashes ?_⟩
      cases t with
      | nil => cases hhead
      | cons e t =>
        simp only [List.head?_cons, Option.some.injEq] at hhead
        exact ⟨[], t, by simp [hc, hhead]⟩
    · rw [if_neg hc]
      exact .inl rfl

/-- A string without its quote and without escapes is passed. -/
lemma run_string (hq : q ∉ t) (hescape : '\\' ∉ t) :
    (⟨d, .string q⟩ : Scan).run t = some ⟨d, .string q⟩ := by
  induction t with
  | nil => rfl
  | cons c t ih =>
    have hc : c ≠ q := fun hc => hq (by simp [hc])
    have hc' : c ≠ '\\' := fun hc => hescape (by simp [hc])
    rw [run_cons, step]
    simp only [if_neg hc, if_neg hc']
    exact ih (fun h => hq (by simp [h])) (fun h => hescape (by simp [h]))

end Scan

/-! ## Imports, entries and commas -/

variable {n : Names} {s : Scan}

/-- The end of code or a single slash is left by a quote. -/
lemma Scan.step_quote {d : Int} {p : Phase} (hp : p = .code ∨ p = .slash) :
    (⟨d, p⟩ : Scan).step '\'' = some ⟨d, .string '\''⟩ := by
  rcases hp with rfl | rfl <;> rfl

/-- A string literal behind code without signals is not seen from the beginning of a line: in code
its quotes open and close a string, in a string they close it and open another one. -/
lemma Scan.AtLineStart.run_quoted {code path : Text} (hs : s.AtLineStart)
    (hcode : ∀ c ∈ code, isSignal c = false ∧ c ≠ '/' ∧ c ≠ '\\')
    (hpath : ∀ c ∈ path, isSignal c = false ∧ c ≠ '\\') (hslashes : ¬ ['/', '/'] <:+: path) :
    s.run (code ++ '\'' :: (path ++ ['\''])) = some s := by
  have hquote : ∀ q, isQuote q = true → q ∉ code ∧ q ∉ path := by
    intro q hq
    have hsignal : isSignal q = true := by simp [isSignal, hq]
    constructor
    · intro hmem
      rw [(hcode q hmem).1] at hsignal
      cases hsignal
    · intro hmem
      rw [(hpath q hmem).1] at hsignal
      cases hsignal
  have hescape : '\\' ∉ code ∧ '\\' ∉ path :=
    ⟨fun h => (hcode _ h).2.2 rfl, fun h => (hpath _ h).2 rfl⟩
  obtain ⟨d, p⟩ := s
  rcases hs with hs | ⟨q, hq, hs⟩ <;> simp only at hs <;> subst hs
  · rw [run_append, run_plain fun c hc => ⟨(hcode c hc).1, (hcode c hc).2.1⟩, Option.bind_some,
      run_cons, step_quote (.inl rfl), Option.bind_some, run_append,
      run_string (hquote '\'' rfl).2 hescape.2]
    rfl
  · by_cases hsingle : q = '\''
    · subst hsingle
      obtain ⟨p', hp', hrun⟩ := run_slashed (d := d) (.inl rfl) (fun c hc => (hpath c hc).1) hslashes
      have hclose : (⟨d, .string '\''⟩ : Scan).step '\'' = some ⟨d, .code⟩ := rfl
      rw [run_append, run_string (hquote '\'' rfl).1 hescape.1, Option.bind_some, run_cons, hclose,
        Option.bind_some, run_append, hrun, Option.bind_some, run_cons, step_quote hp']
      rfl
    · refine run_string ?_ ?_
      · simp [hquote q hq, hsingle]
      · simp [hescape]

/-- Names have no effect on a scan. -/
lemma plain_of_mem_name (h : n.IsModule) {c : Char} (hc : c ∈ n.className ∨ c ∈ n.folder) :
    Scan.isSignal c = false ∧ c ≠ '/' ∧ c ≠ '\\' := by
  have hspecial : ∀ x ∈ ['\'', '"', '`', '[', ']', '/', '\\'],
      Text.isIdentifierRest x = false ∧ x.toNat < 128 := Text.forall_mem_of_all (by decide)
  have hne : ∀ x ∈ ['\'', '"', '`', '[', ']', '/', '\\'], c ≠ x := by
    rintro x hx rfl
    obtain ⟨hrest, hascii⟩ := hspecial c hx
    exact hc.elim (h.not_mem_className hrest hascii) (h.not_mem_folder hrest)
  simp only [List.forall_mem_cons] at hne
  obtain ⟨h1, h2, h3, h4, h5, h6, h7, -⟩ := hne
  refine ⟨?_, h6, h7⟩
  simp [Scan.isSignal, isQuote, h1, h2, h3, h4, h5]

/-- **An import is not seen** from the beginning of a line. -/
theorem run_importStatement (h : n.IsModule) (hs : s.AtLineStart) :
    s.run (importStatement n) = some s := by
  have heq : importStatement n = ("import ".toList ++ '{' :: ' ' :: (n.className ++ "Routes".toList) ++
      ' ' :: "\x7d from ".toList) ++ '\'' :: (("../app/modules/".toList ++ n.folder ++ '/' :: n.folder ++
        ".route".toList) ++ ['\'']) := by
    rw [importStatement_eq]
    simp only [List.append_assoc, List.cons_append]
  have hslashes := (solid_importStatement h).slashes
  rw [heq] at hslashes ⊢
  refine hs.run_quoted (fun c hc => ?_) (fun c hc => ?_) fun hi => hslashes (hi.trans ?_)
  · have hlit : ∀ c ∈ "import \x7bRoutes\x7d from ".toList,
        Scan.isSignal c = false ∧ c ≠ '/' ∧ c ≠ '\\' := Text.forall_mem_of_all (by decide)
    simp only [List.mem_append, List.mem_cons] at hc
    rcases hc with (hc | rfl | rfl | hc | hc) | rfl | hc
    · exact hlit c ((by decide : "import ".toList ⊆ "import \x7bRoutes\x7d from ".toList) hc)
    · decide
    · decide
    · exact plain_of_mem_name h (.inl hc)
    · exact hlit c ((by decide : "Routes".toList ⊆ "import \x7bRoutes\x7d from ".toList) hc)
    · decide
    · exact hlit c ((by decide : "\x7d from ".toList ⊆ "import \x7bRoutes\x7d from ".toList) hc)
  · have hname := fun hmem => plain_of_mem_name h (c := c) (.inr hmem)
    have hlit : ∀ c ∈ "../app/modules/.route".toList, Scan.isSignal c = false ∧ c ≠ '\\' :=
      Text.forall_mem_of_all (by decide)
    simp only [List.mem_append, List.mem_cons] at hc
    rcases hc with ((hc | hc) | rfl | hc) | hc
    · exact hlit c ((by decide : "../app/modules/".toList ⊆ "../app/modules/.route".toList) hc)
    · exact ⟨(hname hc).1, (hname hc).2.2⟩
    · decide
    · exact ⟨(hname hc).1, (hname hc).2.2⟩
    · exact hlit c ((by decide : ".route".toList ⊆ "../app/modules/.route".toList) hc)
  · refine List.IsInfix.trans ?_ (List.suffix_append _ _).isInfix
    exact (List.prefix_append _ _).isInfix.trans (List.suffix_cons _ _).isInfix

/-- A line with an import is not seen from the beginning of a line. -/
lemma run_importLine (h : n.IsModule) (hs : s.AtLineStart) :
    s.run (importStatement n ++ ['\n']) = some s := by
  rw [Scan.run_append, run_importStatement h hs, Option.bind_some, Scan.run_cons, hs.step_newline]
  rfl

/-- An entry is not seen in code. -/
theorem run_registration (h : n.IsModule) (d : Int) :
    (⟨d, .code⟩ : Scan).run (registration n) = some ⟨d, .code⟩ := by
  have hname := fun c hc => plain_of_mem_name h (c := c) (.inl hc)
  have hquote : '\'' ∉ '/' :: n.folder := by
    simp only [List.mem_cons, not_or]
    exact ⟨by decide, h.not_mem_folder rfl⟩
  have hescape : '\\' ∉ '/' :: n.folder := by
    simp only [List.mem_cons, not_or]
    exact ⟨by decide, h.not_mem_folder rfl⟩
  have hpath : (⟨d, .code⟩ : Scan).run ('{' :: " path: ".toList) = some ⟨d, .code⟩ :=
    Scan.run_plain (Text.forall_mem_of_all (by decide))
  -- the path is a string, and what comes before and behind it does not count
  have hroute : (⟨d, .code⟩ : Scan).run (',' :: (" route: ".toList ++
      (n.className ++ "Routes".toList) ++ " \x7d".toList)) = some ⟨d, .code⟩ := by
    refine Scan.run_plain fun c hc => ?_
    have hlit : ∀ c ∈ " route: Routes \x7d".toList, Scan.isSignal c = false ∧ c ≠ '/' :=
      Text.forall_mem_of_all (by decide)
    simp only [List.mem_append, List.mem_cons] at hc
    rcases hc with rfl | (hc | hc | hc) | hc
    · decide
    · exact hlit c ((by decide : " route: ".toList ⊆ " route: Routes \x7d".toList) hc)
    · exact ⟨(hname c hc).1, (hname c hc).2.1⟩
    · exact hlit c ((by decide : "Routes".toList ⊆ " route: Routes \x7d".toList) hc)
    · exact hlit c ((by decide : " \x7d".toList ⊆ " route: Routes \x7d".toList) hc)
  have hclose : (⟨d, .string '\''⟩ : Scan).step '\'' = some ⟨d, .code⟩ := rfl
  rw [registration_eq, List.append_assoc, ← List.cons_append, Scan.run_append, hpath,
    Option.bind_some, List.cons_append, Scan.run_cons, Scan.step_quote (.inl rfl), Option.bind_some,
    Scan.run_append, Scan.run_string hquote hescape, Option.bind_some, Scan.run_cons, hclose,
    Option.bind_some, hroute]

/-- **A comma is not seen** before a blank or a slash, unless it stands between two slashes. -/
theorem run_comma {c : Char} {t : Text} (hs : s.Regular)
    (hc : Text.isBlank c = true ∨ c = '/' ∧ s.phase ≠ .slash) :
    s.run (',' :: c :: t) = s.run (c :: t) := by
  obtain ⟨hquote, hescape⟩ := Scan.ne_of_isBlank_or_slash (hc.imp_right And.left)
  obtain ⟨d, p⟩ := s
  cases p with
  | code => rfl
  | slash =>
    have hslash : c ≠ '/' := by
      rcases hc with hc | ⟨-, hp⟩
      · rintro rfl
        exact absurd hc (by decide)
      · exact absurd rfl hp
    have hcomma : (⟨d, .slash⟩ : Scan).step ',' = some ⟨d, .code⟩ := rfl
    -- the character is no slash, so the one before it began no comment
    have hstep : (⟨d, .slash⟩ : Scan).step c = (⟨d, .code⟩ : Scan).step c := by
      simp only [Scan.step, if_neg hslash]
    rw [Scan.run_cons, hcomma, Option.bind_some, Scan.run_cons, Scan.run_cons, hstep]
  | string q =>
    have hq : ',' ≠ q := by
      rintro rfl
      exact absurd (hs ',' (.inl rfl)) (by decide)
    have hcomma : (⟨d, .string q⟩ : Scan).step ',' = some ⟨d, .string q⟩ := by
      simp only [Scan.step, if_neg hq]
      rfl
    rw [Scan.run_cons, hcomma, Option.bind_some]
  | escaped q =>
    have hq : c ≠ q := by
      rintro rfl
      rw [hs c (.inr rfl)] at hquote
      cases hquote
    have hcomma : (⟨d, .escaped q⟩ : Scan).step ',' = some ⟨d, .string q⟩ := rfl
    -- the comma is escaped in its place, and it would not have ended the string either
    have hstep : (⟨d, .escaped q⟩ : Scan).step c = (⟨d, .string q⟩ : Scan).step c := by
      simp only [Scan.step, if_neg hescape, if_neg hq]
    rw [Scan.run_cons, hcomma, Option.bind_some, Scan.run_cons, Scan.run_cons, hstep]
  | comment => rfl

end Scaffold.Router
