import Scaffold.Proofs.Router.Edits
import Scaffold.Proofs.Text.Blanks

/-!
# The entry in the list of routes

An entry is appended in three steps: the blanks at the end of the list are replaced by a line with
the entry, and a comma is inserted behind the last entry, which may be followed by a comment.  The
first step leaves everything before the last character of the list as it is, so the list is found
again and ends behind the new entry (`locate?_append_entry`).  The comma is a harmless insertion
(`harmless_comma`): it stands before a newline or before a comment, and a phrase that has a comma
there does not exist among those that the edits insert.
-/

namespace Scaffold.Router

open Text (Apart InOrder occurrences isBlank)

variable {p u v w : Text} {n : Names}

/-! ## Where the list is, in terms of its parts -/

lemma append_of_cutEach? {ps : List Text} {t b a : Text} (h : cutEach? (ps ++ [p]) t = some (b, a)) :
    t = b ++ a ∧ p <+: a := by
  induction ps generalizing t b with
  | nil =>
    simp only [List.nil_append, cutEach?, Option.map_some, List.append_nil] at h
    obtain ⟨⟨b', a'⟩, hcut, heq⟩ := Option.bind_eq_some_iff.1 h
    simp only [Option.some.injEq, Prod.mk.injEq] at heq
    obtain ⟨rfl, rfl⟩ := heq
    exact ⟨(Text.append_of_cut? hcut).symm, Text.prefix_of_cut? hcut⟩
  | cons q ps ih =>
    simp only [List.cons_append, cutEach?] at h
    obtain ⟨⟨b₁, a₁⟩, hcut, h⟩ := Option.bind_eq_some_iff.1 h
    obtain ⟨⟨b₂, a₂⟩, hrest, heq⟩ := Option.map_eq_some_iff.1 h
    simp only [Prod.mk.injEq] at heq
    obtain ⟨rfl, rfl⟩ := heq
    obtain ⟨rfl, hp⟩ := ih hrest
    exact ⟨by rw [List.append_assoc]; exact (Text.append_of_cut? hcut).symm, hp⟩

/-- **What it takes to be the list of routes**: the marks lead to its opening bracket, and the scan
that begins there stands before its closing bracket with one bracket open. -/
theorem locate?_eq_some_iff {content : Text} {l : Located} :
    locate? content = some l ↔ ∃ tail rest s, l.list = '[' :: tail ∧ l.after = ']' :: rest ∧
      content = l.before ++ '[' :: (tail ++ l.after) ∧
      cutEach? marks content = some (l.before, '[' :: (tail ++ l.after)) ∧
      (⟨0, .code⟩ : Scan).run l.list = some s ∧ s.depth = 1 ∧
        (s.phase = .code ∨ s.phase = .slash) := by
  have hmarks : marks = [declaration, ['=']] ++ [['[']] := rfl
  rw [locate?_eq]
  constructor
  · intro h
    obtain ⟨⟨before, opened⟩, hcut, h⟩ := Option.bind_eq_some_iff.1 h
    obtain ⟨⟨list, after⟩, hclose, rfl⟩ := Option.map_eq_some_iff.1 h
    obtain ⟨rest, s, rfl, hopened, hrun, hdepth, hphase⟩ := closing?_eq_some_iff.1 hclose
    obtain ⟨hcontent, tail, hbracket⟩ := append_of_cutEach? (hmarks ▸ hcut)
    cases list with
    | nil =>
      rw [hopened] at hbracket
      simp at hbracket
    | cons c list =>
      rw [hopened, List.cons_append, List.cons_append, List.cons.injEq] at hbracket
      obtain ⟨rfl, -⟩ := hbracket
      subst hopened
      exact ⟨list, rest, s, rfl, rfl, hcontent, hcut, hrun, hdepth, hphase⟩
  · rintro ⟨tail, rest, s, hlist, hafter, -, hcut, hrun, hdepth, hphase⟩
    rw [hcut, Option.bind_some, Option.map_eq_some_iff]
    exact ⟨(l.list, l.after), closing?_eq_some_iff.2
      ⟨rest, s, hafter, by rw [hlist, List.cons_append], hrun, hdepth, hphase⟩, rfl⟩

/-! ## Phrases at the end of the list -/

/-- What stands behind the last entry: the end of the line, or a comment. -/
inductive Border : Text → Prop where
  | line (t : Text) : Border ('\n' :: t)
  | comment {blanks : Text} (hb : ∀ c ∈ blanks, isBlank c = true) (t : Text) :
    Border (blanks ++ '/' :: '/' :: t)

/-- A solid phrase that reaches into blanks reaches beyond them. -/
lemma Solid.exists_of_prefix_blanks {x y t : Text} (hp : Solid p) (heq : p = x ++ y) (hy : y ≠ [])
    (hw : ∀ c ∈ w, isBlank c = true) (hpre : y <+: w ++ t) : ∃ z, z ≠ [] ∧ y = w ++ z ∧ z <+: t := by
  obtain ⟨s, hs⟩ := hpre
  have hlast : ∀ z, y = z → z <+: w → False := by
    rintro z rfl hz
    obtain ⟨q, c, hpc, hc, -⟩ := hp.last
    obtain ⟨y', d, rfl⟩ := (List.eq_nil_or_concat' y).resolve_left hy
    rw [heq, ← List.append_assoc] at hpc
    obtain ⟨-, hdc⟩ := List.append_inj' hpc rfl
    simp only [List.cons.injEq, and_true] at hdc
    rw [← hdc, hw d (hz.subset (by simp))] at hc
    cases hc
  rcases List.append_eq_append_iff.1 hs with ⟨z, rfl, -⟩ | ⟨z, rfl, ht⟩
  · exact (hlast y rfl (List.prefix_append _ _)).elim
  · refine ⟨z, ?_, rfl, ⟨s, ht.symm⟩⟩
    rintro rfl
    exact hlast _ rfl (by simp)

/-- A solid phrase does not reach into the closing bracket. -/
lemma Solid.apart_bracket (hp : Solid p) (u : Text) (hw : ∀ c ∈ w, isBlank c = true) (t : Text) :
    Apart p u (w ++ ']' :: t) := by
  intro x y heq _ hy _ hpre
  obtain ⟨z, hz, rfl, hzt⟩ := hp.exists_of_prefix_blanks heq hy hw hpre
  obtain ⟨c, z, rfl⟩ := List.exists_cons_of_ne_nil hz
  obtain ⟨rfl, -⟩ := List.cons_prefix_cons.1 hzt
  exact hp.bracket (by rw [heq]; simp)

/-- Nor does it reach beyond the border behind the last entry. -/
lemma Solid.apart_border (hp : Solid p) (u : Text) (hv : Border v) : Apart p u v := by
  cases hv with
  | line t => exact Text.apart_of_head_not_mem hp.newline _ _
  | @comment w hw t =>
    intro x y heq _ hy _ hpre
    obtain ⟨z, hz, rfl, hzt⟩ := hp.exists_of_prefix_blanks heq hy hw hpre
    obtain ⟨c, z, rfl⟩ := List.exists_cons_of_ne_nil hz
    obtain ⟨rfl, hzt⟩ := List.cons_prefix_cons.1 hzt
    cases z with
    | nil =>
      obtain ⟨q, d, hpd, -, hslash, -⟩ := hp.last
      rw [heq, ← List.append_assoc] at hpd
      obtain ⟨-, hd⟩ := List.append_inj' hpd rfl
      simp only [List.cons.injEq, and_true] at hd
      exact hslash hd.symm
    | cons d z =>
      obtain ⟨rfl, -⟩ := List.cons_prefix_cons.1 (List.cons_prefix_cons.1 hzt).2
      exact hp.slashes ⟨x ++ w, z, by rw [heq]; simp⟩

/-- Nor is it completed by a comma there: a blank and a name would follow its own. -/
lemma Solid.apart_comma (hp : Solid p) (u : Text) (hv : Border v) : Apart p u (',' :: v) := by
  intro x y heq _ hy _ hpre
  obtain ⟨c, y, rfl⟩ := List.exists_cons_of_ne_nil hy
  obtain ⟨rfl, hpre⟩ := List.cons_prefix_cons.1 hpre
  obtain ⟨c, t, rfl, hblank, hslash⟩ := hp.comma y ⟨x, heq.symm⟩
  cases hv with
  | line t => simp at hpre
  | @comment w hw t =>
    cases w with
    | nil => simp at hpre
    | cons d w =>
      obtain ⟨-, hpre⟩ := List.cons_prefix_cons.1 hpre
      obtain ⟨-, hpre⟩ := List.cons_prefix_cons.1 hpre
      cases w with
      | nil => exact hslash (List.cons_prefix_cons.1 hpre).1
      | cons e w =>
        obtain ⟨rfl, -⟩ := List.cons_prefix_cons.1 hpre
        rw [hw c (by simp)] at hblank
        cases hblank

lemma occurrences_cons_of_ne {c d : Char} (t : Text) (hp : p = c :: u) (hd : d ≠ c) :
    occurrences p (d :: t) = occurrences p t := by
  have hnot : p.isPrefixOf (d :: t) = false := by
    rw [Bool.eq_false_iff, ne_eq, List.isPrefixOf_iff_prefix, hp]
    exact fun hi => hd (List.cons_prefix_cons.1 hi).1.symm
  rw [occurrences, hnot, if_neg Bool.false_ne_true, Nat.zero_add]

lemma Solid.occurrences_blanks (hp : Solid p) (hw : ∀ c ∈ w, isBlank c = true) (t : Text) :
    occurrences p (w ++ t) = occurrences p t := by
  obtain ⟨c, q, heq, hc, -⟩ := hp.first
  induction w with
  | nil => rfl
  | cons d w ih =>
    have hd : d ≠ c := by
      rintro rfl
      rw [hw d (List.mem_cons_self ..)] at hc
      cases hc
    rw [List.cons_append, occurrences_cons_of_ne _ heq hd,
      ih fun e he => hw e (List.mem_cons_of_mem _ he)]

lemma Solid.occurrences_comma (hp : Solid p) (t : Text) :
    occurrences p (',' :: t) = occurrences p t := by
  obtain ⟨c, q, heq, -, hc⟩ := hp.first
  exact occurrences_cons_of_ne t heq hc.symm

lemma Solid.ne_nil (hp : Solid p) : p ≠ [] := by
  obtain ⟨c, q, rfl, -⟩ := hp.first
  simp

lemma solid_declaration : Solid declaration where
  newline := by decide
  bracket := by decide
  first := ⟨'c', "onst apiRoutes".toList, rfl, by decide, by decide⟩
  last := ⟨"const apiRoute".toList, 's', rfl, by decide, by decide, by decide⟩
  slashes := Text.not_infix_of_not_occurs (by decide)
  comma := fun t ht => absurd (ht.subset (List.mem_cons_self ..)) (by decide)

/-! ## The comment behind the last entry -/

/-- What a scan returns, less the characters that it went over. -/
lemma exists_of_map_fst {f : Text → Text} {g : Text × Text → Text × Text} {o : Option (Text × Text)}
    {b c : Text} (h : o.map g = some (b, c)) (hg : ∀ x y, g (x, y) = (f x, y)) :
    ∃ b', o = some (b', c) ∧ b = f b' := by
  obtain ⟨⟨b', c'⟩, rfl, heq⟩ := Option.map_eq_some_iff.1 h
  obtain ⟨rfl, rfl⟩ := Prod.mk.inj ((hg b' c').symm.trans heq)
  exact ⟨b', rfl, rfl⟩

/-- A comment is found behind code that does not end with a slash. -/
lemma comment?_eq_some {mode : Mode} {line b c : Text} (hmode : ∀ q, mode = .string q → q ≠ '/')
    (h : comment? mode line = some (b, c)) :
    line = b ++ c ∧ (∃ t, c = '/' :: '/' :: t) ∧ b.getLast? ≠ some '/' ∧
      ∀ q, mode = .string q → b ≠ [] := by
  fun_induction comment? mode line generalizing b with
  | case1 => cases h
  | case2 q d rest ih =>
    obtain ⟨b', hrest, rfl⟩ := exists_of_map_fst h fun _ _ => rfl
    obtain ⟨rfl, hc, hlast, hne⟩ := ih hmode hrest
    obtain ⟨e, b', rfl⟩ := List.exists_cons_of_ne_nil (hne q rfl)
    exact ⟨rfl, hc, by simpa [List.getLast?_cons_cons] using hlast, by simp⟩
  | case3 q e rest _ ih =>
    obtain ⟨b', hrest, rfl⟩ := exists_of_map_fst h fun _ _ => rfl
    by_cases he : e = q
    · rw [if_pos he] at ih hrest
      obtain ⟨rfl, hc, hlast, -⟩ := ih (by simp) hrest
      refine ⟨rfl, hc, ?_, by simp⟩
      cases b' with
      | nil =>
        rw [List.getLast?_singleton, ne_eq, Option.some.injEq, he]
        exact hmode q rfl
      | cons f b' => simpa [List.getLast?_cons_cons] using hlast
    · rw [if_neg he] at ih hrest
      obtain ⟨rfl, hc, hlast, hne⟩ := ih hmode hrest
      obtain ⟨f, b', rfl⟩ := List.exists_cons_of_ne_nil (hne q rfl)
      exact ⟨rfl, hc, by simpa [List.getLast?_cons_cons] using hlast, by simp⟩
  | case4 mode rest hstring =>
    simp only [Option.some.injEq, Prod.mk.injEq] at h
    obtain ⟨rfl, rfl⟩ := h
    exact ⟨rfl, ⟨rest, rfl⟩, by simp, fun q hq => (hstring q hq).elim⟩
  | case5 mode e rest _ hstring hslash ih =>
    obtain ⟨b', hrest, rfl⟩ := exists_of_map_fst h fun _ _ => rfl
    have hmode' : ∀ q, (if isQuote e = true then Mode.string e else .code) = .string q → q ≠ '/' := by
      rintro q hq rfl
      split at hq
      · rename_i he
        cases hq
        exact absurd he (by decide)
      · cases hq
    obtain ⟨rfl, ⟨t, rfl⟩, hlast, -⟩ := ih hmode' hrest
    refine ⟨rfl, ⟨t, rfl⟩, ?_, by simp⟩
    cases b' with
    | nil =>
      -- otherwise the comment would begin here
      rw [List.getLast?_singleton, ne_eq, Option.some.injEq]
      exact fun he => hslash ('/' :: t) he rfl
    | cons f b' => simpa [List.getLast?_cons_cons] using hlast

/-- A comment at the end of a text, with the blanks before it. -/
inductive IsComment : Text → Prop
  | comment {blanks words : Text} (hblanks : ∀ c ∈ blanks, isBlank c = true) (hwords : '\n' ∉ words) :
    IsComment (blanks ++ '/' :: '/' :: words)

lemma border_of_isComment {comment : Text} (h : comment = [] ∨ IsComment comment) (t : Text) :
    Border (comment ++ '\n' :: t) := by
  rcases h with rfl | h
  · exact .line t
  · cases h with
    | comment hblanks hwords =>
      rw [List.append_assoc]
      exact .comment hblanks _

/-- A text cut before the comment on its last line. -/
structure Splits (head code comment : Text) : Prop where
  append : head = code ++ comment
  isComment : comment = [] ∨ IsComment comment
  /-- The two slashes are not the last ones of three. -/
  slash : comment.head? = some '/' → code.getLast? ≠ some '/'
  trimmed : (∀ c, head.getLast? = some c → isBlank c = false) → ∀ c, code.getLast? = some c → isBlank c = false

/-- The line that a text ends with. -/
def lastLine (t : Text) : Text := (t.reverse.takeWhile (· != '\n')).reverse

/-- What stands before the last line ends with a newline. -/
lemma exists_lastLine (t : Text) :
    ∃ u, t = u ++ lastLine t ∧ '\n' ∉ lastLine t ∧ ∀ c, u.getLast? = some c → c = '\n' := by
  refine ⟨(t.reverse.dropWhile (· != '\n')).reverse, ?_, ?_, fun c hc => ?_⟩
  · rw [lastLine, ← List.reverse_append, List.takeWhile_append_dropWhile, List.reverse_reverse]
  · intro hmem
    rw [lastLine, List.mem_reverse] at hmem
    simpa using List.all_eq_true.1 (List.all_takeWhile (p := (· != '\n')) (l := t.reverse)) _ hmem
  · have hnewline := List.head?_dropWhile_not (· != '\n') t.reverse
    rw [List.getLast?_reverse] at hc
    rw [hc] at hnewline
    simpa using hnewline

lemma splitComment_of_none {t : Text} (h : comment? .code (lastLine t) = none) : splitComment t = (t, []) := by
  rw [lastLine] at h
  unfold splitComment
  simp only [h]

lemma splitComment_of_some {t x b c : Text} (hx : t = x ++ lastLine t)
    (h : comment? .code (lastLine t) = some (b, c)) :
    splitComment t = (Text.trimRight (x ++ b), t.drop (Text.trimRight (x ++ b)).length) := by
  obtain ⟨hline, -⟩ := comment?_eq_some (by simp) h
  have hcode : t.take (t.length - c.length) = x ++ b := by
    conv_lhs => rw [hx, hline, ← List.append_assoc, List.length_append, Nat.add_sub_cancel, List.take_left]
  rw [lastLine] at h
  unfold splitComment
  simp only [h, hcode]

/-- Splitting a text at the comment on its last line loses nothing, and code that a comment follows
directly does not end with a slash. -/
lemma splitComment_spec {head code comment : Text} (h : splitComment head = (code, comment)) :
    Splits head code comment := by
  obtain ⟨pre, hhead, hone, hpre⟩ := exists_lastLine head
  cases hcomment : comment? .code (lastLine head) with
  | none =>
    obtain ⟨rfl, rfl⟩ := Prod.mk.inj ((splitComment_of_none hcomment).symm.trans h)
    exact ⟨(List.append_nil head).symm, .inl rfl, by simp, id⟩
  | some r =>
    obtain ⟨b, c⟩ := r
    obtain ⟨hbc, ⟨t, rfl⟩, hlast, -⟩ := comment?_eq_some (by simp) hcomment
    obtain ⟨w, htrim, hblank, hcode⟩ := Text.eq_trimRight_append (pre ++ b)
    have hwhole : head = Text.trimRight (pre ++ b) ++ (w ++ '/' :: '/' :: t) := by
      rw [← List.append_assoc, ← htrim, List.append_assoc, ← hbc]
      exact hhead
    have hdrop : head.drop (Text.trimRight (pre ++ b)).length = w ++ '/' :: '/' :: t :=
      (congrArg (List.drop _) hwhole).trans List.drop_left
    rw [splitComment_of_some hhead hcomment, hdrop] at h
    obtain ⟨rfl, rfl⟩ := Prod.mk.inj h
    refine ⟨hwhole, .inr (.comment hblank fun hmem => hone (by rw [hbc]; simp [hmem])), fun hslash => ?_,
      fun _ => hcode⟩
    cases w with
    | cons d w =>
      rw [List.cons_append, List.head?_cons, Option.some.injEq] at hslash
      have hd := hblank d (List.mem_cons_self ..)
      rw [hslash] at hd
      exact absurd hd (by decide)
    | nil =>
      rw [List.append_nil] at htrim
      rw [← htrim]
      rcases List.eq_nil_or_concat' b with rfl | ⟨b, d, rfl⟩
      · -- the comment is all of its line, and a newline stands before it
        rw [List.append_nil]
        exact fun hlast => absurd (hpre _ hlast) (by decide)
      · rw [← List.append_assoc, List.getLast?_concat]
        rwa [List.getLast?_concat] at hlast

/-! ## The edit -/

/-- The line with an entry, and the end of the list. -/
def entryLine (entry after : Text) : Text := '\n' :: ' ' :: ' ' :: (entry ++ '\n' :: after)

lemma isBlank_lineStart : ∀ c ∈ ['\n', ' ', ' '], isBlank c = true := Text.forall_mem_of_all (by decide)

/-- The parts of a text with a list when an entry is appended to it: the text before the closing bracket, less
the blanks at its end, is code and perhaps a comment, and a comma may come in between. -/
structure Appends (content : Text) (l : Located) (entry code comma comment result : Text) : Prop where
  located : locate? content = some l
  head_eq : Text.trimRight (l.before ++ l.list) = code ++ comment
  trimmed : ∀ c, code.getLast? = some c → isBlank c = false
  isComment : comment = [] ∨ IsComment comment
  slash : comment.head? = some '/' → code.getLast? ≠ some '/'
  comma_eq : comma = if needsComma l.list code then [','] else []
  result_eq : result = code ++ (comma ++ (comment ++ entryLine entry l.after))

lemma insertRoute_appends {content : Text} {l : Located} (entry : Text) (h : locate? content = some l) :
    ∃ code comma comment result, insertRoute content entry = some result ∧
      Appends content l entry code comma comment result := by
  obtain ⟨w, -, -, hlast⟩ := Text.eq_trimRight_append (l.before ++ l.list)
  rcases hsplit : splitComment (Text.trimRight (l.before ++ l.list)) with ⟨code, comment⟩
  have hspec := splitComment_spec hsplit
  refine ⟨code, _, comment, _, ?_, h, hspec.append, hspec.trimmed hlast, hspec.isComment, hspec.slash, rfl, rfl⟩
  rw [insertRoute, h, Option.map_some]
  simp only [hsplit, entryLine, List.append_assoc, List.cons_append]

lemma exists_appends {content entry result : Text} (h : insertRoute content entry = some result) :
    ∃ l code comma comment, Appends content l entry code comma comment result := by
  obtain ⟨l, hl, -⟩ := Option.map_eq_some_iff.1 h
  obtain ⟨code, comma, comment, result', hinsert, ha⟩ := insertRoute_appends entry hl
  obtain rfl : result = result' := Option.some.inj (h.symm.trans hinsert)
  exact ⟨l, code, comma, comment, ha⟩

namespace Appends

variable {content entry code comma comment result : Text} {l : Located}

/-- Trimming does not reach the text before the list, which begins with its bracket. -/
lemma append_eq (h : Appends content l entry code comma comment result) :
    l.before ++ Text.trimRight l.list = code ++ comment := by
  obtain ⟨tail, rest, s, hlist, -⟩ := locate?_eq_some_iff.1 h.located
  rw [← h.head_eq, hlist, Text.trimRight_cons_of_not_blank (by decide) tail]

lemma comma_cases (h : Appends content l entry code comma comment result) : comma = [] ∨ comma = [','] := by
  rw [h.comma_eq]
  split
  · exact .inr rfl
  · exact .inl rfl

end Appends

/-- Blanks that lead to code begin in code or in a comment. -/
lemma Scan.Regular.of_run_blanks {s s' : Scan} (h : s.Regular) (hw : ∀ c ∈ w, isBlank c = true)
    (hrun : s.run w = some s') (hphase : s'.phase = .code ∨ s'.phase = .slash) :
    s.depth = s'.depth ∧ (s.phase = .code ∨ s.phase = .slash ∨ s.phase = .comment) := by
  -- a string ends with its quote, and no blank is one
  induction w generalizing s with
  | nil =>
    cases hrun
    exact ⟨rfl, hphase.imp_right .inl⟩
  | cons c w ih =>
    have hblank : ∀ d, isBlank d = false → c ≠ d := by
      rintro d hd rfl
      rw [hw c (List.mem_cons_self ..)] at hd
      cases hd
    have hplain := Scan.isSignal_eq_false_of_isBlank (hw c (List.mem_cons_self ..))
    rw [Scan.run_cons] at hrun
    obtain ⟨s₁, hstep, hrun⟩ := Option.bind_eq_some_iff.1 hrun
    obtain ⟨hdepth, hphase₁⟩ := ih (h.step hstep) (fun e he => hw e (List.mem_cons_of_mem _ he)) hrun
    obtain ⟨d, p⟩ := s
    cases p with
    | code =>
      simp only [Scan.step, Scan.readCode_of_plain hplain, Option.some.injEq] at hstep
      rw [← hdepth, ← hstep]
      exact ⟨rfl, .inl rfl⟩
    | slash =>
      simp only [Scan.step, if_neg (hblank '/' (by decide)), Scan.readCode_of_plain hplain,
        Option.some.injEq] at hstep
      rw [← hdepth, ← hstep]
      exact ⟨rfl, .inr (.inl rfl)⟩
    | string q =>
      have hq : c ≠ q := by
        rintro rfl
        have hquote : isQuote c = true := h c (.inl rfl)
        rw [Scan.isQuote_eq_false_of_isBlank (hw c (List.mem_cons_self ..))] at hquote
        cases hquote
      simp only [Scan.step, if_neg (hblank '\\' (by decide)), if_neg hq, Option.some.injEq] at hstep
      rw [← hstep] at hphase₁
      simp at hphase₁
    | escaped q =>
      simp only [Scan.step, Option.some.injEq] at hstep
      rw [← hstep] at hphase₁
      simp at hphase₁
    | comment =>
      simp only [Scan.step, Option.some.injEq] at hstep
      rw [← hdepth, ← hstep]
      exact ⟨rfl, .inr (.inr rfl)⟩

/-- A line with an entry leads back to code. -/
lemma run_entryLine {s : Scan} (h : n.IsModule)
    (hphase : s.phase = .code ∨ s.phase = .slash ∨ s.phase = .comment) :
    s.run ('\n' :: ' ' :: ' ' :: (registration n ++ ['\n'])) = some ⟨s.depth, .code⟩ := by
  obtain ⟨d, p⟩ := s
  have hnewline : (⟨d, p⟩ : Scan).step '\n' = some ⟨d, .code⟩ := by
    simp only at hphase
    rcases hphase with rfl | rfl | rfl <;> rfl
  have hblank : (⟨d, .code⟩ : Scan).step ' ' = some ⟨d, .code⟩ := rfl
  rw [Scan.run_cons, hnewline, Option.bind_some, Scan.run_cons, hblank, Option.bind_some,
    Scan.run_cons, hblank, Option.bind_some, Scan.run_append, run_registration h]
  rfl

/-- Trimming leaves the bracket of the list. -/
lemma exists_trimRight_list {content : Text} {l : Located} (hl : locate? content = some l) :
    ∃ tail, Text.trimRight l.list = '[' :: tail := by
  obtain ⟨tail, rest, -, hlist, -⟩ := locate?_eq_some_iff.1 hl
  rw [hlist]
  exact Text.exists_trimRight_cons (by decide) tail

/-- Before the blanks at its end, the list is in code or in a comment. -/
lemma run_trimRight_list {content : Text} {l : Located} (hl : locate? content = some l) :
    ∃ s : Scan, (⟨0, .code⟩ : Scan).run (Text.trimRight l.list) = some s ∧ s.depth = 1 ∧
      (s.phase = .code ∨ s.phase = .slash ∨ s.phase = .comment) := by
  obtain ⟨tail, rest, s, -, -, -, -, hrun, hdepth, hphase⟩ := locate?_eq_some_iff.1 hl
  obtain ⟨w, htrim, hblank, -⟩ := Text.eq_trimRight_append l.list
  rw [htrim, Scan.run_append] at hrun
  obtain ⟨s', hrun', hw⟩ := Option.bind_eq_some_iff.1 hrun
  obtain ⟨hdepth', hphase'⟩ := ((Scan.regular_code 0).run hrun').of_run_blanks hblank hw hphase
  exact ⟨s', hrun', hdepth'.trans hdepth, hphase'⟩

/-- A list in the place of the list of routes is found there. -/
lemma locate?_replace {content x : Text} {l : Located} (hl : locate? content = some l)
    (hx : ∃ tail, x = '[' :: tail) (hrun : (⟨0, .code⟩ : Scan).run x = some ⟨1, .code⟩) :
    locate? (l.before ++ (x ++ l.after)) = some ⟨l.before, x, l.after⟩ := by
  obtain ⟨tail, rest, s, -, hafter, hcontent, hcut, -⟩ := locate?_eq_some_iff.1 hl
  obtain ⟨tail', rfl⟩ := hx
  refine locate?_eq_some_iff.2 ⟨tail', rest, ⟨1, .code⟩, rfl, hafter, rfl, ?_, hrun, rfl, .inl rfl⟩
  have hmarks : marks = [declaration, ['=']] ++ [['[']] := rfl
  rw [hcontent, hmarks] at hcut
  rw [hmarks]
  exact cutEach?_swap (tail' ++ l.after) (by decide) hcut

/-- **The list with one more entry** is found where it was, and ends behind the entry. -/
lemma locate?_append_entry {content : Text} {l : Located} (h : n.IsModule)
    (hl : locate? content = some l) :
    locate? (l.before ++ (Text.trimRight l.list ++ entryLine (registration n) l.after)) =
      some ⟨l.before, Text.trimRight l.list ++ '\n' :: ' ' :: ' ' :: (registration n ++ ['\n']),
        l.after⟩ := by
  obtain ⟨tail, htail⟩ := exists_trimRight_list hl
  obtain ⟨s, hrun, hdepth, hphase⟩ := run_trimRight_list hl
  have hline := run_entryLine h hphase
  have hreplace := locate?_replace hl (x := Text.trimRight l.list ++
    '\n' :: ' ' :: ' ' :: (registration n ++ ['\n'])) ⟨_, by rw [htail, List.cons_append]⟩
    (by rw [Scan.run_append, hrun, Option.bind_some, hline, hdepth])
  simpa only [entryLine, List.append_assoc, List.cons_append, List.nil_append] using hreplace

/-- A slash that a scan has just read is the last character of what it read. -/
lemma Scan.getLast?_of_phase_slash {s s' : Scan} {x : Text} (hx : x ≠ []) (hrun : s.run x = some s')
    (hphase : s'.phase = .slash) : x.getLast? = some '/' := by
  obtain ⟨y, c, rfl⟩ := (List.eq_nil_or_concat' x).resolve_left hx
  obtain ⟨s₁, -, hstep⟩ := Scan.exists_step_of_run_concat hrun
  rw [Scan.phase_step hstep] at hphase
  rw [List.getLast?_concat, Phase.eq_slash_of_next hphase]

/-- A comma is not seen before a blank or a comment, behind a text that does not end with half of its slashes. -/
lemma Scan.run_comma_of_getLast? {x t : Text} {s : Scan} {c : Char} (hx : x ≠ [])
    (hrun : (⟨0, .code⟩ : Scan).run x = some s) (hc : isBlank c = true ∨ c = '/' ∧ x.getLast? ≠ some '/') :
    s.run (',' :: c :: t) = s.run (c :: t) :=
  run_comma ((Scan.regular_code 0).run hrun) <| hc.imp_right fun ⟨hslash, hlast⟩ =>
    ⟨hslash, fun hphase => hlast (Scan.getLast?_of_phase_slash hx hrun hphase)⟩

/-- A comma behind the last entry is harmless. -/
lemma harmless_comma (hv : Border v) (hslash : ∀ t, v = '/' :: t → u.getLast? ≠ some '/') :
    Harmless u [','] v := by
  have hborder : ∃ c t, v = c :: t ∧ (isBlank c = true ∨ c = '/') := by
    cases hv with
    | line t => exact ⟨'\n', t, rfl, .inl (by decide)⟩
    | @comment w hw t =>
      cases w with
      | nil => exact ⟨'/', _, rfl, .inr rfl⟩
      | cons c w => exact ⟨c, _, rfl, .inl (hw c (List.mem_cons_self ..))⟩
  have hcomma : ∀ {x s}, x <:+ u → x ≠ [] → (⟨0, .code⟩ : Scan).run x = some s →
      ∀ c t z, v = c :: t → s.run (',' :: c :: z) = s.run (c :: z) := by
    intro x s hx hne hrun c t z hc
    obtain ⟨c', t', hv', hc'⟩ := hborder
    rw [hc] at hv'
    obtain ⟨rfl, rfl⟩ := List.cons.inj hv'
    refine Scan.run_comma_of_getLast? hne hrun (hc'.imp_right fun hcslash => ⟨hcslash, fun hlast => ?_⟩)
    obtain ⟨y, rfl⟩ := hx
    exact hslash t (by rw [hc, hcslash]) (by rw [List.getLast?_append_of_ne_nil _ hne, hlast])
  obtain ⟨c, t, rfl, hc⟩ := hborder
  refine ⟨⟨solid_declaration.apart_border u hv, solid_declaration.apart_comma u hv,
    Text.apart_of_last_not_mem (by decide) [] _, by decide⟩, by decide, by decide, ?_, ?_⟩
  · intro x s s₁ hx hne hrun hpass
    exact ⟨s₁, by rw [List.singleton_append, hcomma hx hne hrun c t t rfl, hpass]⟩
  · intro x z r s s₁ hx hne hrun hsplit hpass
    cases z with
    | nil =>
      simp only [List.nil_append, List.cons.injEq] at hsplit
      obtain ⟨rfl, -⟩ := hsplit
      exact absurd hc (by decide)
    | cons d z =>
      simp only [List.cons_append, List.cons.injEq] at hsplit
      obtain ⟨rfl, -⟩ := hsplit
      rw [List.singleton_append, hcomma hx hne hrun c t z rfl, hpass]

/-- What follows the code of an edit. -/
lemma Appends.exists_cons {content entry code comma comment result : Text} {l : Located}
    (h : Appends content l entry code comma comment result) (w : Text) :
    ∃ c t, comment ++ '\n' :: w = c :: t ∧ (isBlank c = true ∨ c = '/' ∧ code.getLast? ≠ some '/') := by
  rcases h.isComment with hnil | hcomment
  · exact ⟨'\n', w, by rw [hnil, List.nil_append], .inl (by decide)⟩
  · have hslash := h.slash
    cases hcomment with
    | @comment blanks words hblanks hwords =>
      cases blanks with
      | nil => exact ⟨'/', _, rfl, .inr ⟨rfl, hslash rfl⟩⟩
      | cons c blanks => exact ⟨c, _, rfl, .inl (hblanks c (List.mem_cons_self ..))⟩

lemma Appends.harmless_comma {content entry code comma comment result : Text} {l : Located}
    (h : Appends content l entry code comma comment result) :
    Harmless code [','] (comment ++ entryLine entry l.after) := by
  refine Router.harmless_comma (border_of_isComment h.isComment _) fun t ht => ?_
  obtain ⟨c, t', hc, hfirst⟩ := h.exists_cons (' ' :: ' ' :: (entry ++ '\n' :: l.after))
  obtain rfl : c = '/' := (List.cons.inj (hc.symm.trans ht)).1
  exact (hfirst.resolve_left (by decide)).2

lemma Solid.occurrences_entryLine (hp : Solid p) (entry after : Text) :
    occurrences p (entryLine entry after) = occurrences p entry + occurrences p after := by
  have heq : entryLine entry after = ['\n', ' ', ' '] ++ ((entry ++ ['\n']) ++ after) := by
    simp [entryLine]
  rw [heq, hp.occurrences_blanks isBlank_lineStart, occurrences_line hp.ne_nil hp.newline]

/-- Solid phrases in a list stand in what trimming leaves of it. -/
lemma inOrder_trimRight {ps : List Text} {t : Text} (hps : ∀ p ∈ ps, Solid p) (h : InOrder ps t) :
    InOrder ps (Text.trimRight t) := by
  obtain ⟨w, ht, hw, -⟩ := Text.eq_trimRight_append t
  rw [ht] at h
  have hapart : ∀ p ∈ ps, Apart p (Text.trimRight t) w := by
    intro p hp x y heq _ hy _ hpre
    obtain ⟨z, hz, -, hzt⟩ := (hps p hp).exists_of_prefix_blanks (t := []) heq hy hw (by simpa using hpre)
    exact hz (List.prefix_nil.1 hzt)
  obtain ⟨ps₁, ps₂, rfl, h₁, h₂⟩ := h.split hapart
  cases h₂ with
  | nil => simpa using h₁
  | cons u p h₂ =>
    obtain ⟨c, q, rfl, hc, -⟩ := (hps p (by simp)).first
    rw [hw c (by simp)] at hc
    cases hc

/-- The line with an entry adds the phrases of the entry only, whether there is a comment before it
or not. -/
lemma Solid.occurrences_append_entry {code comment list rest : Text} (hp : Solid p)
    (hcomment : comment = [] ∨ IsComment comment)
    (hsplit : u ++ Text.trimRight list = code ++ comment) (entry : Text) :
    occurrences p (code ++ (comment ++ entryLine entry (']' :: rest))) =
      occurrences p (u ++ (list ++ ']' :: rest)) + occurrences p entry := by
  obtain ⟨w, htrim, hblank, -⟩ := Text.eq_trimRight_append list
  have hborder : ∀ t, Apart p code (comment ++ '\n' :: t) := fun t =>
    hp.apart_border code (border_of_isComment hcomment t)
  have hcode : Apart p code comment := (hborder []).mono (List.suffix_refl _) (List.prefix_append _ _)
  have hnewline := Text.apart_of_head_not_mem hp.newline comment
  have hold : u ++ (list ++ ']' :: rest) = (code ++ comment) ++ (w ++ ']' :: rest) := by
    rw [← hsplit, List.append_assoc, ← List.append_assoc _ w, ← htrim]
  have hentry := hp.occurrences_entryLine entry (']' :: rest)
  rw [hold, Text.occurrences_append hp.ne_nil (hp.apart_bracket _ hblank _),
    hp.occurrences_blanks hblank, Text.occurrences_append hp.ne_nil hcode, entryLine,
    Text.occurrences_append hp.ne_nil (hborder _),
    Text.occurrences_append hp.ne_nil (hnewline _), ← entryLine, hentry]
  omega

/-- An edit adds the phrases of the entry only: a comma in between is part of no phrase. -/
lemma Appends.occurrences_result {content entry code comma comment result : Text} {l : Located}
    (h : Appends content l entry code comma comment result) (hp : Solid p) :
    occurrences p result = occurrences p content + occurrences p entry := by
  obtain ⟨tail, rest, s, hlist, hafter, hcontent, -⟩ := locate?_eq_some_iff.1 h.located
  have hcount : occurrences p (code ++ (comment ++ entryLine entry l.after)) =
      occurrences p content + occurrences p entry := by
    have hcontent' : content = l.before ++ (l.list ++ ']' :: rest) := by
      rw [hcontent, hlist, hafter, List.cons_append]
    rw [hcontent', hafter]
    exact hp.occurrences_append_entry h.isComment h.append_eq entry
  have hv : Border (comment ++ entryLine entry l.after) := border_of_isComment h.isComment _
  rw [← hcount, h.result_eq]
  rcases h.comma_cases with rfl | rfl
  · rfl
  · rw [List.singleton_append, Text.occurrences_append hp.ne_nil (hp.apart_comma code hv),
      hp.occurrences_comma, Text.occurrences_append hp.ne_nil (hp.apart_border code hv)]

/-- **The entry is appended to the list**: the list is found again with all that it had, entries
keep their order, and the new one is the last one. -/
theorem insertRoute_spec {content : Text} {l : Located} (h : n.IsModule)
    (hl : locate? content = some l) :
    ∃ content' l', insertRoute content (registration n) = some content' ∧
      locate? content' = some l' ∧ l.before.Sublist l'.before ∧
      (Text.trimRight l.list).Sublist l'.list ∧ l.after.Sublist l'.after ∧
      (∀ p, Solid p →
        occurrences p content' = occurrences p content + occurrences p (registration n)) ∧
      ∀ ps, (∀ p ∈ ps, Solid p) → InOrder ps l.list → InOrder (ps ++ [registration n]) l'.list := by
  obtain ⟨code, comma, comment, content', hinsert, happend⟩ := insertRoute_appends (registration n) hl
  have hcount := fun p (hp : Solid p) => happend.occurrences_result hp
  have hresult := happend.result_eq
  -- without the comma the list is found at once, and the comma is a harmless insertion into this text
  have hline := locate?_append_entry h hl
  rw [← List.append_assoc, happend.append_eq, List.append_assoc] at hline
  have horder : ∀ ps, (∀ p ∈ ps, Solid p) → InOrder ps l.list → InOrder (ps ++ [registration n])
      (Text.trimRight l.list ++ '\n' :: ' ' :: ' ' :: (registration n ++ ['\n'])) := by
    intro ps hps ho
    exact (inOrder_trimRight hps ho).append
      (InOrder.singleton ['\n', ' ', ' '] (registration n) ['\n'])
  have hsublist := List.sublist_append_left (Text.trimRight l.list)
    ('\n' :: ' ' :: ' ' :: (registration n ++ ['\n']))
  rcases happend.comma_cases with hcomma | hcomma
  · rw [hcomma, List.nil_append] at hresult
    rw [hresult] at hinsert hcount
    exact ⟨_, _, hinsert, hline, .refl _, hsublist, .refl _, hcount, horder⟩
  · rw [hcomma] at hresult
    rw [hresult] at hinsert hcount
    have hv : Border (comment ++ entryLine (registration n) l.after) :=
      border_of_isComment happend.isComment _
    obtain ⟨l', hl', hwide⟩ := (locate?_insert happend.harmless_comma).2 _ hline
    obtain ⟨hbefore, hlist', hafter'⟩ := hwide.sublist
    refine ⟨_, l', hinsert, hl', hbefore, hsublist.trans hlist', hafter', hcount, ?_⟩
    intro ps hps ho
    refine hwide.inOrder ?_ (horder ps hps ho)
    intro p hp
    rcases List.mem_append.1 hp with hp | hp
    · exact (hps p hp).apart_border code hv
    · rw [List.mem_singleton.1 hp]
      exact (solid_registration h).apart_border code hv

end Scaffold.Router
