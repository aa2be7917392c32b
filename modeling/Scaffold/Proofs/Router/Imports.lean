import Scaffold.Proofs.Router.Neutral

/-!
# The imports around an inserted one

The import of a module goes behind the line on which the last `import ` stands (`insertImport_eq`), wherever
the declaration ends that begins there.  A declaration that goes on behind that line is torn apart: what
stands between quotes comes after the new import, so the parts that the new import separates do not make
up the declaration again (`Spans.not_keptIn`).  This is the only thing that goes wrong, and it does exactly if the
last import, or a declaration behind it on its line that writes no blank behind `import`, is broken over
lines (`keepsDeclarations_iff`).
-/

namespace Scaffold.Router

open Text (isBlank)

/-! ## Import declarations -/

/-- What stands between `import` and the path: blanks, or what is imported and `from`. -/
inductive IsClause : Text → Prop
  | effect (blanks : Text) (hblanks : ∀ c ∈ blanks, isBlank c = true) : IsClause blanks
  | names (names blanks : Text) (hstart : ∀ c, names.head? = some c → Text.isIdentifierRest c = false)
      (hnames : ∀ c ∈ names, isQuote c = false ∧ c ≠ ';') (hblanks : ∀ c ∈ blanks, isBlank c = true) :
      IsClause (names ++ ("from".toList ++ blanks))

/-- A static import declaration. -/
structure ImportDeclaration where
  clause : Text
  quote : Char
  path : Text
  ending : Text
  isClause : IsClause clause
  quote_eq : quote = '\'' ∨ quote = '"'
  quote_not_mem : quote ∉ path
  newline_not_mem : '\n' ∉ path
  ending_eq : ending = [] ∨ ending = [';']

/-- The text of a declaration. -/
def ImportDeclaration.text (d : ImportDeclaration) : Text :=
  "import".toList ++ d.clause ++ d.quote :: (d.path ++ d.quote :: d.ending)

/-- A declaration that begins on the first line of a text goes on behind that line. -/
def RunsOver (t : Text) : Prop :=
  ∃ (e : ImportDeclaration) (x y : Text), t = x ++ (e.text ++ y) ∧ '\n' ∉ x ∧ '\n' ∈ e.text

/-- The declaration between `x` and `y` stands in the result as a whole, with the same text before it or
with the same text behind it. -/
def ImportDeclaration.KeptIn (e : ImportDeclaration) (x y result : Text) : Prop :=
  ∃ x' y', result = x' ++ (e.text ++ y') ∧ (x' = x ∨ y' = y)

/-- Every declaration in the text stands in the result as a whole. -/
def KeepsDeclarations (content result : Text) : Prop :=
  ∀ (e : ImportDeclaration) (x y : Text), content = x ++ (e.text ++ y) → e.KeptIn x y result

/-- The result is the text with a new line behind the line that ends with `u`. -/
structure InsertsLine (line u v content result : Text) : Prop where
  content_eq : content = u ++ v
  lineEnd : v = [] ∨ ∃ w, v = '\n' :: w
  result_eq : result = u ++ '\n' :: (line ++ if v = [] then ['\n'] else v)

variable {content statement result before last after u v x y p r : Text} {d e : ImportDeclaration}

lemma IsClause.isQuote_eq_false {clause : Text} (h : IsClause clause) {c : Char} (hc : c ∈ clause) :
    isQuote c = false := by
  cases h with
  | effect _ hblanks => exact Scan.isQuote_eq_false_of_isBlank (hblanks c hc)
  | names names blanks hstart hnames hblanks =>
    simp only [List.mem_append] at hc
    rcases hc with hc | hc | hc
    · exact (hnames c hc).1
    · exact Text.forall_mem_of_all (P := fun c => isQuote c = false) (by decide) c hc
    · exact Scan.isQuote_eq_false_of_isBlank (hblanks c hc)

namespace ImportDeclaration

lemma isQuote_quote (d : ImportDeclaration) : isQuote d.quote = true := by
  rcases d.quote_eq with h | h <;> rw [h] <;> decide

lemma quote_ne_newline (d : ImportDeclaration) : d.quote ≠ '\n' := by
  rcases d.quote_eq with h | h <;> rw [h] <;> decide

lemma quote_mem_text (d : ImportDeclaration) : d.quote ∈ d.text :=
  List.mem_append_right _ (List.mem_cons_self ..)

lemma head?_text (d : ImportDeclaration) : d.text.head? = some 'i' := rfl

lemma text_ne_nil (d : ImportDeclaration) : d.text ≠ [] := by
  intro h
  have := d.head?_text
  rw [h] at this
  cases this

/-- Only a clause has line ends, so no quote stands before one. -/
lemma isQuote_eq_false_of_newline (h : e.text = p ++ '\n' :: r) : ∀ c ∈ p, isQuote c = false := by
  have hkeyword : ∀ c ∈ "import".toList, isQuote c = false := Text.forall_mem_of_all (by decide)
  have hend : '\n' ∉ e.quote :: (e.path ++ e.quote :: e.ending) := by
    have hquote := e.quote_ne_newline.symm
    have hending : '\n' ∉ e.ending := by rcases e.ending_eq with h | h <;> rw [h] <;> decide
    simp [hquote, hending, e.newline_not_mem]
  have hclause : ∀ c ∈ "import".toList ++ e.clause, isQuote c = false := by
    intro c hc
    rcases List.mem_append.1 hc with hc | hc
    · exact hkeyword c hc
    · exact e.isClause.isQuote_eq_false hc
  rcases List.append_eq_append_iff.1 h.symm with ⟨a, hp, -⟩ | ⟨a, -, ha⟩
  · exact fun c hc => hclause c (by rw [hp]; exact List.mem_append_left _ hc)
  · exact absurd (by rw [ha]; simp) hend

/-- A quote stands behind every line end. -/
lemma quote_mem_of_newline (h : e.text = p ++ '\n' :: r) : e.quote ∈ r := by
  have hmem := e.quote_mem_text
  rw [h, List.mem_append, List.mem_cons] at hmem
  rcases hmem with hmem | hmem | hmem
  · have hquote := isQuote_eq_false_of_newline h _ hmem
    rw [e.isQuote_quote] at hquote
    cases hquote
  · exact absurd hmem e.quote_ne_newline
  · exact hmem

/-- A declaration does not begin with its line end. -/
lemma ne_nil_of_newline (h : e.text = p ++ '\n' :: r) : p ≠ [] := by
  rintro rfl
  have hhead := e.head?_text
  rw [h, List.nil_append, List.head?_cons, Option.some.injEq] at hhead
  exact absurd hhead (by decide)

end ImportDeclaration

/-! ## Torn declarations -/

/-- A line end between `u` and `v` stands in the declaration between `x` and `y`. -/
def ImportDeclaration.Spans (e : ImportDeclaration) (x y u v : Text) : Prop :=
  ∃ p r, e.text = p ++ '\n' :: r ∧ u = x ++ p ∧ v = '\n' :: (r ++ y)

lemma importStatement_ends (n : Names) :
    "import ".toList <+: importStatement n ∧ ∃ s, importStatement n = s ++ ['\''] := by
  rw [importStatement_eq]
  refine ⟨List.prefix_append _ _, ?_⟩
  simp only [← List.cons_append, ← List.append_assoc]
  exact ⟨_, rfl⟩

namespace ImportDeclaration

/-- The new line stands in a declaration, or the declaration stands before it or behind it. -/
lemma spans_or_keptIn (h : InsertsLine statement u v content result)
    (he : content = x ++ (e.text ++ y)) : e.Spans x y u v ∨ e.KeptIn x y result := by
  rw [h.content_eq] at he
  rw [h.result_eq]
  rcases List.append_eq_append_iff.1 he with ⟨a, rfl, rfl⟩ | ⟨a, rfl, hv⟩
  · -- the declaration stands behind the line
    refine .inr ⟨u ++ '\n' :: (statement ++ a), y, ?_, .inr rfl⟩
    rw [if_neg (by simp [e.text_ne_nil])]
    simp
  · rcases List.append_eq_append_iff.1 hv with ⟨b, rfl, rfl⟩ | ⟨b, hb, rfl⟩
    · -- it stands before the line
      exact .inr ⟨x, _, by rw [List.append_assoc, List.append_assoc], .inl rfl⟩
    · cases b with
      | nil =>
        rw [List.append_nil] at hb
        exact .inr ⟨x, _, by rw [← hb, List.append_assoc], .inl rfl⟩
      | cons c b =>
        obtain ⟨w, hw⟩ := h.lineEnd.resolve_left (by simp)
        obtain ⟨rfl, rfl⟩ := List.cons.inj hw
        exact .inl ⟨a, b, hb, rfl, rfl⟩

/-- A declaration that the new line stands in is torn: the path and its quotes come after the new import,
and no import of the text begins there. -/
lemma Spans.not_keptIn {n : Names} (hlast : Text.cutLast? "import ".toList content = some (before, last))
    (h : InsertsLine (importStatement n) u v content result) (hu : before <+: u) (hs : e.Spans x y u v) :
    ¬ e.KeptIn x y result := by
  obtain ⟨p, r, he, rfl, rfl⟩ := hs
  obtain ⟨⟨rest, hstart⟩, s, hend⟩ := importStatement_ends n
  have hquotes := isQuote_eq_false_of_newline he
  rintro ⟨x', y', hresult, rfl | rfl⟩
  · -- the part behind the line end would have to begin like the new import
    rw [h.result_eq, if_neg (by simp), he] at hresult
    have htail : importStatement n ++ '\n' :: (r ++ y) = r ++ y' := by simpa using hresult
    have hprefix : r <+: "import ".toList ++ (rest ++ '\n' :: (r ++ y)) := by
      rw [← List.append_assoc, hstart, htail]
      exact List.prefix_append _ _
    have hquote := quote_mem_of_newline he
    have hphrase : "import ".toList <+: r := by
      refine (List.prefix_or_prefix_of_prefix (List.prefix_append _ _) hprefix).resolve_right fun hr => ?_
      have hnot : isQuote e.quote = false :=
        Text.forall_mem_of_all (P := fun c => isQuote c = false) (by decide) _ (hr.subset hquote)
      rw [e.isQuote_quote] at hnot
      cases hnot
    obtain ⟨r, rfl⟩ := hphrase
    have hcontent : content = (x' ++ p ++ ['\n']) ++ ("import ".toList ++ (r ++ y)) := by
      rw [h.content_eq]
      simp
    rw [hcontent] at hlast
    have hle := (Text.length_le_of_cutLast? hlast).trans hu.length_le
    simp only [List.length_append, List.length_singleton] at hle
    omega
  · -- the part before it would have to end like the new import
    rw [h.result_eq, if_neg (by simp), he, hend] at hresult
    obtain ⟨q, c, rfl⟩ := (List.eq_nil_or_concat' p).resolve_left (ne_nil_of_newline he)
    have hcut : (x ++ (q ++ [c]) ++ '\n' :: s) ++ ['\''] = (x' ++ q) ++ [c] := by
      have hlong : (x ++ (q ++ [c]) ++ '\n' :: s ++ ['\'']) ++ '\n' :: (r ++ y') =
          (x' ++ q ++ [c]) ++ '\n' :: (r ++ y') := by simpa using hresult
      exact List.append_cancel_right hlong
    obtain ⟨-, hc⟩ := List.append_inj' hcut rfl
    have hquote := hquotes c (by simp)
    rw [← (List.cons.inj hc).1] at hquote
    exact absurd hquote (by decide)

end ImportDeclaration

/-! ## Where the import goes -/

lemma insertImport_eq (hlast : Text.cutLast? "import ".toList content = some (before, last))
    (statement : Text) :
    InsertsLine statement (before ++ last.takeWhile (· != '\n')) (last.dropWhile (· != '\n')) content
      (insertImport content statement) := by
  have hcontent := Text.append_of_cutLast? hlast
  have hparts := List.takeWhile_append_dropWhile (p := (· != '\n')) (l := last)
  have hhead := List.head?_dropWhile_not (· != '\n') last
  unfold insertImport
  rw [hlast]
  cases hdrop : last.dropWhile (· != '\n') with
  | nil =>
    rw [hdrop, List.append_nil] at hparts
    refine ⟨by rw [← hcontent, hparts, List.append_nil], .inl rfl, ?_⟩
    simp [hparts, hcontent, hdrop]
  | cons c rest =>
    rw [hdrop] at hhead hparts
    have hc : c = '\n' := by simpa using hhead
    refine ⟨by rw [← hcontent, List.append_assoc, hparts], .inr ⟨rest, by rw [hc]⟩, ?_⟩
    simp [hc, hdrop]

lemma takeWhile_line {t w : Text} (h : '\n' ∉ t) :
    (t ++ w).takeWhile (· != '\n') = t ++ w.takeWhile (· != '\n') ∧
      (t ++ w).dropWhile (· != '\n') = w.dropWhile (· != '\n') := by
  have hline := Text.forall_bne_of_not_mem h
  exact ⟨List.takeWhile_append_of_pos hline, List.dropWhile_append_of_pos hline⟩

/-- A declaration that goes on behind its line is torn. -/
lemma RunsOver.not_keepsDeclarations {n : Names}
    (hlast : Text.cutLast? "import ".toList content = some (before, last)) (h : RunsOver last) :
    ¬ KeepsDeclarations content (insertImport content (importStatement n)) := by
  obtain ⟨e, x, y, hxy, hx, hnewline⟩ := h
  obtain ⟨p, r, he, hp⟩ := List.eq_append_cons_of_mem hnewline
  have hsplit : last = (x ++ p) ++ '\n' :: (r ++ y) := by rw [hxy, he]; simp
  obtain ⟨htake, hdrop⟩ := takeWhile_line (w := '\n' :: (r ++ y)) (List.not_mem_append hx hp)
  rw [List.takeWhile_cons_of_neg (by simp), List.append_nil] at htake
  rw [List.dropWhile_cons_of_neg (by simp)] at hdrop
  have hinsert := insertImport_eq hlast (importStatement n)
  rw [hsplit, htake, hdrop] at hinsert
  have hspans : e.Spans (before ++ x) y (before ++ (x ++ p)) ('\n' :: (r ++ y)) :=
    ⟨p, r, he, (List.append_assoc _ _ _).symm, rfl⟩
  have hcontent : content = (before ++ x) ++ (e.text ++ y) := by
    rw [List.append_assoc, ← hxy, Text.append_of_cutLast? hlast]
  exact fun hkeeps =>
    hspans.not_keptIn hlast hinsert (List.prefix_append _ _) (hkeeps e (before ++ x) y hcontent)

/-- A declaration that the new line stands in begins behind a last import that is written on one line. -/
lemma ImportDeclaration.Spans.runsOver
    (hs : e.Spans x y (before ++ (d.text ++ after.takeWhile (· != '\n'))) (after.dropWhile (· != '\n'))) :
    RunsOver after := by
  obtain ⟨p, r, he, hu, hv⟩ := hs
  obtain ⟨c, q, rfl⟩ := List.exists_cons_of_ne_nil (ne_nil_of_newline he)
  have hquote : d.quote ∉ c :: q := fun hmem => by
    have := isQuote_eq_false_of_newline he _ hmem
    rw [d.isQuote_quote] at this
    cases this
  have hc : c = 'i' := by
    have hhead := e.head?_text
    rw [he] at hhead
    exact Option.some.inj hhead
  -- what stands before the line end begins behind the path of the last import
  have hbehind : ∃ a, d.ending ++ after.takeWhile (· != '\n') = a ++ c :: q := by
    have hsplit : (before ++ "import".toList ++ d.clause ++ d.quote :: d.path) ++ d.quote ::
        (d.ending ++ after.takeWhile (· != '\n')) = x ++ c :: q := by
      refine Eq.trans ?_ hu
      unfold ImportDeclaration.text
      generalize "import".toList = keyword
      simp only [List.append_assoc, List.cons_append]
    rcases List.append_eq_append_iff.1 hsplit with ⟨a, -, ha⟩ | ⟨a, -, ha⟩
    · cases a with
      | nil => exact absurd (by rw [List.nil_append] at ha; rw [← ha]; simp) hquote
      | cons f a => exact ⟨a, (List.cons.inj ha).2⟩
    · exact absurd (by rw [ha]; simp) hquote
  have hline : ∃ z, after.takeWhile (· != '\n') = z ++ c :: q := by
    obtain ⟨a, ha⟩ := hbehind
    rcases d.ending_eq with hending | hending
    · exact ⟨a, by rw [← ha, hending, List.nil_append]⟩
    · rw [hending, List.singleton_append] at ha
      cases a with
      | nil =>
        have := (List.cons.inj ha).1
        rw [hc] at this
        exact absurd this (by decide)
      | cons f a => exact ⟨a, (List.cons.inj ha).2⟩
  obtain ⟨z, hz⟩ := hline
  refine ⟨e, z, y, ?_, fun hmem => ?_, by rw [he]; simp⟩
  · rw [← List.takeWhile_append_dropWhile (p := (· != '\n')) (l := after), hz, hv, he]
    simp
  · have hne := List.all_eq_true.1 (List.all_takeWhile (p := (· != '\n')) (l := after)) '\n'
      (by rw [hz]; exact List.mem_append_left _ hmem)
    simp at hne

/-- **Where the import goes and what it tears.**  The import stands behind the last declaration exactly if
that is written on one line; all declarations stay whole exactly if moreover no other one begins behind it on
its line and goes on behind the line. -/
theorem keepsDeclarations_iff (n : Names)
    (hlast : Text.cutLast? "import ".toList content = some (before, d.text ++ after)) :
    (∃ u v, InsertsLine (importStatement n) u v content (insertImport content (importStatement n)) ∧
      (before ++ d.text <+: u ↔ '\n' ∉ d.text)) ∧
    (KeepsDeclarations content (insertImport content (importStatement n)) ↔
      '\n' ∉ d.text ∧ ¬ RunsOver after) := by
  have hinsert := insertImport_eq hlast (importStatement n)
  by_cases hd : '\n' ∈ d.text
  · have hover : RunsOver (d.text ++ after) := ⟨d, [], after, rfl, List.not_mem_nil, hd⟩
    refine ⟨⟨_, _, hinsert, iff_of_false (fun hbefore => ?_) fun h => h hd⟩,
      iff_of_false (hover.not_keepsDeclarations hlast) fun h => h.1 hd⟩
    rw [List.prefix_append_right_inj] at hbefore
    have hne := List.all_eq_true.1 (List.all_takeWhile (p := (· != '\n'))) '\n' (hbefore.subset hd)
    simp at hne
  · obtain ⟨htake, hdrop⟩ := takeWhile_line (w := after) hd
    rw [htake, hdrop] at hinsert
    refine ⟨⟨_, _, hinsert, iff_of_true ?_ hd⟩, fun hkeeps => ⟨hd, fun hover => ?_⟩, fun h e x y he => ?_⟩
    · rw [← List.append_assoc]
      exact List.prefix_append _ _
    · obtain ⟨e, x, y, rfl, hx, hnewline⟩ := hover
      refine RunsOver.not_keepsDeclarations hlast ⟨e, d.text ++ x, y, by simp, ?_, hnewline⟩ hkeeps
      exact List.not_mem_append hd hx
    · exact (e.spans_or_keptIn hinsert he).resolve_left fun hs => h.2 hs.runsOver

/-- An import on one line. -/
def expressImport : ImportDeclaration where
  clause := " express from "
  quote := '\''
  path := "express"
  ending := ";"
  isClause := by
    have hstart : ∀ c, " express ".toList.head? = some c → Text.isIdentifierRest c = false := fun c hc => by
      obtain rfl : ' ' = c := Option.some.inj hc
      decide
    exact .names " express " " " hstart (Text.forall_mem_of_all (by decide)) (Text.forall_mem_of_all (by decide))
  quote_eq := .inl rfl
  quote_not_mem := by decide
  newline_not_mem := by decide
  ending_eq := .inr rfl

/-- The imports of a router file with an import on one line stay. -/
theorem keepsDeclarations_express :
    let content : Text := "import express from 'express';\n\nconst apiRoutes = [\n];\n"
    Text.cutLast? "import ".toList content =
        some ([], expressImport.text ++ "\n\nconst apiRoutes = [\n];\n".toList) ∧
      KeepsDeclarations content (insertImport content (importStatement ⟨"User", "User", "user"⟩)) := by
  intro content
  have hlast : Text.cutLast? "import ".toList content =
      some ([], expressImport.text ++ "\n\nconst apiRoutes = [\n];\n".toList) := by decide
  refine ⟨hlast, ((keepsDeclarations_iff ⟨"User", "User", "user"⟩ hlast).2).2 ⟨by decide, ?_⟩⟩
  rintro ⟨e, x, y, hafter, -⟩
  have hquote : e.quote ∈ "\n\nconst apiRoutes = [\n];\n".toList := by
    rw [hafter]
    exact List.mem_append_right _ (List.mem_append_left _ e.quote_mem_text)
  have hnot := Text.forall_mem_of_all (P := fun c => isQuote c = false) (by decide) _ hquote
  rw [e.isQuote_quote] at hnot
  cases hnot

/-- An import over three lines. -/
def routerImport : ImportDeclaration where
  clause := " \x7b\n  Router,\n\x7d from "
  quote := '\''
  path := "express"
  ending := ";"
  isClause := by
    have hstart : ∀ c, " \x7b\n  Router,\n\x7d ".toList.head? = some c → Text.isIdentifierRest c = false :=
      fun c hc => by
        obtain rfl : ' ' = c := Option.some.inj hc
        decide
    exact .names " \x7b\n  Router,\n\x7d " " " hstart (Text.forall_mem_of_all (by decide))
      (Text.forall_mem_of_all (by decide))
  quote_eq := .inl rfl
  quote_not_mem := by decide
  newline_not_mem := by decide
  ending_eq := .inr rfl

/-- The new import goes behind the first line of an import over several lines. -/
theorem not_keepsDeclarations_router :
    let content : Text := "import \x7b\n  Router,\n\x7d from 'express';\n\nconst apiRoutes = [\n];\n"
    let user : Names := ⟨"User", "User", "user"⟩
    user.IsModule ∧ Text.cutLast? "import ".toList content =
        some ([], routerImport.text ++ "\n\nconst apiRoutes = [\n];\n".toList) ∧
      ¬ KeepsDeclarations content (insertImport content (importStatement user)) := by
  intro content user
  refine ⟨⟨⟨"User", by decide⟩, by decide⟩, by decide, fun hkeeps => ?_⟩
  obtain ⟨x, y, hresult, rfl | rfl⟩ :=
    hkeeps routerImport [] "\n\nconst apiRoutes = [\n];\n".toList (by decide)
  · have hprefix : routerImport.text <+: insertImport content (importStatement user) := ⟨y, hresult.symm⟩
    exact absurd hprefix (by decide)
  · have hsuffix : routerImport.text ++ "\n\nconst apiRoutes = [\n];\n".toList <:+
        insertImport content (importStatement user) := ⟨x, hresult.symm⟩
    exact absurd hsuffix (by decide)

end Scaffold.Router
