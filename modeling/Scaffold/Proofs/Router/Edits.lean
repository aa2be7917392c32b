import Scaffold.Proofs.Router.Insertion

/-!
# What the two edits do

Both edits are insertions.  The import goes to the beginning of a line, wherever that is
(`insertImport_spec`); the entry goes behind the last entry of the list, and the comma that the
last entry may need is a second insertion further up (`insertRoute_spec`).  What is said of each is
the same: the list of routes is found again, entries that stood in it one after another still do,
and every phrase that an edit cannot complete occurs as often as before, not counting the text that
was inserted.
-/

namespace Scaffold.Router

open Text (Apart InOrder occurrences isBlank)

variable {p u m v : Text} {ps : List Text} {l l' : Located} {n : Names}

lemma Widened.sublist (h : Widened u m v l l') :
    l.before.Sublist l'.before ∧ l.list.Sublist l'.list ∧ l.after.Sublist l'.after := by
  have hinsert : ∀ x y : Text, (x ++ y).Sublist (x ++ (m ++ y)) := fun x y =>
    (List.Sublist.refl x).append (List.sublist_append_right m y)
  cases h with
  | before x y list after => exact ⟨hinsert x y, .refl _, .refl _⟩
  | list before after hx hy => exact ⟨.refl _, hinsert _ _, .refl _⟩
  | after before list x y => exact ⟨.refl _, .refl _, hinsert x y⟩

lemma Widened.inOrder (h : Widened u m v l l') (hp : ∀ p ∈ ps, Apart p u v)
    (ho : InOrder ps l.list) : InOrder ps l'.list := by
  cases h with
  | before x y list after => exact ho
  | list before after hx hy => exact ho.insert (fun p hps => (hp p hps).mono hx hy) m
  | after before list x y => exact ho

/-! ## The import -/

/-- The declaration of the list does not stand in an import: where that has a blank behind a `t`, a
brace follows. -/
lemma not_occurs_declaration_importStatement (h : n.IsModule) :
    Text.occurs declaration (importStatement n) = false := by
  have hfolder : ' ' ∉ n.folder := h.not_mem_folder rfl
  have hroute : "Routes".toList = "Route".toList ++ ['s'] := rfl
  -- the declaration has a blank behind a `t`, and neither the symbol nor the path has one there
  have hsymbol : ¬ ['t', ' '] <:+: [' '] ++ (n.className ++ "Routes".toList) :=
    Text.not_infix_pair_append (Text.not_infix_of_not_occurs (by decide))
      (Text.not_infix_pair_of_not_mem_right (not_mem_className_append h rfl (by decide)))
      (.inl (by simp))
  have hpath : ¬ ['t', ' '] <:+: " \x7d from '".toList ++ ("../app/modules/".toList ++ n.folder ++
      '/' :: n.folder ++ ".route".toList ++ ['\'']) := by
    refine Text.not_infix_pair_append (Text.not_infix_of_not_occurs (by decide))
      (Text.not_infix_pair_of_not_mem_right ?_) (.inl (by decide))
    simp only [List.mem_append, List.mem_cons, hfolder]
    decide
  have hrest := Text.not_infix_pair_append hsymbol hpath (.inl (by
    rw [hroute, ← List.append_assoc, ← List.append_assoc, List.getLast?_concat]
    decide))
  have hsplit : importStatement n = "import \x7b".toList ++ ([' '] ++ (n.className ++ "Routes".toList) ++
      (" \x7d from '".toList ++ ("../app/modules/".toList ++ n.folder ++
        '/' :: n.folder ++ ".route".toList ++ ['\'']))) := by
    have himport : "import \x7b".toList = "import ".toList ++ ['{'] := rfl
    have hfrom : " \x7d from '".toList = ' ' :: ("\x7d from ".toList ++ ['\'']) := rfl
    rw [importStatement_eq, himport, hfrom]
    simp only [List.append_assoc, List.cons_append, List.nil_append]
  have hshort : Text.occurrences ['t', ' ', 'a'] (importStatement n) = 0 := by
    have himport : "import \x7b".toList = "import ".toList ++ ['{'] := rfl
    rw [hsplit, himport,
      Text.occurrences_append (by simp) (Text.apart_of_last_not_mem (by decide) _ _), ← himport]
    have hleft : Text.occurrences ['t', ' ', 'a'] "import \x7b".toList = 0 := by decide
    rw [hleft, Nat.zero_add, ← Text.not_occurs_iff_occurrences_eq_zero, Bool.eq_false_iff, ne_eq,
      Text.occurs_iff_isInfix]
    exact fun hi => hrest (List.IsInfix.trans ⟨[], ['a'], rfl⟩ hi)
  rw [Bool.eq_false_iff, ne_eq, Text.occurs_iff_isInfix]
  intro hi
  have hinner : ['t', ' ', 'a'] <:+: declaration := ⟨"cons".toList, "piRoutes".toList, rfl⟩
  rw [← Text.not_occurs_iff_occurrences_eq_zero, Bool.eq_false_iff, ne_eq,
    Text.occurs_iff_isInfix] at hshort
  exact hshort (hinner.trans hi)

/-- Where the import goes. -/
lemma insertImport_cases (content statement : Text) :
    insertImport content statement = (statement ++ ['\n']) ++ content ∨
      insertImport content statement = content ++ '\n' :: (statement ++ ['\n']) ∨
      ∃ u v, content = u ++ '\n' :: v ∧
        insertImport content statement = u ++ '\n' :: ((statement ++ ['\n']) ++ v) := by
  unfold insertImport
  cases hcut : Text.cutLast? "import ".toList content with
  | none => exact .inl (by simp)
  | some r =>
    obtain ⟨before, last⟩ := r
    have hcontent := Text.append_of_cutLast? hcut
    have hlast := List.takeWhile_append_dropWhile (p := (· != '\n')) (l := last)
    have hhead := List.head?_dropWhile_not (· != '\n') last
    simp only
    cases hdrop : last.dropWhile (· != '\n') with
    | nil => exact .inr (.inl (by simp))
    | cons newline rest =>
      rw [hdrop] at hlast hhead
      have hnewline : newline = '\n' := by simpa using hhead
      refine .inr (.inr ⟨before ++ last.takeWhile (· != '\n'), rest, ?_, ?_⟩)
      · rw [hnewline] at hlast
        rw [← hcontent, List.append_assoc, hlast]
      · simp [hnewline]

lemma occurrences_newline (hp : p ≠ []) (hnewline : '\n' ∉ p) (t : Text) :
    occurrences p ('\n' :: t) = occurrences p t := by
  have hnot : p.isPrefixOf ('\n' :: t) = false := by
    rw [Bool.eq_false_iff, ne_eq, List.isPrefixOf_iff_prefix]
    intro hi
    cases p with
    | nil => exact hp rfl
    | cons c p =>
      obtain ⟨rfl, -⟩ := List.cons_prefix_cons.1 hi
      simp at hnewline
  rw [Text.occurrences, hnot, if_neg Bool.false_ne_true, Nat.zero_add]

lemma occurrences_line (hp : p ≠ []) (hnewline : '\n' ∉ p) (t v : Text) :
    occurrences p ((t ++ ['\n']) ++ v) = occurrences p t + occurrences p v := by
  rw [List.append_assoc, List.singleton_append,
    Text.occurrences_append hp (Text.apart_of_head_not_mem hnewline _ _),
    occurrences_newline hp hnewline]

/-- What an edit of the text around a phrase leaves of it. -/
structure Keeps (p u m v t : Text) : Prop where
  border : Apart p u v
  count : occurrences p (u ++ (m ++ v)) = occurrences p (u ++ v) + occurrences p t

/-- A line keeps the phrases around it. -/
lemma keeps_line {t : Text} (hp : p ≠ []) (hnewline : '\n' ∉ p)
    (hu : u = [] ∨ ∃ w, u = w ++ ['\n']) : Keeps p u (t ++ ['\n']) v t := by
  have hleft : ∀ z, Apart p u z := by
    intro z
    rcases hu with rfl | ⟨w, rfl⟩
    · exact Text.apart_nil_left _ _
    · exact Text.apart_of_last_not_mem hnewline _ _
  refine ⟨hleft v, ?_⟩
  rw [Text.occurrences_append hp (hleft _), Text.occurrences_append hp (hleft _),
    occurrences_line hp hnewline]
  omega

lemma Scan.Regular.atLineStart_of_run {x : Text} {s s' : Scan} (h : s.Regular)
    (hrun : s.run (x ++ ['\n']) = some s') : s'.AtLineStart := by
  rw [Scan.run_append] at hrun
  obtain ⟨s₁, hx, hs⟩ := Option.bind_eq_some_iff.1 hrun
  have hstep : s₁.step '\n' = some s' := by
    rw [Scan.run_cons] at hs
    obtain ⟨s₂, hs₂, hs⟩ := Option.bind_eq_some_iff.1 hs
    rw [hs₂, ← hs]
    rfl
  exact (h.run hx).atLineStart hstep

/-- An import at the beginning of a line is harmless. -/
lemma harmless_importLine (h : n.IsModule) (hu : u = [] ∨ ∃ w, u = w ++ ['\n']) (v : Text) :
    Harmless u (importStatement n ++ ['\n']) v := by
  -- at the beginning of a line a scan is in code or in a string that goes on, and comes out as it went in
  have hstart : ∀ {x s}, x <:+ u → x ≠ [] → (⟨0, .code⟩ : Scan).run x = some s →
      s.run (importStatement n ++ ['\n']) = some s := by
    intro x s hx hne hrun
    refine run_importLine h ?_
    obtain ⟨y, c, rfl⟩ := (List.eq_nil_or_concat' x).resolve_left hne
    rcases hu with rfl | ⟨w, rfl⟩
    · simp at hx
    · obtain ⟨t, ht⟩ := hx
      rw [← List.append_assoc] at ht
      obtain ⟨-, hc⟩ := List.append_inj' ht rfl
      rw [hc] at hrun
      exact (Scan.regular_code 0).atLineStart_of_run hrun
  have hmarks : ∀ c, c ∉ "import \x7b Routes \x7d from '../app/modules/.route'".toList →
      Text.isIdentifierRest c = false → c.toNat < 128 → c ≠ '\n' →
      c ∉ importStatement n ++ ['\n'] := by
    intro c hlit hc ha hne
    rw [List.mem_append, not_or]
    exact ⟨not_mem_importStatement h hc ha hlit, by simpa using hne⟩
  have hleft : ∀ z, Apart declaration u z := by
    intro z
    rcases hu with rfl | ⟨w, rfl⟩
    · exact Text.apart_nil_left _ _
    · exact Text.apart_of_last_not_mem (by decide) _ _
  refine ⟨⟨hleft _, hleft _, Text.apart_of_last_not_mem (by decide) _ _, ?_⟩,
    hmarks '=' (by decide) rfl (by decide) (by decide),
    hmarks '[' (by decide) rfl (by decide) (by decide), ?_, ?_⟩
  · have hline := occurrences_line (p := declaration) (by decide) (by decide) (importStatement n) []
    have habsent := not_occurs_declaration_importStatement h
    rw [Text.not_occurs_iff_occurrences_eq_zero] at habsent ⊢
    rw [List.append_nil, habsent] at hline
    rw [hline]
    rfl
  · intro x s s₁ hx hne hrun hv
    exact ⟨s₁, by rw [Scan.run_append, hstart hx hne hrun, Option.bind_some, hv]⟩
  · intro x z r s s₁ hx hne hrun _ hz
    rw [Scan.run_append, hstart hx hne hrun, Option.bind_some, hz]

/-- So is an import on a line of its own behind the text. -/
lemma harmless_importBehind (h : n.IsModule) (content : Text) :
    Harmless content ('\n' :: (importStatement n ++ ['\n'])) [] := by
  have hline := harmless_importLine (u := []) h (.inl rfl) []
  refine ⟨⟨Text.apart_nil_right _ _, ?_, Text.apart_nil_right _ _, ?_⟩, ?_, ?_, ?_, ?_⟩
  · exact Text.apart_of_head_not_mem (by decide) _ _
  · have habsent := hline.declaration.absent
    rw [Text.not_occurs_iff_occurrences_eq_zero] at habsent ⊢
    rw [occurrences_newline (by decide) (by decide), habsent]
  · simpa using hline.equals
  · simpa using hline.bracket
  · intro x s s₁ hx hne hrun _
    obtain ⟨s₂, hs₂⟩ := s.exists_step_newline
    have hstart := ((Scan.regular_code 0).run hrun).atLineStart hs₂
    exact ⟨s₂, by rw [List.append_nil, Scan.run_cons, hs₂, Option.bind_some, run_importLine h hstart]⟩
  · intro x z r s s₁ hx hne hrun hv
    simp at hv

/-- **The import is a harmless insertion**, and adds its own phrases only. -/
theorem insertImport_spec (h : n.IsModule) (content : Text) :
    ∃ u m v, content = u ++ v ∧ insertImport content (importStatement n) = u ++ (m ++ v) ∧
      Harmless u m v ∧ ∀ p, p ≠ [] → '\n' ∉ p → Keeps p u m v (importStatement n) := by
  rcases insertImport_cases content (importStatement n) with heq | heq | ⟨u, v, rfl, heq⟩
  · exact ⟨[], _, content, rfl, heq, harmless_importLine h (.inl rfl) content,
      fun p hp hnewline => keeps_line hp hnewline (.inl rfl)⟩
  · refine ⟨content, _, [], by simp, by rw [heq, List.append_nil], harmless_importBehind h content,
      fun p hp hnewline => ⟨Text.apart_nil_right _ _, ?_⟩⟩
    have hline := occurrences_line hp hnewline (importStatement n) []
    have hempty : occurrences p [] = 0 := by simp [occurrences, hp]
    rw [List.cons_append, Text.occurrences_append hp (Text.apart_of_head_not_mem hnewline _ _),
      occurrences_newline hp hnewline, hline, List.append_nil, hempty, Nat.add_zero]
  · refine ⟨u ++ ['\n'], importStatement n ++ ['\n'], v, by simp, by rw [heq]; simp,
      harmless_importLine h (.inr ⟨u, rfl⟩) v, fun p hp hnewline => keeps_line hp hnewline (.inr ⟨u, rfl⟩)⟩

end Scaffold.Router
