import Scaffold.Proofs.Router.Entry

/-!
# One entry after another

The scan that looks for the end of the list and the one that looks for a comment on its last line start in
different places, so they disagree where a string or a comment goes on over several lines: the comma can land
in a comment, and even before the list.  Wherever it lands, the scan of the list does not see it
(`Appends.exists_hasLast`), and it reaches the new entry in code with one bracket open.  What this says about
the next insertion is that it finds an entry without a comma behind it on the last line
(`HasLast.insertRoute`).
-/

namespace Scaffold.Router

open Text (isBlank)

variable {n : Names} {content entry code comma comment result before list after : Text} {l : Located}

/-- The position of the bracket that closes the list opened at a position. -/
def matching? (content : Text) (start : Nat) : Option Nat :=
  (closing? 0 .code (content.drop start)).map fun r => start + r.1.length

/-- A text with a list that ends with the entry of a module, on a line of its own that the scan reaches in
code with one bracket open. -/
structure HasLast (n : Names) (before list after content : Text) : Prop where
  located : locate? content = some ⟨before, list ++ (registration n ++ ['\n']), after⟩
  lineStart : ∃ x, list = x ++ ['\n', ' ', ' ']
  run : (⟨0, .code⟩ : Scan).run list = some ⟨1, .code⟩

/-! ## Where the list ends -/

lemma append_of_locate? (hl : locate? content = some l) : content = l.before ++ (l.list ++ l.after) := by
  obtain ⟨tail, rest, s, hlist, -, hcontent, -⟩ := locate?_eq_some_iff.1 hl
  rw [hcontent, hlist, List.cons_append]

lemma matching?_of_locate? (hl : locate? content = some l) :
    matching? content l.before.length = some (l.before ++ l.list).length := by
  obtain ⟨tail, rest, s, -, hafter, -, -, hrun, hdepth, hphase⟩ := locate?_eq_some_iff.1 hl
  have hclose : closing? 0 .code (l.list ++ l.after) = some (l.list, l.after) :=
    closing?_eq_some_iff.2 ⟨rest, s, hafter, rfl, hrun, hdepth, hphase⟩
  rw [matching?, append_of_locate? hl, List.drop_left, hclose, Option.map_some, List.length_append]

namespace HasLast

/-- Seen from its opening bracket, the list ends where it does. -/
lemma matching? (h : HasLast n before list after content) :
    matching? content before.length = some (content.length - after.length) := by
  have hclose := matching?_of_locate? h.located
  have hcontent := append_of_locate? h.located
  rw [hclose, hcontent]
  simp only [List.length_append]
  congr 1
  omega

/-- The entry begins and ends in code, with one bracket open. -/
lemma run_entry (h : HasLast n before list after content) (hn : n.IsModule) :
    (⟨0, .code⟩ : Scan).run (list ++ registration n) = some ⟨1, .code⟩ := by
  rw [Scan.run_append, h.run, Option.bind_some, run_registration hn]

end HasLast

/-! ## The list with a comma in it -/

lemma run_lineStart {s : Scan} (hphase : s.phase = .code ∨ s.phase = .slash ∨ s.phase = .comment) :
    s.run ['\n', ' ', ' '] = some ⟨s.depth, .code⟩ := by
  obtain ⟨d, p⟩ := s
  simp only at hphase
  rcases hphase with rfl | rfl | rfl <;> rfl

/-- A list in the place of the list of routes has the entry as its last one. -/
lemma hasLast_of_locate? (h : n.IsModule) (hl : locate? content = some l) {x : Text}
    (hx : ∃ tail, x = '[' :: tail)
    (hrun : (⟨0, .code⟩ : Scan).run (x ++ ['\n', ' ', ' ']) = some ⟨1, .code⟩) :
    HasLast n l.before (x ++ ['\n', ' ', ' ']) l.after (l.before ++ (x ++ entryLine (registration n) l.after)) := by
  obtain ⟨tail, rfl⟩ := hx
  have hlist := locate?_replace hl (x := '[' :: tail ++ ['\n', ' ', ' '] ++ (registration n ++ ['\n']))
    ⟨_, rfl⟩ (by rw [Scan.run_append, hrun, Option.bind_some, Scan.run_append, run_registration h]; rfl)
  refine ⟨?_, ⟨_, rfl⟩, hrun⟩
  rw [← hlist]
  simp [entryLine]

/-- A harmless insertion before the list shifts it. -/
lemma locate?_insert_before {u m v z : Text} (h : Harmless u m v)
    (hl : locate? (u ++ v) = some ⟨u ++ z, list, after⟩) :
    locate? (u ++ (m ++ v)) = some ⟨u ++ (m ++ z), list, after⟩ := by
  rw [locate?_eq] at hl ⊢
  rcases cutEach?_insert h.skips with ⟨b, x, rfl, hne, hv, hm⟩ | ⟨r, hv, hm⟩
  · -- the list would begin before the insertion
    rw [hv, Option.bind_some] at hl
    obtain ⟨r, -, heq⟩ := Option.map_eq_some_iff.1 hl
    have hlength := congrArg List.length (congrArg Located.before heq)
    have hx := List.length_pos_of_ne_nil (hne (by simp [marks]))
    simp only [List.length_append] at hlength
    omega
  · rw [hv] at hl
    rw [hm]
    cases r with
    | none => cases hl
    | some r =>
      obtain ⟨b, a⟩ := r
      rw [Option.map_some, Option.bind_some] at hl ⊢
      obtain ⟨⟨list', after'⟩, hclose, heq⟩ := Option.map_eq_some_iff.1 hl
      simp only [Located.mk.injEq, List.append_cancel_left_eq] at heq
      obtain ⟨rfl, rfl, rfl⟩ := heq
      exact Option.map_eq_some_iff.2 ⟨_, hclose, rfl⟩

/-- The text before the new entry, split before the list: the code that the comma stands behind ends in the
list or before it. -/
inductive Parts (l : Located) (code comma comment : Text) : Text → Text → Prop
  | inside {p : Text} (hp : p ≠ []) (hcode : code = l.before ++ p) (hlist : Text.trimRight l.list = p ++ comment) :
      Parts l code comma comment l.before (p ++ (comma ++ (comment ++ ['\n', ' ', ' '])))
  | ahead {z : Text} (hbefore : l.before = code ++ z) (hcomment : comment = z ++ Text.trimRight l.list) :
      Parts l code comma comment (code ++ (comma ++ z)) (Text.trimRight l.list ++ ['\n', ' ', ' '])

lemma Parts.append_eq (h : Parts l code comma comment before list) :
    before ++ list = code ++ (comma ++ (comment ++ ['\n', ' ', ' '])) := by
  cases h with
  | inside hp hcode hlist => rw [hcode, List.append_assoc]
  | ahead hbefore hcomment => simp only [hcomment, List.append_assoc]

lemma Parts.length_before (h : Parts l code comma comment before list) :
    before.length = l.before.length + if code.length ≤ l.before.length then comma.length else 0 := by
  cases h with
  | inside hp hcode hlist =>
    have hpos := List.length_pos_of_ne_nil hp
    rw [if_neg, Nat.add_zero]
    rw [hcode, List.length_append]
    omega
  | ahead hbefore hcomment =>
    rw [if_pos (by rw [hbefore, List.length_append]; omega), hbefore]
    simp only [List.length_append]
    omega

namespace Appends

/-- The code that the comma stands behind does not end at the opening bracket. -/
lemma comment_ne (ha : Appends content l entry code comma comment result) (t : Text) : comment ≠ '[' :: t := by
  rintro rfl
  obtain ⟨c, u, hc, hfirst⟩ := ha.exists_cons []
  obtain rfl := (List.cons.inj hc).1
  rcases hfirst with hblank | ⟨hslash, -⟩
  · exact absurd hblank (by decide)
  · exact absurd hslash (by decide)

/-- A comma in the list is not seen. -/
lemma run_comma {p w : Text} {s : Scan} (ha : Appends content l entry code comma comment result)
    (hp : p ≠ []) (hcode : code = l.before ++ p)
    (hrun : (⟨0, .code⟩ : Scan).run (p ++ (comment ++ '\n' :: w)) = some s) :
    (⟨0, .code⟩ : Scan).run (p ++ (comma ++ (comment ++ '\n' :: w))) = some s := by
  rcases ha.comma_cases with rfl | rfl
  · exact hrun
  obtain ⟨c, t, hc, hfirst⟩ := ha.exists_cons w
  rw [hcode, List.getLast?_append_of_ne_nil _ hp] at hfirst
  rw [Scan.run_append] at hrun ⊢
  obtain ⟨s', hs', hrest⟩ := Option.bind_eq_some_iff.1 hrun
  rw [hs', Option.bind_some, hc, List.singleton_append, Scan.run_comma_of_getLast? hp hs' hfirst, ← hc, hrest]

/-- **The list after an entry was appended** begins at the same bracket, which moves by one if the comma
stands before it, and ends with the entry. -/
lemma exists_hasLast (h : n.IsModule) (ha : Appends content l (registration n) code comma comment result) :
    ∃ before list, HasLast n before list l.after result ∧ Parts l code comma comment before list := by
  have hsplit := ha.append_eq
  have hresult := ha.result_eq
  obtain ⟨tail', htail⟩ := exists_trimRight_list ha.located
  obtain ⟨s, hrun, hdepth, hphase⟩ := run_trimRight_list ha.located
  have hrun' : (⟨0, .code⟩ : Scan).run (Text.trimRight l.list ++ ['\n', ' ', ' ']) = some ⟨1, .code⟩ := by
    rw [Scan.run_append, hrun, Option.bind_some, run_lineStart hphase, hdepth]
  rcases List.append_eq_append_iff.1 hsplit with ⟨p, hcode, hp⟩ | ⟨z, hbefore, hz⟩
  · -- the comma stands in the list
    rw [htail] at hp
    cases p with
    | nil => exact absurd hp.symm (ha.comment_ne tail')
    | cons c p =>
      obtain rfl : '[' = c := (List.cons.inj hp).1
      rw [htail, hp, List.append_assoc] at hrun'
      have hcommaRun := ha.run_comma (List.cons_ne_nil _ _) hcode hrun'
      refine ⟨_, _, ?_, .inside (List.cons_ne_nil _ _) hcode (htail.trans hp)⟩
      rw [← List.append_assoc comma, ← List.append_assoc] at hcommaRun ⊢
      have hlast := hasLast_of_locate? (x := '[' :: p ++ (comma ++ comment)) h ha.located
        ⟨_, List.cons_append⟩ hcommaRun
      have heq : result =
          l.before ++ ('[' :: p ++ (comma ++ comment) ++ entryLine (registration n) l.after) := by
        rw [hresult, hcode]
        simp only [List.append_assoc]
      exact heq ▸ hlast
  · -- the comma stands before the list
    have hplain := hasLast_of_locate? h ha.located ⟨tail', htail⟩ hrun'
    refine ⟨_, _, ⟨?_, hplain.lineStart, hplain.run⟩, .ahead hbefore hz⟩
    have hshift := hplain.located
    rw [← List.append_assoc, hsplit, List.append_assoc, hbefore] at hshift
    rw [hresult]
    rcases ha.comma_cases with rfl | rfl
    · exact hshift
    · exact locate?_insert_before ha.harmless_comma hshift

end Appends

/-! ## The next entry -/

/-- A last line without two slashes has no comment. -/
lemma splitComment_line {x line : Text} (hline : '\n' ∉ line) (hslashes : ¬ ['/', '/'] <:+: line) :
    splitComment (x ++ '\n' :: line) = (x ++ '\n' :: line, []) := by
  have hlast : ((x ++ '\n' :: line).reverse.takeWhile (· != '\n')).reverse = line := by
    have hall := Text.forall_bne_of_not_mem (mt List.mem_reverse.1 hline)
    rw [List.reverse_append, List.reverse_cons, List.append_assoc, List.takeWhile_append_of_pos hall]
    simp
  have hcomment : comment? .code line = none := by
    rw [Option.eq_none_iff_forall_ne_some]
    rintro ⟨b, c⟩ hsome
    obtain ⟨rfl, ⟨t, rfl⟩, -⟩ := comment?_eq_some (by simp) hsome
    exact hslashes ⟨b, t, by simp⟩
  unfold splitComment
  simp only [hlast, hcomment]

lemma endsWith_singleton_iff (c : Char) (t : Text) : Text.endsWith [c] t = true ↔ t.getLast? = some c := by
  rw [Text.endsWith, List.isSuffixOf_iff_suffix]
  constructor
  · rintro ⟨s, rfl⟩
    exact List.getLast?_concat
  · intro h
    obtain ⟨s, hs⟩ := List.getLast?_eq_some_iff.1 h
    exact ⟨s, hs.symm⟩

/-- An entry stands between braces. -/
lemma exists_registration_eq (n : Names) : ∃ q, registration n = '{' :: (q ++ ['}']) := by
  have hend : " \x7d".toList = [' '] ++ ['}'] := rfl
  rw [registration_eq, hend]
  simp only [← List.append_assoc, ← List.cons_append]
  exact ⟨_, rfl⟩

/-- **The next entry** is appended behind the last one, with a comma. -/
lemma HasLast.insertRoute (hn : n.IsModule) (h : HasLast n before list after content) (entry : Text) :
    insertRoute content entry =
      some (before ++ (list ++ (registration n ++ ',' :: entryLine entry after))) := by
  obtain ⟨x, rfl⟩ := h.lineStart
  obtain ⟨q, hq⟩ := exists_registration_eq n
  have hhead : Text.trimRight (before ++ (x ++ ['\n', ' ', ' '] ++ (registration n ++ ['\n']))) =
      (before ++ x) ++ '\n' :: (' ' :: ' ' :: registration n) := by
    have hblank := Text.trimRight_append_blanks (u := before ++ x ++ '\n' :: ' ' :: ' ' :: '{' :: q) (c := '}')
      (v := ['\n']) (by simp; decide) (by decide)
    rw [hq]
    simpa using hblank
  have hline : '\n' ∉ ' ' :: ' ' :: registration n := by
    have hnewline := (solid_registration hn).newline
    simp [hnewline]
  have hslashes : ¬ ['/', '/'] <:+: ' ' :: ' ' :: registration n := by
    have hpair := Text.not_infix_pair_append (u := [' ', ' ']) (a := '/') (b := '/')
      (Text.not_infix_of_not_occurs (by decide)) (solid_registration hn).slashes (.inl (by decide))
    simpa using hpair
  have hneeds : needsComma (x ++ ['\n', ' ', ' '] ++ (registration n ++ ['\n']))
      ((before ++ x) ++ '\n' :: (' ' :: ' ' :: registration n)) = true := by
    have hbrace : ((before ++ x) ++ '\n' :: (' ' :: ' ' :: registration n)).getLast? = some '}' := by
      rw [hq, ← List.cons_append, ← List.cons_append, ← List.cons_append, ← List.cons_append, ← List.append_assoc,
        List.getLast?_concat]
    have hends : ∀ c, c ≠ '}' →
        Text.endsWith [c] ((before ++ x) ++ '\n' :: (' ' :: ' ' :: registration n)) = false := by
      intro c hc
      rw [Bool.eq_false_iff, ne_eq, endsWith_singleton_iff, hbrace, Option.some.injEq]
      exact hc.symm
    rw [needsComma, hends ',' (by decide), hends '[' (by decide), hq]
    simp
  rw [Router.insertRoute, h.located, Option.map_some]
  simp only [hhead, splitComment_line hline hslashes, hneeds, if_true]
  simp [entryLine]

/-- What appending the entry of a module does to a text with a list of routes. -/
structure Appended (n : Names) (content result : Text) (l : Located) (code comma comment before list : Text) :
    Prop where
  /-- The text before the closing bracket loses blanks at its end and gains at most one comma and the line with
  the entry; the text from the bracket on stays. -/
  appends : Appends content l (registration n) code comma comment result
  content_eq : content = l.before ++ (l.list ++ l.after)
  matching_content : matching? content l.before.length = some (l.before ++ l.list).length
  /-- The opening bracket moves if the comma stands before it. -/
  before_length : before.length = l.before.length + if code.length ≤ l.before.length then comma.length else 0
  before_append : before ++ list = code ++ (comma ++ (comment ++ ['\n', ' ', ' ']))
  /-- Seen from the opening bracket, the closing one is the same as before. -/
  matching_result : matching? result before.length = some (result.length - l.after.length)
  hasLast : HasLast n before list l.after result
  run_entry : (⟨0, .code⟩ : Scan).run (list ++ registration n) = some ⟨1, .code⟩
  /-- The next entry comes behind a comma on the line after this one. -/
  next : ∀ m : Names, insertRoute result (registration m) =
    some (code ++ (comma ++ (comment ++ '\n' :: ' ' :: ' ' ::
      (registration n ++ ',' :: entryLine (registration m) l.after))))

/-- **Appending keeps the list**, wherever the comma falls. -/
theorem insertRoute_appended (h : n.IsModule) (hresult : insertRoute content (registration n) = some result) :
    ∃ l code comma comment before list, Appended n content result l code comma comment before list := by
  obtain ⟨l, code, comma, comment, ha⟩ := exists_appends hresult
  obtain ⟨before, list, hlast, hparts⟩ := ha.exists_hasLast h
  refine ⟨l, code, comma, comment, before, list, ha, append_of_locate? ha.located,
    matching?_of_locate? ha.located, hparts.length_before, hparts.append_eq, hlast.matching?, hlast, hlast.run_entry h, fun m => ?_⟩
  rw [hlast.insertRoute h, ← List.append_assoc, hparts.append_eq]
  simp only [List.append_assoc, List.cons_append, List.nil_append]

/-- The comma falls into a template literal that has two slashes in it. -/
theorem insertRoute_appended_literal :
    let content : Text := "const apiRoutes = [\x7b url: `http:\n//a`, route: A \x7d\n];\n"
    let user : Names := ⟨"User", "User", "user"⟩
    let result : Text := "const apiRoutes = [\x7b url: `http:,\n//a`, route: A \x7d\n  " ++
      "\x7b path: '/user', route: UserRoutes \x7d\n];\n"
    user.IsModule ∧ insertRoute content (registration user) = some result ∧
      ∃ l code comma comment before list, Appended user content result l code comma comment before list := by
  intro content user result
  have huser : user.IsModule := ⟨⟨"User", by decide⟩, by decide⟩
  have hresult : insertRoute content (registration user) = some result := by decide
  exact ⟨huser, hresult, insertRoute_appended huser hresult⟩

end Scaffold.Router
