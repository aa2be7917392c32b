import Scaffold.Proofs.Router.Entry

/-!
# Which list is edited

The list of routes is found by three marks one after another, and nothing asks the second and the third to
belong to the first: a longer name, a comment or a type that begins with the words of the declaration is taken
for it, and so is the bracket that follows.  So of a text `pre ++ opening ++ rest` the list behind `opening` is
found exactly if the marks do not stand in `pre` one after another (`locate?_opening_iff`).

The comma behind the last entry has an obstruction of its own.  It goes before the comment on the last line of
the list, and that line begins before the list if the list is written on one line; a comment that begins ahead
of the declaration then takes the comma with it (`CommaAhead`).  These are all the ways in which the edit can
miss the list (`editsList_iff`).
-/

namespace Scaffold.Router

open Text (Apart InOrder cut? isBlank occurs)

variable {pre rest list after entry t u v w b c : Text} {ps : List Text} {mode : Mode}

/-! ## Marks in a text -/

/-- Marks that stand in a text one after another are found. -/
lemma exists_cutEach?_of_inOrder (h : InOrder ps t) : ∃ r, cutEach? ps t = some r := by
  induction ps generalizing t with
  | nil => exact ⟨_, rfl⟩
  | cons p ps ih =>
    cases h with
    | cons x _ h =>
      rename_i y
      obtain ⟨b, z, hcut⟩ := Text.exists_cut?_append p x y
      obtain ⟨r, hr⟩ := ih ((h.append_left p).append_left z)
      simp only [cutEach?, hcut, Option.bind_some, hr, Option.map_some]
      exact ⟨_, rfl⟩

/-- A phrase in front does not matter to marks of one character that it lacks. -/
lemma cutEach?_append_left {p : Text} (hps : ∀ q ∈ ps, ∃ c, q = [c] ∧ c ∉ p) {r : Text × Text}
    (h : cutEach? ps (p ++ t) = some r) : ∃ r', cutEach? ps t = some r' := by
  cases ps with
  | nil => exact ⟨_, rfl⟩
  | cons q ps =>
    obtain ⟨c, rfl, hc⟩ := hps q (List.mem_cons_self ..)
    have hnone : cut? [c] p = none := by
      rw [Text.cut?_eq_none_iff]
      exact Text.not_occurs_of_mem (List.mem_singleton_self c) hc
    rw [cutEach?, Text.cut?_append (by simp) (Text.apart_singleton _ _ _), hnone] at h
    obtain ⟨⟨b, a⟩, hcut, h⟩ := Option.bind_eq_some_iff.1 h
    obtain ⟨⟨b', a'⟩, hcut', heq⟩ := Option.map_eq_some_iff.1 hcut
    obtain ⟨-, rfl⟩ := Prod.mk.inj heq
    obtain ⟨r', hr', -⟩ := Option.map_eq_some_iff.1 h
    simp only [cutEach?, hcut', Option.bind_some, hr', Option.map_some]
    exact ⟨_, rfl⟩

/-- Marks that are found stand in the text one after another, if each lacks the characters of the later ones. -/
lemma inOrder_of_cutEach? (hps : ps.Pairwise fun p q => ∃ c, q = [c] ∧ c ∉ p) {r : Text × Text}
    (h : cutEach? ps t = some r) : InOrder ps t := by
  induction ps generalizing t r with
  | nil => exact .nil t
  | cons p ps ih =>
    obtain ⟨hp, hps⟩ := List.pairwise_cons.1 hps
    obtain ⟨⟨b, a⟩, hcut, h⟩ := Option.bind_eq_some_iff.1 h
    obtain ⟨r', hr', -⟩ := Option.map_eq_some_iff.1 h
    obtain ⟨x, rfl⟩ := Text.prefix_of_cut? hcut
    obtain ⟨r'', hr''⟩ := cutEach?_append_left hp hr'
    rw [← Text.append_of_cut? hcut]
    exact .cons b p (ih hps hr'')

lemma cutEach?_marks_eq_none_iff : cutEach? marks t = none ↔ ¬ InOrder marks t := by
  have hmarks : marks.Pairwise fun p q => ∃ c, q = [c] ∧ c ∉ p := by
    refine .cons (fun q hq => ?_) (.cons (fun q hq => ?_) (.cons (by simp) .nil))
    · simp only [List.mem_cons, List.not_mem_nil, or_false] at hq
      rcases hq with rfl | rfl
      · exact ⟨'=', rfl, by decide⟩
      · exact ⟨'[', rfl, by decide⟩
    · obtain rfl := List.mem_singleton.1 hq
      exact ⟨'[', rfl, by decide⟩
  constructor
  · intro hnone horder
    obtain ⟨r, hr⟩ := exists_cutEach?_of_inOrder horder
    rw [hr] at hnone
    cases hnone
  · intro horder
    rw [Option.eq_none_iff_forall_ne_some]
    exact fun r hr => horder (inOrder_of_cutEach? hmarks hr)

/-! ## Marks in two texts -/

/-- Marks of the first text are found there. -/
lemma cutEach?_append_of_some (hps : ∀ p ∈ ps, p ≠ [] ∧ Apart p u v) (h : cutEach? ps u = some (b, w)) :
    cutEach? ps (u ++ v) = some (b, w ++ v) := by
  induction ps generalizing u b with
  | nil =>
    obtain ⟨rfl, rfl⟩ := Prod.mk.inj (Option.some.inj h)
    rfl
  | cons p ps ih =>
    obtain ⟨hp, hapart⟩ := hps p (List.mem_cons_self ..)
    obtain ⟨⟨x, y⟩, hcut, h⟩ := Option.bind_eq_some_iff.1 h
    obtain ⟨⟨x', y'⟩, hrest, heq⟩ := Option.map_eq_some_iff.1 h
    obtain ⟨rfl, rfl⟩ := Prod.mk.inj heq
    have hsuffix : y <:+ u := ⟨x, Text.append_of_cut? hcut⟩
    have hy := ih (fun q hq => ⟨(hps q (List.mem_cons_of_mem _ hq)).1,
      (hps q (List.mem_cons_of_mem _ hq)).2.mono hsuffix (List.prefix_refl _)⟩) hrest
    rw [cutEach?, Text.cut?_append hp hapart, hcut]
    simp only [Option.bind_some, hy, Option.map_some]

/-- Marks that are not in the first text are found in the second one, all of them or the last ones. -/
lemma cutEach?_append_of_none (hps : ∀ p ∈ ps, p ≠ [] ∧ Apart p u v)
    (hv : ∀ qs, qs <:+ ps → qs ≠ [] → cutEach? qs v = some (b, w)) (h : cutEach? ps u = none) :
    cutEach? ps (u ++ v) = some (u ++ b, w) := by
  induction ps generalizing u with
  | nil => cases h
  | cons p ps ih =>
    obtain ⟨hp, hapart⟩ := hps p (List.mem_cons_self ..)
    rw [cutEach?, Text.cut?_append hp hapart]
    rw [cutEach?] at h
    cases hcut : cut? p u with
    | none =>
      have hall := hv (p :: ps) (List.suffix_refl _) (by simp)
      obtain ⟨⟨x, y⟩, hx, hall⟩ := Option.bind_eq_some_iff.1 hall
      obtain ⟨⟨x', y'⟩, hy, heq⟩ := Option.map_eq_some_iff.1 hall
      obtain ⟨rfl, rfl⟩ := Prod.mk.inj heq
      simp only [hx, Option.map_some, Option.bind_some, hy, List.append_assoc]
    | some r =>
      obtain ⟨x, y⟩ := r
      have hux := Text.append_of_cut? hcut
      have hsuffix : y <:+ u := ⟨x, hux⟩
      rw [hcut, Option.bind_some, Option.map_eq_none_iff] at h
      have hy := ih (fun q hq => ⟨(hps q (List.mem_cons_of_mem _ hq)).1,
        (hps q (List.mem_cons_of_mem _ hq)).2.mono hsuffix (List.prefix_refl _)⟩)
        (fun qs hqs => hv qs (hqs.trans (List.suffix_cons _ _))) h
      simp only [Option.bind_some, hy, Option.map_some, ← hux, List.append_assoc]

/-! ## The list of a declaration -/

/-- The words that declare the list of routes, up to the bracket of the list. -/
def assignment : Text := "const apiRoutes = "

lemma apart_assignment (pre rest : Text) : ∀ p ∈ marks, p ≠ [] ∧ Apart p pre (assignment ++ rest) := by
  have hdeclaration : Apart declaration pre (assignment ++ rest) := by
    intro x y heq hx hy _ hpre
    obtain ⟨d, y, rfl⟩ := List.exists_cons_of_ne_nil hy
    obtain ⟨rfl, -⟩ : d = 'c' ∧ _ := List.cons_prefix_cons.1 hpre
    obtain ⟨e, x, rfl⟩ := List.exists_cons_of_ne_nil hx
    -- the words begin with the only `c` that they have
    have hmem : 'c' ∈ declaration.tail := by
      rw [heq]
      simp
    exact absurd hmem (by decide)
  intro p hp
  simp only [marks, List.mem_cons, List.not_mem_nil, or_false] at hp
  rcases hp with rfl | rfl | rfl
  · exact ⟨by decide, hdeclaration⟩
  · exact ⟨by simp, Text.apart_singleton _ _ _⟩
  · exact ⟨by simp, Text.apart_singleton _ _ _⟩

lemma cutEach?_assignment {qs : List Text} (hqs : qs <:+ marks) (hne : qs ≠ []) (rest : Text) :
    cutEach? qs (assignment ++ '[' :: rest) = some (assignment, '[' :: rest) := by
  have hcases : qs = marks ∨ qs = [['='], ['[']] ∨ qs = [['[']] := by
    simp only [marks, List.suffix_cons_iff, List.suffix_nil] at hqs
    tauto
  rcases hcases with rfl | rfl | rfl <;> rfl

/-- **The list behind a declaration is found** exactly if the marks do not stand before it. -/
theorem locate?_opening_iff (hclose : closing? 0 .code ('[' :: rest) = some (list, after)) :
    locate? (pre ++ (assignment ++ '[' :: rest)) = some ⟨pre ++ assignment, list, after⟩ ↔ ¬ InOrder marks pre := by
  rw [← cutEach?_marks_eq_none_iff, locate?_eq]
  constructor
  · intro hfound
    by_contra hsome
    obtain ⟨⟨b, w⟩, hcut⟩ := Option.ne_none_iff_exists'.1 hsome
    rw [cutEach?_append_of_some (apart_assignment pre _) hcut, Option.bind_some] at hfound
    obtain ⟨r, -, heq⟩ := Option.map_eq_some_iff.1 hfound
    obtain ⟨rfl, -, -⟩ := Located.mk.inj heq
    have hcut' : cutEach? ([declaration, ['=']] ++ [['[']]) pre = some (pre ++ assignment, w) := hcut
    have hlength := congrArg List.length (append_of_cutEach? hcut').1
    have hpos : 0 < assignment.length := by decide
    simp only [List.length_append] at hlength
    omega
  · intro hnone
    rw [cutEach?_append_of_none (apart_assignment pre _) (fun qs hqs hne => cutEach?_assignment hqs hne rest) hnone]
    simp only [Option.bind_some, hclose, Option.map_some]

/-! ## A comment on the line of the declaration -/

lemma lastLine_append (hv : '\n' ∉ v) (u : Text) : lastLine (u ++ v) = lastLine u ++ v := by
  have hall := Text.forall_bne_of_not_mem (mt List.mem_reverse.1 hv)
  rw [lastLine, List.reverse_append, List.takeWhile_append_of_pos hall, List.reverse_append, List.reverse_reverse,
    lastLine]

lemma lastLine_append_of_mem (hv : '\n' ∈ v) (u : Text) : lastLine (u ++ v) = lastLine v := by
  obtain ⟨x, y, hv, hy⟩ := List.eq_append_cons_of_mem (List.mem_reverse.2 hv)
  have htake : ∀ z, (v.reverse ++ z).takeWhile (· != '\n') = x := fun z => by
    rw [hv, List.append_assoc]
    exact (Text.takeWhile_append_cons (Text.forall_bne_of_not_mem hy) (by simp) (y ++ z)).1
  have hself := htake []
  rw [List.append_nil] at hself
  rw [lastLine, List.reverse_append, htake, lastLine, hself]

/-- A comment that is found in a text goes on behind it. -/
lemma comment?_append_of_some (h : comment? mode u = some (b, c)) (v : Text) :
    comment? mode (u ++ v) = some (b, c ++ v) := by
  fun_induction comment? mode u generalizing b with
  | case1 => cases h
  | case2 q d rest ih =>
    obtain ⟨b', hrest, rfl⟩ := exists_of_map_fst h fun _ _ => rfl
    rw [List.cons_append, List.cons_append, comment?, ih hrest]
    rfl
  | case3 q e rest hescape ih =>
    obtain ⟨b', hrest, rfl⟩ := exists_of_map_fst h fun _ _ => rfl
    have hne : rest ≠ [] := by
      rintro rfl
      rw [comment?] at hrest
      cases hrest
    obtain ⟨d, rest, rfl⟩ := List.exists_cons_of_ne_nil hne
    rw [List.cons_append, comment?, ih hrest]
    · rfl
    · exact fun x y hx hy => hescape d rest hx rfl
  | case4 mode rest hstring =>
    obtain ⟨rfl, rfl⟩ := Prod.mk.inj (Option.some.inj h)
    rw [List.cons_append, List.cons_append, comment?]
    exact hstring
  | case5 mode e rest hescape hstring hslash ih =>
    obtain ⟨b', hrest, rfl⟩ := exists_of_map_fst h fun _ _ => rfl
    have hne : rest ≠ [] := by
      rintro rfl
      rw [comment?] at hrest
      cases hrest
    obtain ⟨d, rest, rfl⟩ := List.exists_cons_of_ne_nil hne
    rw [List.cons_append, comment?, ih hrest]
    · rfl
    · rintro x he hx
      obtain rfl := (List.cons.inj hx).1
      exact hslash rest he rfl
    · exact fun q _ _ hq => absurd hq (hstring q)
    · exact hstring

/-- A comment that begins behind a text without one begins behind all of the text. -/
lemma exists_of_comment?_append (h : comment? mode u = none) (hborder : u.getLast? = some '/' → v.head? ≠ some '/')
    (hsome : comment? mode (u ++ v) = some (b, c)) : ∃ z, b = u ++ z := by
  fun_induction comment? mode u generalizing b with
  | case1 => exact ⟨b, rfl⟩
  | case2 q d rest ih =>
    rw [List.cons_append, List.cons_append, comment?] at hsome
    obtain ⟨b', hrest, rfl⟩ := exists_of_map_fst hsome fun _ _ => rfl
    obtain ⟨z, rfl⟩ := ih (Option.map_eq_none_iff.1 h)
      (fun hlast => hborder (by simp [List.getLast?_cons, hlast])) hrest
    exact ⟨z, rfl⟩
  | case3 q e rest hescape ih =>
    by_cases hend : e = '\\' ∧ rest = [] ∧ v ≠ []
    · -- the text ends within an escape
      obtain ⟨rfl, rfl, hv⟩ := hend
      obtain ⟨d, v, rfl⟩ := List.exists_cons_of_ne_nil hv
      rw [List.cons_append, List.nil_append, comment?] at hsome
      obtain ⟨b', -, rfl⟩ := exists_of_map_fst hsome fun _ _ => rfl
      exact ⟨d :: b', rfl⟩
    · rw [List.cons_append, comment?] at hsome
      · obtain ⟨b', hrest, rfl⟩ := exists_of_map_fst hsome fun _ _ => rfl
        obtain ⟨z, rfl⟩ := ih (Option.map_eq_none_iff.1 h)
          (fun hlast => hborder (by simp [List.getLast?_cons, hlast])) hrest
        exact ⟨z, rfl⟩
      · intro d x he hx
        cases rest with
        | nil => exact hend ⟨he, rfl, by rintro rfl; cases hx⟩
        | cons f rest => exact hescape f rest he rfl
  | case4 mode rest hstring => cases h
  | case5 mode e rest hescape hstring hslash ih =>
    rw [List.cons_append, comment?] at hsome
    · obtain ⟨b', hrest, rfl⟩ := exists_of_map_fst hsome fun _ _ => rfl
      obtain ⟨z, rfl⟩ := ih (Option.map_eq_none_iff.1 h)
        (fun hlast => hborder (by simp [List.getLast?_cons, hlast])) hrest
      exact ⟨z, rfl⟩
    · rintro x rfl hx
      cases rest with
      | nil =>
        rw [List.nil_append] at hx
        exact hborder rfl (by rw [hx, List.head?_cons])
      | cons f rest =>
        obtain rfl := (List.cons.inj hx).1
        exact hslash rest rfl rfl
    · exact fun q _ _ hq => absurd hq (hstring q)
    · exact hstring

/-! ## Code and comment of a text that goes on -/

/-- The comment is empty exactly if there is none. -/
lemma comment?_eq_none_iff : comment? .code (lastLine t) = none ↔ (splitComment t).2 = [] := by
  constructor
  · intro h
    rw [splitComment_of_none h]
  · intro h
    by_contra hsome
    obtain ⟨⟨b, c⟩, hbc⟩ := Option.ne_none_iff_exists'.1 hsome
    obtain ⟨x, hx, -⟩ := exists_lastLine t
    obtain ⟨hline, ⟨r, rfl⟩, -⟩ := comment?_eq_some (by simp) hbc
    obtain ⟨w, htrim, -⟩ := Text.eq_trimRight_append (x ++ b)
    have hlength := congrArg List.length htrim
    have htotal := congrArg List.length hx
    rw [splitComment_of_some hx hbc, List.drop_eq_nil_iff] at h
    rw [hline] at htotal
    simp only [List.length_append, List.length_cons] at hlength htotal
    omega

/-- A text that does not end with a blank is not trimmed together with what follows. -/
lemma prefix_trimRight (hlast : ∀ c, u.getLast? = some c → isBlank c = false) (w : Text) :
    u <+: Text.trimRight (u ++ w) := by
  rcases List.eq_nil_or_concat' u with rfl | ⟨u, c, rfl⟩
  · exact List.nil_prefix
  · have hc := hlast c List.getLast?_concat
    obtain ⟨x, hx⟩ := Text.exists_trimRight_cons hc w
    rw [List.append_assoc, List.singleton_append, Text.trimRight_cons_of_not_blank hc, hx]
    exact ⟨x, by simp⟩

/-- A text without a comment on its last line is code in every longer text. -/
lemma prefix_code (hlast : ∀ c, u.getLast? = some c → isBlank c = false ∧ c ≠ '/')
    (hv : '\n' ∈ v ∨ (splitComment u).2 = []) : u <+: (splitComment (u ++ v)).1 := by
  cases hcomment : comment? .code (lastLine (u ++ v)) with
  | none =>
    rw [splitComment_of_none hcomment]
    exact List.prefix_append _ _
  | some r =>
    obtain ⟨b, c⟩ := r
    obtain ⟨hline, -⟩ := comment?_eq_some (by simp) hcomment
    obtain ⟨x, hx, -⟩ := exists_lastLine (u ++ v)
    rw [splitComment_of_some hx hcomment]
    suffices h : ∃ z, x ++ b = u ++ z by
      obtain ⟨z, hz⟩ := h
      rw [hz]
      exact prefix_trimRight (fun c hc => (hlast c hc).1) z
    by_cases hnewline : '\n' ∈ v
    · obtain ⟨y, hy, -⟩ := exists_lastLine v
      rw [lastLine_append_of_mem hnewline] at hx
      have hxy : (u ++ y) ++ lastLine v = x ++ lastLine v := by rw [List.append_assoc, ← hy, hx]
      rw [List.append_cancel_right_eq] at hxy
      exact ⟨y ++ b, by rw [← hxy, List.append_assoc]⟩
    · have hnone := comment?_eq_none_iff.2 (hv.resolve_left hnewline)
      rw [lastLine_append hnewline] at hx hcomment
      obtain ⟨y, hy, -⟩ := exists_lastLine u
      have hborder : (lastLine u).getLast? = some '/' → v.head? ≠ some '/' := by
        intro hslash
        have hne : lastLine u ≠ [] := by
          rintro hnil
          rw [hnil] at hslash
          cases hslash
        rw [← List.getLast?_append_of_ne_nil y hne, ← hy] at hslash
        exact absurd rfl (hlast '/' hslash).2
      obtain ⟨z, rfl⟩ := exists_of_comment?_append hnone hborder hcomment
      have hxy : y ++ (lastLine u ++ v) = x ++ (lastLine u ++ v) := by rw [← List.append_assoc, ← hy, hx]
      rw [List.append_cancel_right_eq] at hxy
      exact ⟨z, by rw [← hxy, ← List.append_assoc, ← hy]⟩

/-- A comment on the last line of a text goes on with the line. -/
lemma splitComment_append (hv : '\n' ∉ v) (hcomment : (splitComment u).2 ≠ []) :
    splitComment (u ++ v) = ((splitComment u).1, (splitComment u).2 ++ v) := by
  obtain ⟨⟨b, c⟩, hbc⟩ := Option.ne_none_iff_exists'.1 (mt comment?_eq_none_iff.1 hcomment)
  obtain ⟨x, hx, -⟩ := exists_lastLine u
  obtain ⟨hline, -⟩ := comment?_eq_some (by simp) hbc
  obtain ⟨w, htrim, -⟩ := Text.eq_trimRight_append (x ++ b)
  have hlong : lastLine (u ++ v) = lastLine u ++ v := lastLine_append hv u
  have hx' : u ++ v = x ++ lastLine (u ++ v) := by rw [hlong, ← List.append_assoc, ← hx]
  have hbc' : comment? .code (lastLine (u ++ v)) = some (b, c ++ v) := by
    rw [hlong, comment?_append_of_some hbc]
  have hle : (Text.trimRight (x ++ b)).length ≤ u.length := by
    have hlength := congrArg List.length htrim
    have htotal := congrArg List.length hx
    rw [hline] at htotal
    simp only [List.length_append] at hlength htotal
    omega
  rw [splitComment_of_some hx' hbc', splitComment_of_some hx hbc, List.drop_append_of_le_length hle]

/-! ## The edit of a declared list -/

/-- The declaration stands behind a comment on its line, and the list is written on that line and needs a
comma. -/
structure CommaAhead (pre list : Text) : Prop where
  oneLine : '\n' ∉ Text.trimRight list
  comment : (splitComment pre).2 ≠ []
  comma : needsComma list (splitComment pre).1 = true

/-- An entry goes into the list behind `pre`, which `after` begins to close: that list is found, everything up
to its opening bracket stays, and the line with the entry comes before its closing bracket. -/
structure EditsList (pre list after entry content result : Text) : Prop where
  located : locate? content = some ⟨pre ++ assignment, list, after⟩
  isResult : insertRoute content entry = some result
  kept : pre ++ (assignment ++ ['[']) <+: result
  entered : entryLine entry after <:+ result

lemma insertRoute_eq {content : Text} {l : Located} (h : locate? content = some l) (entry : Text) :
    insertRoute content entry = some ((splitComment (Text.trimRight (l.before ++ l.list))).1 ++
      ((if needsComma l.list (splitComment (Text.trimRight (l.before ++ l.list))).1 then [','] else []) ++
        ((splitComment (Text.trimRight (l.before ++ l.list))).2 ++ entryLine entry l.after))) := by
  rw [insertRoute, h, Option.map_some]
  simp only [entryLine, List.append_assoc, List.cons_append]

/-- A comment does not begin with a comma. -/
lemma Splits.not_prefix_comma {code comment : Text} (h : Splits u code comment) (hcomment : comment ≠ []) (w : Text) :
    ¬ u <+: code ++ ',' :: w := by
  rw [h.append, List.prefix_append_right_inj]
  cases h.isComment.resolve_left hcomment with
  | @comment blanks words hblanks hwords =>
    intro hprefix
    cases blanks with
    | nil => exact absurd (List.cons_prefix_cons.1 hprefix).1 (by decide)
    | cons d blanks =>
      have hd := hblanks d (List.mem_cons_self ..)
      rw [(List.cons_prefix_cons.1 hprefix).1] at hd
      exact absurd hd (by decide)

/-- The words of the declaration bring no comment with them. -/
lemma comment_assignment (h : (splitComment pre).2 = []) : (splitComment (pre ++ (assignment ++ ['[']))).2 = [] := by
  rw [← comment?_eq_none_iff, lastLine_append (by decide)]
  by_contra hsome
  obtain ⟨⟨b, c⟩, hbc⟩ := Option.ne_none_iff_exists'.1 hsome
  obtain ⟨z, rfl⟩ := exists_of_comment?_append (comment?_eq_none_iff.2 h) (fun _ => by decide) hbc
  obtain ⟨hline, ⟨r, rfl⟩, -⟩ := comment?_eq_some (by simp) hbc
  rw [List.append_assoc, List.append_cancel_left_eq] at hline
  have hslash : '/' ∈ assignment ++ ['['] := by
    rw [hline]
    simp
  exact absurd hslash (by decide)

/-- Behind code, an edit keeps everything up to the opening bracket of the list. -/
lemma kept_iff (pre : Text) {tail : Text} (hlist : Text.trimRight list = '[' :: tail) (w : Text) :
    let head := pre ++ (assignment ++ Text.trimRight list)
    pre ++ (assignment ++ ['[']) <+: (splitComment head).1 ++
        ((if needsComma list (splitComment head).1 then [','] else []) ++ ((splitComment head).2 ++ w)) ↔
      ¬ CommaAhead pre list := by
  intro head
  have hhead : head = (pre ++ (assignment ++ ['['])) ++ tail := by
    show pre ++ (assignment ++ Text.trimRight list) = _
    rw [hlist]
    simp only [List.append_assoc, List.singleton_append]
  by_cases hline : '\n' ∉ Text.trimRight list ∧ (splitComment pre).2 ≠ []
  · -- the code is cut before the declaration
    obtain ⟨hnewline, hcomment⟩ := hline
    have hwhole : '\n' ∉ assignment ++ Text.trimRight list := by
      rw [List.mem_append, not_or]
      exact ⟨by decide, hnewline⟩
    rcases hsplit : splitComment pre with ⟨code, comment⟩
    have hspec := splitComment_spec hsplit
    have hcut : splitComment head = (code, comment ++ (assignment ++ Text.trimRight list)) := by
      have happend := splitComment_append hwhole hcomment
      rwa [hsplit] at happend
    rw [hsplit] at hcomment
    rw [hcut]
    by_cases hcomma : needsComma list code = true
    · have hahead : CommaAhead pre list := ⟨hnewline, by rwa [hsplit], by rwa [hsplit]⟩
      refine iff_of_false (fun hkept => ?_) fun hnot => hnot hahead
      rw [if_pos hcomma] at hkept
      exact hspec.not_prefix_comma hcomment _ ((List.prefix_append _ _).trans hkept)
    · refine iff_of_true ?_ fun hahead => hcomma ?_
      · refine ⟨tail ++ w, ?_⟩
        rw [if_neg hcomma, hlist, hspec.append]
        simp only [List.append_assoc, List.cons_append, List.nil_append]
      · have hneeds := hahead.comma
        rwa [hsplit] at hneeds
  · have hlast : ∀ c, (pre ++ (assignment ++ ['['])).getLast? = some c → isBlank c = false ∧ c ≠ '/' := by
      intro c hc
      rw [← List.append_assoc, List.getLast?_concat] at hc
      obtain rfl := Option.some.inj hc
      decide
    have hcode : '\n' ∈ tail ∨ (splitComment (pre ++ (assignment ++ ['[']))).2 = [] := by
      by_cases hnewline : '\n' ∈ Text.trimRight list
      · rw [hlist] at hnewline
        exact .inl ((List.mem_cons.1 hnewline).resolve_left (by decide))
      · exact .inr (comment_assignment (by_contra fun h => hline ⟨hnewline, h⟩))
    refine iff_of_true ?_ fun hahead => hline ⟨hahead.oneLine, hahead.comment⟩
    rw [hhead]
    exact (prefix_code hlast hcode).trans (List.prefix_append _ _)

/-- **Which list is edited.**  Of a text in which the bracket behind `pre` and the words of the declaration is
closed, the list of that declaration is edited and everything before it stays exactly if the marks do not stand in
`pre` one after another and no comma goes before a comment ahead of the declaration. -/
theorem editsList_iff (hclose : closing? 0 .code ('[' :: rest) = some (list, after)) (entry : Text) :
    (∃ result, EditsList pre list after entry (pre ++ (assignment ++ '[' :: rest)) result) ↔
      ¬ InOrder marks pre ∧ ¬ CommaAhead pre list := by
  rw [← locate?_opening_iff hclose]
  have hresult : ∀ hlocated : locate? (pre ++ (assignment ++ '[' :: rest)) = some ⟨pre ++ assignment, list, after⟩,
      ∀ result, EditsList pre list after entry (pre ++ (assignment ++ '[' :: rest)) result ↔
        insertRoute (pre ++ (assignment ++ '[' :: rest)) entry = some result ∧ ¬ CommaAhead pre list := by
    intro hlocated result
    obtain ⟨tail, htail⟩ := exists_trimRight_list hlocated
    have hhead : Text.trimRight (pre ++ assignment ++ list) = pre ++ (assignment ++ Text.trimRight list) := by
      obtain ⟨rest, -, -, hlist, -⟩ := locate?_eq_some_iff.1 hlocated
      simp only at hlist
      rw [hlist, Text.trimRight_cons_of_not_blank (by decide), List.append_assoc]
    have hinsert := insertRoute_eq hlocated entry
    simp only [hhead] at hinsert
    have hkept := kept_iff pre htail (entryLine entry after)
    constructor
    · intro hedits
      have heq := hinsert.symm.trans hedits.isResult
      refine ⟨hedits.isResult, hkept.1 ?_⟩
      rw [Option.some.inj heq]
      exact hedits.kept
    · rintro ⟨hisResult, hahead⟩
      obtain rfl := Option.some.inj (hinsert.symm.trans hisResult)
      refine ⟨hlocated, hisResult, hkept.2 hahead, ?_⟩
      exact ((List.suffix_append _ _).trans (List.suffix_append _ _)).trans (List.suffix_append _ _)
  constructor
  · rintro ⟨result, hedits⟩
    exact ⟨hedits.located, ((hresult hedits.located result).1 hedits).2⟩
  · rintro ⟨hlocated, hahead⟩
    obtain ⟨code, comma, comment, result, hinsert, -⟩ := insertRoute_appends entry hlocated
    exact ⟨result, (hresult hlocated result).2 ⟨hinsert, hahead⟩⟩

/-- The registration goes into the list of the declaration behind an import and a comment. -/
theorem editsList_user :
    let pre : Text := "import express from 'express';\n\n// The routes [of all modules] = apiRoutes\n"
    let rest : Text := "\n  \x7b path: '/a', route: A \x7d\n];\n"
    let list : Text := "[\n  \x7b path: '/a', route: A \x7d\n"
    let entry := registration ⟨"User", "User", "user"⟩
    closing? 0 .code ('[' :: rest) = some (list, "];\n".toList) ∧
      ∃ result, EditsList pre list "];\n" entry (pre ++ (assignment ++ '[' :: rest)) result := by
  intro pre rest list entry
  have hclose : closing? 0 .code ('[' :: rest) = some (list, "];\n".toList) := by decide
  have hmarks : ¬ InOrder marks pre := cutEach?_marks_eq_none_iff.1 (by decide)
  exact ⟨hclose, (editsList_iff hclose entry).2 ⟨hmarks, fun hahead => absurd hahead.oneLine (by decide)⟩⟩

/-- A list under a longer name is edited in place of the list of routes. -/
theorem not_edited_behind_longer_name :
    let pre : Text := "const apiRoutesOld = [];\n"
    let rest : Text := "\n];\n"
    let user : Names := ⟨"User", "User", "user"⟩
    user.IsModule ∧ occurs (assignment ++ ['[']) pre = false ∧ (closing? 0 .code ('[' :: rest)).isSome = true ∧
      ¬ ∃ result, insertRoute (pre ++ (assignment ++ '[' :: rest)) (registration user) = some result ∧
        pre <+: result := by
  intro pre rest user
  refine ⟨⟨⟨"User", by decide⟩, by decide⟩, by decide, by decide, ?_⟩
  rintro ⟨result, hresult, hpre⟩
  have hedit : insertRoute (pre ++ (assignment ++ '[' :: rest)) (registration user) = some
      ("const apiRoutesOld = [\n  \x7b path: '/user', route: UserRoutes \x7d\n];\n".toList ++
        "const apiRoutes = [\n];\n".toList) := by
    decide
  obtain rfl := Option.some.inj (hedit.symm.trans hresult)
  exact absurd hpre (by decide)

end Scaffold.Router
