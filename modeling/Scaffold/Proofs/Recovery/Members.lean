import Mathlib.Algebra.Order.BigOperators.Group.List
import Mathlib.Data.List.Infix
import Scaffold.Proofs.Recovery.Blocks
import Scaffold.Proofs.Recovery.Properties
import Scaffold.Proofs.Text.Lines

/-!
# Members one after another

One depth is carried through the whole body of an interface, so where a member is cut off depends on all that
stands before it.  For a text that closes the brackets that it opens, and has its semicolons inside of them, the
depth comes back to zero, and the members behind it are read as if it were not there (`properties_append`).

The obstruction is the arrow of a function type: its `>` counts as a closing bracket that nothing opens, so the
depth stays below zero until the end of the body and no later line end at that depth is seen.  The type texts of a
body decide where it is cut only in this way (`properties_join_iff`): members are read independently, whatever
member comes last, exactly if none of the others has an arrow.
-/

namespace Scaffold.Recovery

variable {l t u v w rest : Text} {c : Char} {depth : Int} {ps : List Text} {p : Text}

/-! ## Pieces behind a text -/

lemma exists_pieces (depth : Int) (t : Text) : ∃ p ps, pieces depth t = p :: ps := by
  induction t generalizing depth with
  | nil => exact ⟨_, _, rfl⟩
  | cons c t ih =>
    by_cases h : depth + bracketStep c = 0 ∧ (c = ';' ∨ c = '\n')
    · exact ⟨_, _, pieces_cut h t⟩
    · obtain ⟨p, ps, hp⟩ := ih (depth + bracketStep c)
      exact ⟨_, _, pieces_cons h hp⟩

/-- A text with no cut goes into the last piece of what stands before it. -/
lemma pieces_append_last (hp : pieces depth t = ps ++ [p]) (h : Uncut (depth + net t) w) :
    pieces depth (t ++ w) = ps ++ [p ++ w] := by
  induction t generalizing depth ps p with
  | nil =>
    rw [net_nil, Int.add_zero] at h
    have hpieces : [] ++ [[]] = ps ++ [p] := hp
    obtain ⟨rfl, hp⟩ := List.append_inj' hpieces rfl
    obtain rfl := List.singleton_inj.1 hp
    exact pieces_of_uncut h
  | cons c t ih =>
    rw [net_cons, ← Int.add_assoc] at h
    by_cases hcut : depth + bracketStep c = 0 ∧ (c = ';' ∨ c = '\n')
    · rw [pieces_cut hcut] at hp
      cases ps with
      | nil =>
        obtain ⟨q, qs, hq⟩ := exists_pieces 0 t
        rw [hq] at hp
        cases hp
      | cons q qs =>
        obtain ⟨rfl, hqs⟩ := List.cons.inj hp
        rw [List.cons_append, pieces_cut hcut, ih hqs (by rwa [hcut.1] at h), List.cons_append]
    · obtain ⟨x, xs, hx⟩ := exists_pieces (depth + bracketStep c) t
      rw [pieces_cons hcut hx] at hp
      cases ps with
      | nil =>
        obtain ⟨rfl, rfl⟩ := List.cons.inj hp
        have hrest : pieces (depth + bracketStep c) (t ++ w) = [] ++ [x ++ w] := ih hx h
        exact pieces_cons hcut hrest
      | cons q qs =>
        obtain ⟨rfl, rfl⟩ := List.cons.inj hp
        have hrest : pieces (depth + bracketStep c) (t ++ w) = (x :: qs) ++ [p ++ w] := ih hx h
        exact pieces_cons hcut hrest

lemma properties_append (h : IsClosed l) (rest : Text) :
    properties (l ++ ';' :: '\n' :: rest) = properties l ++ properties rest := by
  rw [properties, members_append h, List.filterMap_append]
  rfl

/-! ## Members with a line end -/

/-- What stands before the type of a property has no semicolon, and the type is on one line. -/
lemma exists_of_property? {p : Property} (h : property? l = some p) :
    ∃ u v, l = u ++ v ∧ ';' ∉ u ∧ '\n' ∉ v := by
  simp only [property?, Option.bind_eq_bind, Option.bind_eq_some_iff] at h
  obtain ⟨⟨name, r⟩, hname, a, ha, h⟩ := h
  obtain ⟨rfl, -, hword⟩ := append_of_word? hname
  have hline : '\n' ∉ skipBlanks a := by
    intro hmem
    rw [if_pos (by simp [hmem])] at h
    cases h
  have hcolon := after?_eq_some_iff.1 ha
  have hblank : ∀ {x : Text}, (∀ c ∈ x, Text.isBlank c = true) → ';' ∉ x := fun hx hmem =>
    absurd (hx _ hmem) (by decide)
  have hsemi : ';' ∉ name := fun hmem => absurd (hword _ hmem) (by decide)
  obtain ⟨x, hx, hxblank⟩ := eq_append_skipBlanks a
  obtain ⟨y, hy, hyblank⟩ := eq_append_skipBlanks _
  rw [hcolon] at hy
  have hafter : ';' ∉ y ++ ':' :: x := by simp [hblank hyblank, hblank hxblank]
  split at hy
  · rename_i hr
    obtain rfl := hr
    refine ⟨name ++ '?' :: (y ++ ':' :: x), skipBlanks a, ?_, by simp [hsemi, hafter], hline⟩
    obtain rfl := hy
    simp [← hx]
  · obtain rfl := hy
    refine ⟨name ++ (y ++ ':' :: x), skipBlanks a, ?_, by simp [hsemi, hafter], hline⟩
    simp [← hx]

/-- A member that begins before a semicolon and a line end and goes on behind them is no property. -/
lemma property?_of_semicolon (q r : Text) : property? (q ++ ';' :: '\n' :: r) = none := by
  by_contra hsome
  obtain ⟨p, hp⟩ := Option.ne_none_iff_exists'.1 hsome
  obtain ⟨u, v, heq, hu, hv⟩ := exists_of_property? hp
  rcases List.append_eq_append_iff.1 heq with ⟨x, rfl, hx⟩ | ⟨x, rfl, rfl⟩
  · cases x with
    | nil => exact hv (by rw [List.nil_append] at hx; rw [← hx]; simp)
    | cons c x =>
      obtain ⟨rfl, -⟩ := List.cons.inj hx
      exact hu (by simp)
  · exact hv (by simp)

/-- A semicolon and all that is behind it are kept when blanks are taken off. -/
lemma trim_semicolon (q : Text) (hne : w ≠ []) (h : ∀ c, w.getLast? = some c → Text.isBlank c = false) :
    Text.trim (q ++ ';' :: w) = Text.trimLeft q ++ ';' :: w := by
  have hsemi : Text.trimLeft (';' :: w) = ';' :: w := List.dropWhile_cons_of_neg (by decide)
  have hleft : Text.trimLeft (q ++ ';' :: w) = Text.trimLeft q ++ ';' :: w := by
    rw [Text.trimLeft, List.dropWhile_append]
    split
    · rename_i hempty
      rw [← Text.trimLeft, hsemi, Text.trimLeft, List.isEmpty_iff.1 hempty]
      rfl
    · rfl
  rw [Text.trim, hleft]
  refine Text.trimRight_eq_self fun c hc => h c ?_
  rwa [List.getLast?_append_of_ne_nil _ (List.cons_ne_nil _ _), List.getLast?_cons_of_ne_nil hne] at hc

/-! ## Arrows -/

/-- How a text changes the depth of brackets if the `>` of an arrow counts for nothing. -/
def nesting : Text → Int
  | '=' :: '>' :: rest => nesting rest
  | c :: rest => bracketStep c + nesting rest
  | [] => 0

/-- What a function type has between its parameters and its result. -/
def arrow : Text := "=>"

lemma net_le_nesting (t : Text) : net t ≤ nesting t := by
  fun_induction nesting t with
  | case1 rest ih =>
    rw [net_cons, net_cons, show bracketStep '=' = 0 from rfl, show bracketStep '>' = -1 from rfl]
    omega
  | case2 c rest _ ih =>
    rw [net_cons]
    omega
  | case3 => exact Int.le_refl 0

lemma net_lt_nesting (h : arrow <:+: t) : net t < nesting t := by
  fun_induction nesting t with
  | case1 rest ih =>
    have := net_le_nesting rest
    rw [net_cons, net_cons, show bracketStep '=' = 0 from rfl, show bracketStep '>' = -1 from rfl]
    omega
  | case2 c rest hc ih =>
    rcases List.infix_cons_iff.1 h with h | h
    · obtain ⟨x, hx⟩ := h
      obtain ⟨rfl, rfl⟩ := List.cons.inj hx
      exact absurd rfl (hc _ rfl)
    · rw [net_cons]
      have := ih h
      omega
  | case3 => exact absurd (List.eq_nil_of_infix_nil h) (by decide)

/-- Without an arrow, all brackets count. -/
lemma nesting_eq_net (h : ¬ arrow <:+: t) : nesting t = net t := by
  fun_induction nesting t with
  | case1 rest ih => exact absurd ⟨[], rest, rfl⟩ h
  | case2 c rest _ ih => rw [net_cons, ih fun hr => h (hr.trans (List.suffix_cons c rest).isInfix)]
  | case3 => rfl

/-! ## Independence -/

/-- A member of an interface on one line: it begins with a word, the brackets of its type match up to arrows,
its semicolons stand inside of brackets, and alone it is one property. -/
structure IsMemberText (l : Text) : Prop where
  newline : '\n' ∉ l
  head : (word? l).isSome = true
  opened : ∀ u, u <+: l → 0 ≤ nesting u
  closed : nesting l = 0
  semicolon : ∀ u, u ++ [';'] <+: l → 0 < nesting u
  alone : (properties l).length = 1

instance (l : Text) : Decidable (IsMemberText l) :=
  decidable_of_iff ('\n' ∉ l ∧ (word? l).isSome = true ∧ (∀ u ∈ l.inits, 0 ≤ nesting u) ∧ nesting l = 0 ∧
      (∀ u ∈ l.inits, u ++ [';'] <+: l → 0 < nesting u) ∧ (properties l).length = 1)
    ⟨fun ⟨hline, hhead, hopened, hclosed, hsemi, halone⟩ =>
      ⟨hline, hhead, fun u hu => hopened u ((List.mem_inits ..).2 hu), hclosed,
        fun u hu => hsemi u ((List.mem_inits ..).2 ((List.prefix_append ..).trans hu)) hu, halone⟩,
      fun h => ⟨h.newline, h.head, fun u hu => h.opened u ((List.mem_inits ..).1 hu), h.closed,
        fun u _ hu => h.semicolon u hu, h.alone⟩⟩

/-- A member without an arrow is closed. -/
lemma IsMemberText.isClosed (h : IsMemberText l) (harrow : ¬ arrow <:+: l) : IsClosed l where
  uncut := by
    rintro u c v rfl (rfl | rfl)
    · have hu : ¬ arrow <:+: u := fun hmem => harrow (hmem.trans (List.prefix_append ..).isInfix)
      have := h.semicolon u ⟨v, by simp⟩
      rw [nesting_eq_net hu] at this
      omega
    · exact absurd (by simp) h.newline
  net_eq := by rw [← nesting_eq_net harrow, h.closed]

lemma net_join (ls : List Text) : net (Text.join ";\n" ls) = (ls.map net).sum := by
  induction ls with
  | nil => rfl
  | cons l ls ih =>
    cases ls with
    | nil => simp
    | cons m ls =>
      have hseparator : net ";\n" = 0 := rfl
      rw [Text.join_cons_cons, net_append, net_append, ih, hseparator, Int.add_zero]
      rfl

/-- An arrow leaves the depth below zero. -/
lemma net_join_neg {ls : List Text} (h : ∀ l ∈ ls, IsMemberText l) (harrow : ∃ l ∈ ls, arrow <:+: l) :
    net (Text.join ";\n" ls) < 0 := by
  obtain ⟨l, hl, hmem⟩ := harrow
  have hsum : (ls.map nesting).sum = 0 := by
    rw [List.map_congr_left fun l hl => (h l hl).closed]
    simp
  rw [net_join, ← hsum]
  exact List.sum_lt_sum _ _ (fun l _ => net_le_nesting l) ⟨l, hl, net_lt_nesting hmem⟩

lemma uncut_of_step (hdepth : depth ≠ 0) (h : ∀ c ∈ t, bracketStep c = 0) : Uncut depth t := by
  rintro u c v rfl -
  have hu : net u = 0 := by
    rw [net, List.map_congr_left fun d hd => h d (by simp [hd])]
    simp
  rwa [hu, Int.add_zero]

/-- **A member is lost behind an arrow** if it has no brackets: what is read does not depend on it. -/
lemma properties_join_of_arrow {ls : List Text} (h : ∀ l ∈ ls, IsMemberText l)
    (harrow : ∃ l ∈ ls, arrow <:+: l) :
    ∃ read, ∀ last : Text, last ≠ [] → (∀ c ∈ last, bracketStep c = 0) →
      (∀ c, last.getLast? = some c → Text.isBlank c = false) →
        properties (Text.join ";\n" (ls ++ [last])) = read := by
  have hne : ls ≠ [] := by
    rintro rfl
    simp at harrow
  obtain ⟨q, qs, hq⟩ := exists_pieces 0 (Text.join ";\n" ls)
  obtain ⟨ps, p, hp⟩ := (List.eq_nil_or_concat' (q :: qs)).resolve_left (List.cons_ne_nil q qs)
  rw [hp] at hq
  refine ⟨((ps.map Text.trim).filter fun m => !m.isEmpty && !Text.startsWith "//" m).filterMap property?,
    fun last hlast hstep hend => ?_⟩
  -- the separator before the last member is not seen, so it goes into the piece that the arrow is in
  have huncut : Uncut (0 + net (Text.join ";\n" ls)) (";\n".toList ++ last) := by
    refine uncut_of_step (by have := net_join_neg h harrow; omega) fun c hc => ?_
    rcases List.mem_append.1 hc with hc | hc
    · exact Text.forall_mem_of_all (P := fun c => bracketStep c = 0) (by decide) c hc
    · exact hstep c hc
  have hlastOf : ∀ c, ('\n' :: last).getLast? = some c → Text.isBlank c = false := fun c hc =>
    hend c (by rwa [List.getLast?_cons_of_ne_nil hlast] at hc)
  have htrim : Text.trim (p ++ (";\n".toList ++ last)) = Text.trimLeft p ++ ';' :: '\n' :: last :=
    trim_semicolon p (List.cons_ne_nil '\n' last) hlastOf
  rw [Text.join_concat _ _ hne, properties, members, pieces_append_last hq huncut, List.map_append,
    List.filter_append, List.filterMap_append, List.map_singleton, htrim, List.append_right_eq_self,
    List.filterMap_eq_nil_iff]
  intro m hm
  obtain rfl := List.mem_singleton.1 (List.mem_filter.1 hm).1
  exact property?_of_semicolon _ _

/-- Without arrows, every member is read as if it stood alone. -/
lemma properties_join {ls : List Text} (h : ∀ l ∈ ls, IsMemberText l)
    (harrow : ∀ l ∈ ls, ¬ arrow <:+: l) (last : Text) :
    properties (Text.join ";\n" (ls ++ [last])) = (ls ++ [last]).flatMap properties := by
  induction ls with
  | nil => simp
  | cons l ls ih =>
    have hl := (h l (by simp)).isClosed (harrow l (by simp))
    obtain ⟨m, ms, hms⟩ := List.exists_cons_of_ne_nil (l := ls ++ [last]) (by simp)
    have hrest := ih (fun l hl => h l (by simp [hl])) fun l hl => harrow l (by simp [hl])
    rw [List.cons_append, List.flatMap_cons, ← hrest, hms, Text.join_cons_cons, List.append_assoc]
    exact properties_append hl _

/-- **Members are read independently** of each other, whatever member comes last, exactly if none of the
others has an arrow. -/
theorem properties_join_iff {ls : List Text} (h : ∀ l ∈ ls, IsMemberText l) :
    (∀ last, IsMemberText last →
        properties (Text.join ";\n" (ls ++ [last])) = (ls ++ [last]).flatMap properties) ↔
      ∀ l ∈ ls, ¬ arrow <:+: l := by
  refine ⟨fun hread => ?_, fun harrow last _ => properties_join h harrow last⟩
  by_contra hmem
  push Not at hmem
  obtain ⟨read, hlost⟩ := properties_join_of_arrow h hmem
  have ha := hread "a: b" (by decide)
  have hb := hread "b: b" (by decide)
  have hend : ∀ u c, (u ++ ['b']).getLast? = some c → Text.isBlank c = false := by
    intro u c hc
    rw [List.getLast?_concat] at hc
    obtain rfl := Option.some.inj hc
    rfl
  rw [hlost "a: b" (by decide) (Text.forall_mem_of_all (by decide)) (hend "a: ")] at ha
  rw [hlost "b: b" (by decide) (Text.forall_mem_of_all (by decide)) (hend "b: ")] at hb
  rw [ha, List.flatMap_append, List.flatMap_append, List.append_cancel_left_eq] at hb
  exact absurd hb (by decide)

theorem properties_join_place :
    let ls : List Text := [("name?: string" : String), "at: \x7b x: A<B>; y: A \x7d"].map String.toList
    (∀ l ∈ ls, IsMemberText l) ∧ (∀ l ∈ ls, ¬ arrow <:+: l) ∧ IsMemberText "on: (e: A) => void" ∧
      properties (Text.join ";\n" (ls ++ ["on: (e: A) => void".toList])) =
        [⟨"name", true, "string"⟩, ⟨"at", false, "\x7b x: A<B>; y: A \x7d"⟩,
          ⟨"on", false, "(e: A) => void"⟩] := by
  intro ls
  have hmember : ∀ l ∈ ls, IsMemberText l := by decide
  have harrow : ∀ l ∈ ls, ¬ arrow <:+: l := by decide
  have hlast : IsMemberText "on: (e: A) => void" := by decide
  exact ⟨hmember, harrow, hlast, ((properties_join_iff hmember).2 harrow _ hlast).trans (by decide)⟩

/-- Behind a function type, a member is lost. -/
theorem properties_lost_callback :
    (∀ l ∈ ["cb: () => void", "name: string"].map String.toList, IsMemberText l) ∧
      ["cb: () => void", "name: string"].flatMap (fun l => properties l) =
        [⟨"cb", false, "() => void"⟩, ⟨"name", false, "string"⟩] ∧
      properties (Text.join ";\n" (["cb: () => void", "name: string"].map String.toList)) = [] := by
  decide

end Scaffold.Recovery
