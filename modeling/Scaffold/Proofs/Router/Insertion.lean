import Scaffold.Proofs.Router.Neutral

/-!
# Insertions do not hide the list of routes

The list of routes is found by three marks, one after another, and a scan for the bracket that
closes it.  `Harmless u m v` collects what an insertion of `m` between `u` and `v` must not do: hold
or complete a mark, or show itself to the scan.  Under it the list is found after the insertion
exactly if it was found before, and it is the same list: what was inserted stands before it, in it
or behind it (`locate?_insert`).
-/

namespace Scaffold.Router

open Text (Apart cut? occurs)

/-! ## Marks one after another -/

/-- The marks that the list of routes is found by. -/
def marks : List Text := [declaration, ['='], ['[']]

/-- Cuts at phrases one after another: all the text before the last one, and the rest. -/
def cutEach? : List Text → Text → Option (Text × Text)
  | [], t => some ([], t)
  | p :: ps, t => (cut? p t).bind fun (b, a) => (cutEach? ps a).map fun (b', a') => (b ++ b', a')

lemma locate?_eq (content : Text) :
    locate? content = (cutEach? marks content).bind fun (before, opened) =>
      (closing? 0 .code opened).map fun (list, after) => ⟨before, list, after⟩ := by
  simp only [locate?, marks, cutEach?, bind, Option.map_eq_bind, Option.bind_assoc]
  rcases cut? declaration content with _ | ⟨before, declared⟩
  · rfl
  simp only [Option.bind_some]
  rcases cut? ['='] declared with _ | ⟨symbol, assigned⟩
  · rfl
  simp only [Option.bind_some]
  rcases cut? ['['] assigned with _ | ⟨between, opened⟩
  · rfl
  simp only [pure, Option.bind_some, Function.comp_def, List.append_nil, List.append_assoc]

/-- A phrase that an insertion of `m` between `u` and `v` neither adds nor completes nor splits. -/
structure Skips (p u m v : Text) : Prop where
  border : Apart p u v
  left : Apart p u (m ++ v)
  right : Apart p m v
  absent : occurs p m = false

variable {p u m v t : Text}

lemma Skips.mono (h : Skips p u m v) (ht : t <:+ u) : Skips p t m v :=
  ⟨h.border.mono ht (List.prefix_refl _), h.left.mono ht (List.prefix_refl _), h.right, h.absent⟩

lemma Skips.singleton {c : Char} (h : c ∉ m) (u v : Text) : Skips [c] u m v where
  border := Text.apart_singleton _ _ _
  left := Text.apart_singleton _ _ _
  right := Text.apart_singleton _ _ _
  absent := Text.not_occurs_of_mem (List.mem_singleton_self c) h

/-- A cut stays where it is, before the insertion or behind it. -/
lemma Skips.cut? (hp : p ≠ []) (h : Skips p u m v) :
    (∃ b x, Text.cut? p u = some (b, x) ∧ Text.cut? p (u ++ v) = some (b, x ++ v) ∧
      Text.cut? p (u ++ (m ++ v)) = some (b, x ++ (m ++ v))) ∨
    Text.cut? p (u ++ v) = (Text.cut? p v).map (fun (b, a) => (u ++ b, a)) ∧
      Text.cut? p (u ++ (m ++ v)) = (Text.cut? p v).map fun (b, a) => (u ++ (m ++ b), a) := by
  rw [Text.cut?_append hp h.border, Text.cut?_append hp h.left, Text.cut?_append hp h.right,
    (Text.cut?_eq_none_iff p m).2 h.absent]
  cases hu : Text.cut? p u with
  | some r => exact .inl ⟨r.1, r.2, rfl, rfl, rfl⟩
  | none =>
    refine .inr ⟨rfl, ?_⟩
    simp only [Option.map_map]
    rfl

lemma cutEach?_cons_of_cut? {ps : List Text} {b a : Text} (h : Text.cut? p t = some (b, a)) :
    cutEach? (p :: ps) t = (cutEach? ps a).map fun (b', a') => (b ++ b', a') := by
  rw [cutEach?, h, Option.bind_some]

/-- Where the first mark is found behind a text, all the marks are. -/
lemma cutEach?_cons_behind (ps : List Text) {w : Text}
    (h : Text.cut? p (w ++ v) = (Text.cut? p v).map fun (b, a) => (w ++ b, a)) :
    cutEach? (p :: ps) (w ++ v) = (cutEach? (p :: ps) v).map fun (b, a) => (w ++ b, a) := by
  rw [cutEach?, cutEach?, h]
  cases Text.cut? p v with
  | none => rfl
  | some r => simp [Option.map_map, Function.comp_def]

/-- The marks are found where they were, before the insertion or behind it. -/
lemma cutEach?_insert {ps : List Text} (hps : ∀ p ∈ ps, p ≠ [] ∧ Skips p u m v) :
    (∃ b x, u = b ++ x ∧ (ps ≠ [] → x ≠ []) ∧ cutEach? ps (u ++ v) = some (b, x ++ v) ∧
      cutEach? ps (u ++ (m ++ v)) = some (b, x ++ (m ++ v))) ∨
    ∃ r : Option (Text × Text), cutEach? ps (u ++ v) = r.map (fun (b, a) => (u ++ b, a)) ∧
      cutEach? ps (u ++ (m ++ v)) = r.map fun (b, a) => (u ++ (m ++ b), a) := by
  induction ps generalizing u with
  | nil => exact .inl ⟨[], u, rfl, fun h => absurd rfl h, rfl, rfl⟩
  | cons p ps ih =>
    obtain ⟨hp, hskips⟩ := hps p (List.mem_cons_self ..)
    rcases hskips.cut? hp with ⟨b, x, hu, h, h'⟩ | ⟨h, h'⟩
    · have hux := Text.append_of_cut? hu
      have hne : x ≠ [] := by
        rintro rfl
        exact hp (List.prefix_nil.1 (Text.prefix_of_cut? hu))
      -- what is left of `u` behind the mark is a suffix of it, so the other marks skip `m` too
      have hrest : ∀ q ∈ ps, q ≠ [] ∧ Skips q x m v := fun q hq =>
        ⟨(hps q (List.mem_cons_of_mem _ hq)).1, (hps q (List.mem_cons_of_mem _ hq)).2.mono ⟨b, hux⟩⟩
      rw [cutEach?_cons_of_cut? h, cutEach?_cons_of_cut? h']
      rcases ih hrest with ⟨b', x', rfl, hne', hv, hm⟩ | ⟨r, hv, hm⟩
      · refine .inl ⟨b ++ b', x', by rw [List.append_assoc, hux], fun _ => ?_, ?_, ?_⟩
        · cases ps with
          | nil =>
            simp only [cutEach?, Option.some.injEq, Prod.mk.injEq] at hv
            rw [← hv.1, List.nil_append] at hne
            exact hne
          | cons q qs => exact hne' (by simp)
        · rw [hv, Option.map_some]
        · rw [hm, Option.map_some]
      · refine .inr ⟨r, ?_, ?_⟩
        · rw [hv, Option.map_map, ← hux]
          simp only [Function.comp_def, List.append_assoc]
        · rw [hm, Option.map_map, ← hux]
          simp only [Function.comp_def, List.append_assoc]
    · have hbehind := cutEach?_cons_behind (w := u ++ m) ps (by simpa only [List.append_assoc] using h')
      simp only [List.append_assoc] at hbehind
      exact .inr ⟨_, cutEach?_cons_behind ps h, hbehind⟩

/-- No phrase begins with a character that is not in it. -/
lemma not_prefix_cons {c : Char} {w : Text} (hp : p ≠ []) (hc : c ∉ p) : ¬ p <+: c :: w := by
  cases p with
  | nil => exact absurd rfl hp
  | cons d p =>
    intro hprefix
    obtain ⟨rfl, -⟩ := List.cons_prefix_cons.1 hprefix
    exact hc (List.mem_cons_self ..)

/-- What follows a bracket is not part of the marks before it. -/
lemma cutEach?_swap {ps : List Text} {w : Text} (w' : Text) (hps : ∀ p ∈ ps, p ≠ [] ∧ '[' ∉ p)
    (h : cutEach? (ps ++ [['[']]) (u ++ '[' :: w) = some (u, '[' :: w)) :
    cutEach? (ps ++ [['[']]) (u ++ '[' :: w') = some (u, '[' :: w') := by
  induction ps generalizing u with
  | nil =>
    simp only [List.nil_append, cutEach?, Option.map_some, List.append_nil] at h ⊢
    have hbracket : Text.cut? ['['] ('[' :: w') = some ([], '[' :: w') :=
      Text.cut?_of_prefix ⟨w', rfl⟩
    rw [Text.cut?_append (by simp) (Text.apart_singleton _ _ _)] at h ⊢
    cases hu : Text.cut? ['['] u with
    | some r =>
      have hlen := congrArg List.length (Text.append_of_cut? hu)
      obtain ⟨z, hz⟩ := Text.prefix_of_cut? hu
      simp only [hu, Option.bind_some, Option.some.injEq, Prod.mk.injEq] at h
      rw [h.1, ← hz] at hlen
      simp at hlen
    | none =>
      simp only [hbracket]
      simp
  | cons p ps ih =>
    obtain ⟨hp, hbracket⟩ := hps p (List.mem_cons_self ..)
    have hrest : ∀ q ∈ ps, q ≠ [] ∧ '[' ∉ q := fun q hq => hps q (List.mem_cons_of_mem _ hq)
    have hapart := fun w => Text.apart_of_head_not_mem hbracket u w
    simp only [List.cons_append, cutEach?] at h ⊢
    rw [Text.cut?_append hp (hapart _)] at h ⊢
    cases hu : Text.cut? p u with
    | some r =>
      obtain ⟨b, x⟩ := r
      simp only [hu, Option.bind_some] at h ⊢
      obtain ⟨⟨b', a'⟩, hcut, heq⟩ := Option.map_eq_some_iff.1 h
      simp only [Prod.mk.injEq] at heq
      obtain ⟨hb, rfl⟩ := heq
      have hux := Text.append_of_cut? hu
      have hx : b' = x := List.append_cancel_left (hb.trans hux.symm)
      rw [hx] at hcut
      rw [ih hrest hcut]
      simp [hux]
    | none =>
      simp only [hu] at h
      obtain ⟨⟨b, a⟩, hcut, h⟩ := Option.bind_eq_some_iff.1 h
      obtain ⟨⟨b₂, a₂⟩, hcut₂, heq⟩ := Option.map_eq_some_iff.1 hcut
      obtain ⟨⟨b₃, a₃⟩, -, heq₃⟩ := Option.map_eq_some_iff.1 h
      simp only [Prod.mk.injEq] at heq heq₃
      obtain ⟨rfl, rfl⟩ := heq
      -- the phrase would begin at the bracket, since all of `u` stands before the last mark
      have hb : b₂ = [] := by
        have := congrArg List.length heq₃.1
        simp only [List.length_append] at this
        exact List.length_eq_zero_iff.1 (by omega)
      have happend := Text.append_of_cut? hcut₂
      have hprefix := Text.prefix_of_cut? hcut₂
      rw [hb, List.nil_append] at happend
      rw [happend] at hprefix
      exact absurd hprefix (not_prefix_cons hp hbracket)

/-! ## Harmless insertions -/

/-- An insertion of `m` between `u` and `v` that does not hide the list of routes: it touches none
of the marks, and a scan that reaches it ends where it would have ended without it. -/
structure Harmless (u m v : Text) : Prop where
  declaration : Skips declaration u m v
  equals : '=' ∉ m
  bracket : '[' ∉ m
  passes : ∀ {x s s₁}, x <:+ u → x ≠ [] → (⟨0, .code⟩ : Scan).run x = some s →
    s.run v = some s₁ → ∃ s₂, s.run (m ++ v) = some s₂
  keeps : ∀ {x z r s s₁}, x <:+ u → x ≠ [] → (⟨0, .code⟩ : Scan).run x = some s →
    v = z ++ ']' :: r → s.run z = some s₁ → s.run (m ++ z) = some s₁

lemma Harmless.skips (h : Harmless u m v) : ∀ p ∈ marks, p ≠ [] ∧ Skips p u m v := by
  intro p hp
  simp only [marks, List.mem_cons, List.not_mem_nil, or_false] at hp
  rcases hp with rfl | rfl | rfl
  · exact ⟨by decide, h.declaration⟩
  · exact ⟨by simp, Skips.singleton h.equals u v⟩
  · exact ⟨by simp, Skips.singleton h.bracket u v⟩

/-- A list of routes after an insertion of `m` between `u` and `v`: it stands before the list, in
it, or behind it. -/
inductive Widened (u m v : Text) : Located → Located → Prop
  | before (x y list after : Text) : Widened u m v ⟨x ++ y, list, after⟩ ⟨x ++ (m ++ y), list, after⟩
  | list (before : Text) {x y : Text} (after : Text) (hx : x <:+ u) (hy : y <+: v) :
      Widened u m v ⟨before, x ++ y, after⟩ ⟨before, x ++ (m ++ y), after⟩
  | after (before list x y : Text) : Widened u m v ⟨before, list, x ++ y⟩ ⟨before, list, x ++ (m ++ y)⟩

/-- A border in a text that has a bracket in it stands before the bracket or behind it. -/
lemma border_of_append_eq {x v list rest : Text} (h : x ++ v = list ++ ']' :: rest) :
    (∃ z, list = x ++ z ∧ v = z ++ ']' :: rest) ∨ ∃ y, x = list ++ ']' :: y ∧ rest = y ++ v := by
  rcases List.append_eq_append_iff.1 h with ⟨z, hlist, hv⟩ | ⟨y, hx, hv⟩
  · exact .inl ⟨z, hlist, hv⟩
  · cases y with
    | nil => exact .inl ⟨[], by simpa using hx.symm, hv.symm⟩
    | cons c y =>
      obtain ⟨rfl, hrest⟩ := List.cons.inj hv
      exact .inr ⟨y, hx, hrest⟩

/-- A list that begins before the insertion is closed before it or behind it, or not at all. -/
lemma closing?_insert (h : Harmless u m v) {b x : Text} (hsuffix : x <:+ u) (hx : x ≠ []) :
    (closing? 0 .code (x ++ v) = none → closing? 0 .code (x ++ (m ++ v)) = none) ∧
      ∀ list after, closing? 0 .code (x ++ v) = some (list, after) →
        ∃ list' after', closing? 0 .code (x ++ (m ++ v)) = some (list', after') ∧
          Widened u m v ⟨b, list, after⟩ ⟨b, list', after'⟩ := by
  constructor
  · intro hnone
    rw [closing?_eq_none_iff] at hnone ⊢
    obtain ⟨s₁, hrun⟩ := hnone
    rw [Scan.run_append] at hrun
    obtain ⟨s, hxs, hrun⟩ := Option.bind_eq_some_iff.1 hrun
    obtain ⟨s₂, hpass⟩ := h.passes hsuffix hx hxs hrun
    exact ⟨s₂, by rw [Scan.run_append, hxs, Option.bind_some, hpass]⟩
  · intro list after hclose
    obtain ⟨rest, s₁, rfl, hsplit, hrun, hdepth, hphase⟩ := closing?_eq_some_iff.1 hclose
    rcases border_of_append_eq hsplit with ⟨z, rfl, hz⟩ | ⟨y, rfl, rfl⟩
    · -- it ends behind the insertion
      rw [Scan.run_append] at hrun
      obtain ⟨s, hxs, hrun⟩ := Option.bind_eq_some_iff.1 hrun
      have hkeep := h.keeps hsuffix hx hxs hz hrun
      refine ⟨x ++ (m ++ z), ']' :: rest, closing?_eq_some_iff.2 ?_, .list _ _ hsuffix ⟨_, hz.symm⟩⟩
      refine ⟨rest, s₁, rfl, ?_, ?_, hdepth, hphase⟩
      · rw [hz]
        simp
      · have hstart : (Scan.ofMode 0 .code).run x = some s := hxs
        rw [Scan.run_append, hstart, Option.bind_some, hkeep]
    · -- it ends before the insertion
      exact ⟨list, ']' :: y ++ (m ++ v),
        closing?_eq_some_iff.2 ⟨y ++ (m ++ v), s₁, rfl, by simp, hrun, hdepth, hphase⟩,
        .after _ _ (']' :: y) v⟩

/-- **A harmless insertion does not hide the list**, and does not make one appear. -/
theorem locate?_insert (h : Harmless u m v) :
    (locate? (u ++ v) = none → locate? (u ++ (m ++ v)) = none) ∧
      ∀ l, locate? (u ++ v) = some l →
        ∃ l', locate? (u ++ (m ++ v)) = some l' ∧ Widened u m v l l' := by
  rw [locate?_eq, locate?_eq]
  rcases cutEach?_insert h.skips with ⟨b, x, rfl, hne, hv, hm⟩ | ⟨r, hv, hm⟩
  · -- the list begins before the insertion
    obtain ⟨hnone, hsome⟩ := closing?_insert h (b := b) (List.suffix_append _ _) (hne (by simp [marks]))
    rw [hv, hm, Option.bind_some, Option.bind_some]
    constructor
    · intro h
      rw [Option.map_eq_none_iff] at h ⊢
      exact hnone h
    · intro l hl
      obtain ⟨⟨list, after⟩, hclose, rfl⟩ := Option.map_eq_some_iff.1 hl
      obtain ⟨list', after', hclose', hwidened⟩ := hsome list after hclose
      exact ⟨_, Option.map_eq_some_iff.2 ⟨_, hclose', rfl⟩, hwidened⟩
  · -- the list begins behind the insertion
    rw [hv, hm]
    cases r with
    | none => exact ⟨fun _ => rfl, fun l hl => by cases hl⟩
    | some r =>
      obtain ⟨b, a⟩ := r
      simp only [Option.map_some, Option.bind_some]
      constructor
      · intro hnone
        rw [Option.map_eq_none_iff] at hnone ⊢
        exact hnone
      · intro l hl
        obtain ⟨⟨list, after⟩, hclose, rfl⟩ := Option.map_eq_some_iff.1 hl
        exact ⟨_, by rw [hclose]; rfl, .before _ _ _ _⟩

end Scaffold.Router
