import Mathlib.Data.List.Basic
import Mathlib.Tactic.Common
import Scaffold.Proofs.Artifact.Attributes
import Scaffold.Proofs.Recovery.Search
import Scaffold.Proofs.Router.Phrases
import Scaffold.Recovery.SchemaEntry

/-!
# Reading entries of a schema

The entry of a field is searched for by its name and a colon, with an opening brace behind it.
There are many colons in a schema that do not belong to fields, and a field may be named like an
attribute.  What keeps the attributes apart from the fields is that behind the colon of an attribute
no brace stands (`Quiet`), so nothing in the entry of another field is mistaken for the one that is
looked for (`silent_line`).

Inside of an entry an attribute is found by its key and a colon.  The keys end with different
letters, so already the letter before the colon tells them apart (`not_infix_attributes`).
-/

namespace Scaffold.Recovery

open Mongoose (attributeText moreText literal keyed)

variable {name p q s t u v rest : Text} {b c : Char} {before : Option Char}

/-! ## Colons -/

/-- Behind every colon of a text stands a blank and then something that is no opening brace. -/
def Quiet (p : Text) : Prop :=
  ∀ u v, p = u ++ ':' :: v → ∃ c w, v = ' ' :: c :: w ∧ Text.isBlank c = false ∧ c ≠ '{'

lemma quiet_of_not_mem (h : ':' ∉ p) : Quiet p := by
  rintro u v rfl
  simp at h

lemma Quiet.append (hp : Quiet p) (hq : Quiet q) : Quiet (p ++ q) := by
  intro u v h
  rcases List.append_eq_append_iff.1 h with ⟨x, rfl, hx⟩ | ⟨x, hx, hv⟩
  · exact hq x v hx
  · cases x with
    | nil => exact hq [] v hv.symm
    | cons d x =>
      rw [List.cons_append, List.cons.injEq] at hv
      obtain ⟨rfl, rfl⟩ := hv
      obtain ⟨c, w, rfl, hc⟩ := hp u x hx
      exact ⟨c, w ++ q, rfl, hc⟩

lemma quiet_flatMap {α : Type} {f : α → Text} {xs : List α} (h : ∀ x ∈ xs, Quiet (f x)) :
    Quiet (xs.flatMap f) := by
  induction xs with
  | nil => exact quiet_of_not_mem (by simp)
  | cons x xs ih =>
    rw [List.flatMap_cons]
    exact (h x (by simp)).append (ih fun y hy => h y (by simp [hy]))

/-- A key with a value that does not start with a brace. -/
lemma quiet_keyed (ht : ':' ∉ t) (hv : ':' ∉ v)
    (hhead : ∃ c w, v = c :: w ∧ Text.isBlank c = false ∧ c ≠ '{') : Quiet (t ++ ':' :: ' ' :: v) := by
  intro x y h
  have hv' : ':' ∉ ' ' :: v := by simp [hv]
  have hcolon : ':' ∉ y := by
    intro hy
    have hcount := congrArg (List.count ':') h
    rw [List.count_append, List.count_append, List.count_cons_self, List.count_cons_self,
      List.count_eq_zero.2 ht, List.count_eq_zero.2 hv'] at hcount
    have := List.count_pos_iff.2 hy
    omega
  have hx : ':' ∉ x := by
    intro hx
    have hcount := congrArg (List.count ':') h
    rw [List.count_append, List.count_append, List.count_cons_self, List.count_cons_self,
      List.count_eq_zero.2 ht, List.count_eq_zero.2 hv'] at hcount
    have := List.count_pos_iff.2 hx
    omega
  obtain ⟨-, -, hy⟩ := (List.append_cons_inj_of_notMem ht hv').1 h
  obtain ⟨c, w, rfl, hc⟩ := hhead
  exact ⟨c, w, hy.symm, hc⟩

/-! ## Places where no entry begins -/

lemma exists_of_valueOf? (h : valueOf? name before s = some t) :
    (∀ c, before = some c → Text.isWord c = false) ∧
      ∃ y, s = name ++ ':' :: y ∧ t = skipBlanks y := by
  unfold valueOf? at h
  by_cases hbefore : (before.any fun c => Text.isWord c || c == '$') = true
  · rw [if_pos hbefore] at h
    cases h
  · rw [if_neg hbefore] at h
    simp only [Option.bind_eq_bind, Option.pure_def, Option.bind_eq_some_iff, Option.some.injEq] at h
    obtain ⟨x, hx, y, hy, rfl⟩ := h
    obtain rfl := after?_eq_some_iff.1 hx
    obtain rfl := after?_eq_some_iff.1 hy
    refine ⟨?_, y, rfl, rfl⟩
    rintro c rfl
    simp only [Option.any_some, Bool.or_eq_true, not_or] at hbefore
    exact Bool.eq_false_iff.2 hbefore.1

/-- An entry in braces begins with its name, and no name goes on before it. -/
lemma exists_of_bracedValue? {body : Text} (h : bracedValue? name before s = some body) :
    (∀ c, before = some c → Text.isWord c = false) ∧
      ∃ w r, s = name ++ ':' :: (w ++ '{' :: r) ∧ ∀ c ∈ w, Text.isBlank c = true := by
  simp only [bracedValue?, Option.bind_eq_bind, Option.bind_eq_some_iff] at h
  obtain ⟨x, hx, r, hr, -⟩ := h
  obtain ⟨hbefore, y, rfl, rfl⟩ := exists_of_valueOf? hx
  have hbrace := after?_eq_some_iff.1 hr
  refine ⟨hbefore, y.takeWhile Text.isBlank, r, ?_, fun c hc => List.mem_takeWhile_imp hc⟩
  have hsplit := List.takeWhile_append_dropWhile (p := Text.isBlank) (l := y)
  rw [show y.dropWhile Text.isBlank = '{' :: r from hbrace] at hsplit
  rw [hsplit]

/-- Nothing is mistaken for an entry in a quiet text that does not end with a name. -/
lemma silent_of_quiet (hname : ∀ c ∈ name, Text.isWord c = true) (hp : Quiet (p ++ [b]))
    (hb : Text.isWord b = false) : Silent (bracedValue? name) before (p ++ [b]) := by
  intro u t hut hne rest
  by_contra hsome
  obtain ⟨body, hbody⟩ := Option.ne_none_iff_exists'.1 hsome
  obtain ⟨-, w, r, hread, hw⟩ := exists_of_bracedValue? hbody
  have hlast : b ∈ t := by
    obtain ⟨t', d, rfl⟩ := (List.eq_nil_or_concat' t).resolve_left hne
    rw [← List.append_assoc] at hut
    obtain ⟨-, hd⟩ := List.append_inj' hut rfl
    simp only [List.cons.injEq, and_true] at hd
    simp [hd]
  have hnot : ∀ x, name ≠ t ++ x := by
    rintro x rfl
    have := hname b (by simp [hlast])
    rw [hb] at this
    cases this
  rcases List.append_eq_append_iff.1 hread with ⟨x, hx, -⟩ | ⟨x, rfl, hx⟩
  · exact hnot x hx
  cases x with
  | nil => exact hnot [] (by simp)
  | cons d x =>
    rw [List.cons_append, List.cons.injEq] at hx
    obtain ⟨rfl, hx⟩ := hx
    obtain ⟨c, z, rfl, hblank, hbrace⟩ := hp (u ++ name) x (by rw [hut]; simp)
    -- behind the colon stands a blank and then no brace
    cases w with
    | nil =>
      rw [List.nil_append, List.cons_append, List.cons.injEq] at hx
      exact absurd hx.1 (by decide)
    | cons e w =>
      rw [List.cons_append, List.cons_append, List.cons.injEq] at hx
      cases w with
      | nil =>
        rw [List.nil_append, List.cons_append, List.cons.injEq] at hx
        exact hbrace hx.2.1.symm
      | cons e' w =>
        rw [List.cons_append, List.cons_append, List.cons.injEq] at hx
        have := hw e' (by simp)
        rw [hx.2.1, hblank] at this
        cases this

/-- The name of another field is not taken for the one that is looked for. -/
lemma silent_key (hname : ∀ c ∈ name, Text.isWord c = true) (hne : name ≠ [])
    (ht : ∀ c ∈ t, Text.isWord c = true) (hother : t ≠ name) :
    Silent (bracedValue? name) before (t ++ [':', ' ']) := by
  intro u s hus hnil rest
  by_contra hsome
  obtain ⟨body, hbody⟩ := Option.ne_none_iff_exists'.1 hsome
  obtain ⟨hbefore, w, r, hread, -⟩ := exists_of_bracedValue? hbody
  have hcolon : ':' ∉ name := Text.not_mem_of_isWord hname (by decide)
  obtain ⟨d, n, rfl⟩ := List.exists_cons_of_ne_nil hne
  have hd := hname d (by simp)
  rcases List.append_eq_append_iff.1 hus with ⟨x, rfl, hx⟩ | ⟨x, rfl, rfl⟩
  · -- a place at the colon or behind it does not begin with a name
    have hhead : s.head? = some ':' ∨ s.head? = some ' ' := by
      match x, hx with
      | [], hx => rw [List.nil_append] at hx; exact .inl (by rw [← hx]; rfl)
      | [_], hx =>
        simp only [List.cons_append, List.nil_append, List.cons.injEq] at hx
        exact .inr (by rw [← hx.2]; rfl)
      | _ :: _ :: x, hx =>
        simp only [List.cons_append, List.cons.injEq] at hx
        exact absurd (List.append_eq_nil_iff.1 hx.2.2.symm).2 hnil
    obtain ⟨e, s, rfl⟩ := List.exists_cons_of_ne_nil hnil
    rw [List.cons_append, List.cons_append, List.cons.injEq] at hread
    rw [← hread.1] at hd
    rcases hhead with he | he
    · rw [List.head?_cons, Option.some.injEq] at he
      rw [he] at hd
      exact absurd hd (by decide)
    · rw [List.head?_cons, Option.some.injEq] at he
      rw [he] at hd
      exact absurd hd (by decide)
  · have hx : ':' ∉ x := Text.not_mem_of_isWord (fun c hc => ht c (by simp [hc])) (by decide)
    have heq : x = d :: n := by
      rw [List.append_assoc, List.cons_append] at hread
      exact Text.eq_of_prefix hx hcolon ⟨[], by rw [List.append_nil]; exact hread⟩ |>.1
    rcases List.eq_nil_or_concat' u with rfl | ⟨u, e, rfl⟩
    · exact hother (by rw [← heq]; rfl)
    · have hword := hbefore e (by simp)
      rw [ht e (by simp)] at hword
      cases hword

/-! ## Attributes -/

/-- The keys of attributes. -/
def attributeKeys : List Text := ["type", "ref", "enum", "required", "default"]

/-- An attribute whose value has no colon and no closing brace and does not start with a brace. -/
structure IsAttribute (a : Text × Text) : Prop where
  key : a.1 ∈ attributeKeys
  head : ∃ c w, a.2 = c :: w ∧ Text.isBlank c = false ∧ c ≠ '{'
  colon : ':' ∉ a.2
  brace : '}' ∉ a.2

lemma not_mem_key {k : Text} (hk : k ∈ attributeKeys) (hc : c = ':' ∨ c = '}' ∨ c = ' ') : c ∉ k := by
  simp only [attributeKeys, List.mem_cons, List.not_mem_nil, or_false] at hk
  rcases hc with rfl | rfl | rfl
  · rcases hk with rfl | rfl | rfl | rfl | rfl <;> decide
  · rcases hk with rfl | rfl | rfl | rfl | rfl <;> decide
  · rcases hk with rfl | rfl | rfl | rfl | rfl <;> decide

lemma attributeText_eq (a : Text × Text) : attributeText a = a.1 ++ ':' :: ' ' :: a.2 := by
  rw [attributeText, List.append_assoc]
  rfl

/-- What stands between the braces of a literal. -/
def inside (as : List (Text × Text)) : Text :=
  ' ' :: Text.join ", " (as.map attributeText) ++ [' ']

lemma literal_eq (as : List (Text × Text)) : literal as = '{' :: (inside as ++ ['}']) := by
  rw [literal, Text.braced, inside]
  simp

lemma inside_cons (a : Text × Text) (as : List (Text × Text)) :
    inside (a :: as) = [' '] ++ (attributeText a ++ (moreText as ++ [' '])) := by
  rw [inside, Mongoose.join_attributes]
  simp only [List.cons_append, List.nil_append, List.append_assoc]

variable {as : List (Text × Text)}

lemma quiet_attributeText {a : Text × Text} (h : IsAttribute a) : Quiet (attributeText a) := by
  rw [attributeText_eq]
  exact quiet_keyed (not_mem_key h.key (.inl rfl)) h.colon h.head

lemma quiet_moreText (h : ∀ a ∈ as, IsAttribute a) : Quiet (moreText as) :=
  quiet_flatMap fun a ha => (quiet_of_not_mem (p := [',', ' ']) (by decide)).append
    (quiet_attributeText (h a ha))

lemma quiet_inside (h : ∀ a ∈ as, IsAttribute a) : Quiet (inside as) := by
  cases as with
  | nil => exact quiet_of_not_mem (by decide)
  | cons a as =>
    rw [inside_cons]
    exact (quiet_of_not_mem (by decide)).append ((quiet_attributeText (h a (by simp))).append
      ((quiet_moreText fun b hb => h b (by simp [hb])).append (quiet_of_not_mem (by decide))))

lemma brace_not_mem_attributeText {a : Text × Text} (h : IsAttribute a) : '}' ∉ attributeText a := by
  rw [attributeText_eq]
  simp [not_mem_key h.key (.inr (.inl rfl)), h.brace]

lemma brace_not_mem_inside (h : ∀ a ∈ as, IsAttribute a) : '}' ∉ inside as := by
  cases as with
  | nil => decide
  | cons a as =>
    have hmore : '}' ∉ moreText as := by
      intro hmem
      obtain ⟨b, hb, hmem⟩ := List.mem_flatMap.1 hmem
      simp only [List.mem_cons] at hmem
      rcases hmem with hmem | hmem | hmem
      · exact absurd hmem (by decide)
      · exact absurd hmem (by decide)
      · exact brace_not_mem_attributeText (h b (by simp [hb])) hmem
    rw [inside_cons]
    simp [brace_not_mem_attributeText (h a (by simp)), hmore]

/-! ## Lines of a schema -/

/-- An entry is a literal with attributes, or a list. -/
inductive IsEntry : Text → Prop
  | literal {as : List (Text × Text)} : (∀ a ∈ as, IsAttribute a) → IsEntry (literal as)
  | list {t : Text} : ':' ∉ t → IsEntry ('[' :: t)

/-- A line of a schema. -/
def entryLine (key entry : Text) : Text := ' ' :: ' ' :: (key ++ ':' :: ' ' :: (entry ++ [',', '\n']))

/-- **No other line holds the entry** that is looked for. -/
lemma silent_line (hname : ∀ c ∈ name, Text.isWord c = true) (hne : name ≠ [])
    (ht : ∀ c ∈ t, Text.isWord c = true) (hother : t ≠ name) {entry : Text} (he : IsEntry entry) :
    Silent (bracedValue? name) before (entryLine t entry) := by
  have hsplit : entryLine t entry =
      ([' '] ++ [' ']) ++ ((t ++ [':', ' ']) ++ ((entry ++ [',']) ++ ['\n'])) := by
    simp [entryLine]
  have hquiet : Quiet (entry ++ [',']) := by
    refine Quiet.append ?_ (quiet_of_not_mem (by decide))
    cases he with
    | literal has =>
      rw [literal_eq]
      exact (quiet_of_not_mem (p := ['{']) (by decide)).append
        ((quiet_inside has).append (quiet_of_not_mem (by decide)))
    | list hlist => exact quiet_of_not_mem (by simp [hlist])
  rw [hsplit]
  refine Silent.append (silent_of_quiet hname (quiet_of_not_mem (by decide)) (by decide)) ?_
  refine Silent.append (silent_key hname hne ht hother) ?_
  exact silent_of_quiet hname (hquiet.append (quiet_of_not_mem (by decide))) (by decide)

/-- A list is no entry in braces, whatever its name is. -/
lemma silent_list (hname : ∀ c ∈ name, Text.isWord c = true) (ht : ∀ c ∈ t, Text.isWord c = true)
    (hu : ':' ∉ u) : Silent (bracedValue? name) before (entryLine t ('[' :: u)) := by
  have hsplit : entryLine t ('[' :: u) =
      ([' ', ' '] ++ (t ++ ':' :: ' ' :: '[' :: (u ++ [',']))) ++ ['\n'] := by
    simp [entryLine]
  have hcolon : ':' ∉ t := Text.not_mem_of_isWord ht (by decide)
  rw [hsplit]
  refine silent_of_quiet hname ?_ (by decide)
  refine Quiet.append ?_ (quiet_of_not_mem (by decide))
  refine Quiet.append (quiet_of_not_mem (by decide)) ?_
  exact quiet_keyed hcolon (by simp [hu]) ⟨'[', _, rfl, by decide, by decide⟩

lemma bracedValue?_literal (h : ∀ a ∈ as, IsAttribute a) (name rest : Text) :
    bracedValue? name (some ' ') (name ++ ':' :: ' ' :: (literal as ++ rest)) = some (inside as) := by
  obtain ⟨htake, hdrop⟩ := Text.takeWhile_append_cons (p := (· != '}')) (c := '}')
    (Text.forall_bne_of_not_mem (brace_not_mem_inside h)) (by simp) rest
  have hvalue : valueOf? name (some ' ') (name ++ ':' :: ' ' :: (literal as ++ rest)) =
      some ('{' :: (inside as ++ '}' :: rest)) := by
    have hnot : ((some ' ').any fun c => Text.isWord c || c == '$') = false := by decide
    have hskip : skipBlanks (' ' :: (literal as ++ rest)) = '{' :: (inside as ++ '}' :: rest) := by
      rw [skipBlanks_space, literal_eq]
      simp only [List.cons_append, List.append_assoc, List.nil_append]
      exact skipBlanks_cons_of_not_blank (by decide) _
    rw [valueOf?, hnot, if_neg Bool.false_ne_true, after?_append]
    simp only [Option.bind_eq_bind, Option.bind_some, after?_singleton, hskip]
    rfl
  rw [bracedValue?, hvalue]
  simp only [Option.bind_eq_bind, Option.bind_some, after?_singleton, htake, hdrop]
  rfl

/-! ## The entry of a name -/

lemma bracedValue?_nil (name : Text) : bracedValue? name before [] = none := by
  by_contra hsome
  obtain ⟨body, hbody⟩ := Option.ne_none_iff_exists'.1 hsome
  obtain ⟨-, w, r, h, -⟩ := exists_of_bracedValue? hbody
  simp at h

/-- The entry in braces is found behind lines that do not hold it. -/
lemma schemaOf?_literal (hname : ∀ c ∈ name, Text.isWord c = true)
    (hp : Silent (bracedValue? name) none p) (has : ∀ a ∈ as, IsAttribute a) (q : Text) :
    schemaOf? name (p ++ (entryLine name (literal as) ++ q)) = some (.ofText (inside as)) := by
  have hline : entryLine name (literal as) ++ q =
      [' ', ' '] ++ (name ++ ':' :: ' ' :: (literal as ++ ([',', '\n'] ++ q))) := by
    simp [entryLine]
  have hblank : ∀ before, Silent (bracedValue? name) before [' ', ' '] := fun before =>
    silent_of_quiet (p := [' ']) (b := ' ') hname (quiet_of_not_mem (by decide)) (by decide)
  have hfirst : firstAfter? (bracedValue? name) none (p ++ (entryLine name (literal as) ++ q)) =
      some (inside as) := by
    rw [firstAfter?_append_of_silent hp, hline, firstAfter?_append_of_silent (hblank _)]
    exact firstAfter?_of_read (bracedValue?_literal has name _)
  have hempty : (p ++ (entryLine name (literal as) ++ q)).isEmpty = false := by
    rw [List.isEmpty_eq_false_iff, hline]
    simp
  rw [schemaOf?, hempty, if_neg Bool.false_ne_true, hfirst]

/-- A list is found if no entry in braces is. -/
lemma schemaOf?_list (p q : Text)
    (hs : Silent (bracedValue? name) none (p ++ (entryLine name ('[' :: u) ++ q))) :
    schemaOf? name (p ++ (entryLine name ('[' :: u) ++ q)) = some ⟨[], none, false⟩ := by
  have hline : entryLine name ('[' :: u) ++ q =
      [' ', ' '] ++ (name ++ ':' :: ' ' :: '[' :: (u ++ ([',', '\n'] ++ q))) := by
    simp [entryLine]
  have hnone : firstAfter? (bracedValue? name) none (p ++ (entryLine name ('[' :: u) ++ q)) = none :=
    firstAfter?_of_silent hs fun _ => bracedValue?_nil name
  have hread : ∀ rest, listValue? name (some ' ') (name ++ ':' :: ' ' :: '[' :: rest) = some rest := by
    intro rest
    have hnot : ((some ' ').any fun c => Text.isWord c || c == '$') = false := by decide
    have hskip : skipBlanks (' ' :: '[' :: rest) = '[' :: rest :=
      skipBlanks_cons_of_not_blank (c := '[') (by decide) _
    rw [listValue?, valueOf?, hnot, if_neg Bool.false_ne_true, after?_append]
    simp only [Option.bind_eq_bind, Option.bind_some, after?_singleton, hskip]
    exact after?_singleton '[' rest
  have hsome : (firstAfter? (listValue? name) none
      (p ++ (entryLine name ('[' :: u) ++ q))).isSome = true := by
    apply isSome_firstAfter?_append
    rw [hline]
    apply isSome_firstAfter?_append
    show (firstAfter? (listValue? name) (some ' ') _).isSome = true
    rw [firstAfter?_of_read (hread _)]
    rfl
  have hempty : (p ++ (entryLine name ('[' :: u) ++ q)).isEmpty = false := by
    rw [List.isEmpty_eq_false_iff, hline]
    simp
  obtain ⟨r, hr⟩ := Option.isSome_iff_exists.1 hsome
  rw [schemaOf?, hempty, if_neg Bool.false_ne_true, hnone, hr]
  rfl

/-! ## What an entry says -/

/-- The letter before the colon of an attribute tells the attributes apart. -/
lemma not_infix_attributeText {a : Text × Text} (h : IsAttribute a) (hc : c ≠ ':')
    (hlast : a.1.getLast? ≠ some c) : ¬ [c, ':'] <:+: attributeText a := by
  have hcolon := not_mem_key h.key (.inl rfl)
  rw [attributeText_eq]
  refine Text.not_infix_pair_append (Text.not_infix_pair_of_not_mem_right hcolon) ?_ (.inl hlast)
  refine Text.not_infix_pair_append (u := [':']) ?_ (Text.not_infix_pair_of_not_mem_right ?_) ?_
  · exact Text.not_infix_pair_of_not_mem (by simpa using hc)
  · simp [h.colon]
  · right
    simp

lemma head?_attributeText {a : Text × Text} (h : IsAttribute a) (t : Text) :
    (attributeText a ++ t).head? ≠ some ':' := by
  have hne : a.1 ≠ [] := by
    have hkey := h.key
    simp only [attributeKeys, List.mem_cons, List.not_mem_nil, or_false] at hkey
    rcases hkey with h | h | h | h | h <;> rw [h] <;> decide
  rw [attributeText_eq, List.append_assoc]
  exact Text.head?_append_ne hne (not_mem_key h.key (.inl rfl))

lemma not_infix_moreText (h : ∀ a ∈ as, IsAttribute a ∧ a.1.getLast? ≠ some c) (hc : c ≠ ':') :
    ¬ [c, ':'] <:+: moreText as := by
  induction as with
  | nil => exact Text.not_infix_pair_of_not_mem (by simp [moreText])
  | cons a as ih =>
    obtain ⟨ha, hlast⟩ := h a (by simp)
    have hmore : moreText (a :: as) = [',', ' '] ++ (attributeText a ++ moreText as) := by
      simp [moreText]
    have hhead : (moreText as).head? ≠ some ':' := by
      cases as with
      | nil => simp [moreText]
      | cons b as => simp [moreText]
    rw [hmore]
    refine Text.not_infix_pair_append (Text.not_infix_pair_of_not_mem_right (by decide)) ?_
      (.inr (head?_attributeText ha _))
    exact Text.not_infix_pair_append (not_infix_attributeText ha hc hlast)
      (ih fun b hb => h b (by simp [hb])) (.inr hhead)

lemma not_infix_attributes (h : ∀ a ∈ as, IsAttribute a ∧ a.1.getLast? ≠ some c) (hc : c ≠ ':') :
    ¬ [c, ':'] <:+: inside as := by
  cases as with
  | nil => exact Text.not_infix_pair_of_not_mem_right (by decide)
  | cons a as =>
    obtain ⟨ha, hlast⟩ := h a (by simp)
    have hend : ¬ [c, ':'] <:+: moreText as ++ [' '] :=
      Text.not_infix_pair_append (not_infix_moreText (fun b hb => h b (by simp [hb])) hc)
        (Text.not_infix_pair_of_not_mem_right (by decide)) (.inr (by simp))
    have hhead : (moreText as ++ [' ']).head? ≠ some ':' := by
      cases as with
      | nil => simp [moreText]
      | cons b as => simp [moreText]
    rw [inside_cons]
    refine Text.not_infix_pair_append (Text.not_infix_pair_of_not_mem_right (by decide)) ?_
      (.inr (head?_attributeText ha _))
    exact Text.not_infix_pair_append (not_infix_attributeText ha hc hlast) hend (.inr hhead)

/-- Keys end with different letters. -/
lemma key_eq_of_getLast? {k k' : Text} (hk : k ∈ attributeKeys) (hk' : k' ∈ attributeKeys)
    (h : k.getLast? = k'.getLast?) : k = k' := by
  simp only [attributeKeys, List.mem_cons, List.not_mem_nil, or_false] at hk hk'
  rcases hk with rfl | rfl | rfl | rfl | rfl
  all_goals
    rcases hk' with rfl | rfl | rfl | rfl | rfl
    all_goals first | rfl | exact absurd h (by decide)

section Keys

variable {α : Type} {read? : Text → Option α} {k : Text}

/-- A key is not found where no attribute has it. -/
lemma inert_inside (hk : k ∈ attributeKeys) (h : ∀ a ∈ as, IsAttribute a ∧ a.1 ≠ k)
    (hread : ∀ s, ¬ (k ++ [':']) <+: s → read? s = none) : Inert read? (inside as) := by
  have hne : k ≠ [] := by
    rintro rfl
    exact absurd hk (by decide)
  obtain ⟨k', c, rfl⟩ := (List.eq_nil_or_concat' k).resolve_left hne
  have hcolon : c ≠ ':' := by
    rintro rfl
    exact not_mem_key hk (.inl rfl) (by simp)
  have hspace : ' ' ∉ k' ++ [c] ++ [':'] := by
    have := not_mem_key hk (.inr (.inr rfl))
    simp only [List.mem_append, not_or] at this ⊢
    exact ⟨this, by decide⟩
  have hlast : ∀ a ∈ as, IsAttribute a ∧ a.1.getLast? ≠ some c := by
    intro a ha
    refine ⟨(h a ha).1, fun heq => (h a ha).2 (key_eq_of_getLast? (h a ha).1.key hk ?_)⟩
    rw [heq, List.getLast?_append_of_ne_nil _ (by simp)]
    rfl
  refine inert_of_phrase hread (fun hin => ?_) fun v => ?_
  · exact not_infix_attributes hlast hcolon (List.IsInfix.trans ⟨k', [], by simp⟩ hin)
  · exact Text.apart_of_last_not_mem hspace (' ' :: Text.join ", " (as.map attributeText)) v

lemma first?_inside_eq_none (hk : k ∈ attributeKeys) (h : ∀ a ∈ as, IsAttribute a ∧ a.1 ≠ k)
    (hread : ∀ s, ¬ (k ++ [':']) <+: s → read? s = none) : first? read? (inside as) = none := by
  refine first?_of_inert (inert_inside hk h hread) (hread [] fun hp => ?_)
  have := List.prefix_nil.1 hp
  simp at this

end Keys

lemma after?_eq_none (h : ¬ p <+: s) : after? p s = none := by
  rw [after?, if_neg fun hp => h (List.isPrefixOf_iff_prefix.1 hp)]

lemma valueList?_eq_none (h : ¬ "enum".toList ++ [':'] <+: s) : valueList? s = none := by
  have hkey : after? "enum:" s = none := after?_eq_none fun hp => h hp
  rw [valueList?, hkey]
  rfl

lemma target?_eq_none (h : ¬ "ref".toList ++ [':'] <+: s) : target? s = none := by
  have hkey : after? "ref:" s = none := after?_eq_none fun hp => h hp
  rw [target?, hkey]
  rfl

lemma required?_eq_none (h : ¬ "required".toList ++ [':'] <+: s) : required? s = none := by
  have hkey : after? "required:" s = none := after?_eq_none fun hp => h hp
  rw [required?, hkey]
  rfl

/-- Every attribute stands somewhere inside of a literal. -/
lemma exists_inside_eq {a : Text × Text} (ha : a ∈ as) :
    ∃ p q, inside as = p ++ (attributeText a ++ q) := by
  have hmore : ∀ as : List (Text × Text), a ∈ as → ∃ p q, moreText as = p ++ (attributeText a ++ q) := by
    intro as ha
    obtain ⟨xs, ys, rfl⟩ := List.append_of_mem ha
    exact ⟨moreText xs ++ [',', ' '], moreText ys, by simp [moreText]⟩
  cases as with
  | nil => simp at ha
  | cons b as =>
    rw [inside_cons]
    rcases List.mem_cons.1 ha with rfl | ha
    · exact ⟨[' '], moreText as ++ [' '], rfl⟩
    · obtain ⟨p, q, hpq⟩ := hmore as ha
      exact ⟨[' '] ++ (attributeText b ++ p), q ++ [' '], by rw [hpq]; simp⟩

/-- Without values, none are read. -/
lemma values_ofText (h : ∀ a ∈ as, IsAttribute a ∧ a.1 ≠ "enum") :
    (SchemaEntry.ofText (inside as)).values = [] := by
  have hnone : first? valueList? (inside as) = none :=
    first?_inside_eq_none (k := "enum") (by decide) h fun _ => valueList?_eq_none
  rw [SchemaEntry.ofText, hnone]
  rfl

/-- Without a target, none is read. -/
lemma target_ofText_eq_none (h : ∀ a ∈ as, IsAttribute a ∧ a.1 ≠ "ref") :
    (SchemaEntry.ofText (inside as)).target = none :=
  first?_inside_eq_none (k := "ref") (by decide) h fun _ => target?_eq_none

/-- A word in quotes is read up to the closing quote. -/
lemma target?_quoted {target : Text} (ht : ∀ c ∈ target, Text.isWord c = true) (hne : target ≠ []) (rest : Text) :
    target? ("ref:".toList ++ (' ' :: '\'' :: (target ++ '\'' :: rest))) = some target := by
  have hquote : ∀ c ∈ target, (!isPlainQuote c) = true := by
    intro c hc
    have hword := ht c hc
    rw [Bool.not_eq_true', Bool.eq_false_iff]
    intro hq
    simp only [isPlainQuote, Bool.or_eq_true, beq_iff_eq] at hq
    rcases hq with rfl | rfl
    · exact absurd hword (by decide)
    · exact absurd hword (by decide)
  have hskip : skipBlanks (' ' :: '\'' :: (target ++ '\'' :: rest)) = '\'' :: (target ++ '\'' :: rest) :=
    skipBlanks_cons_of_not_blank (c := '\'') (by decide) _
  obtain ⟨htake, hdrop⟩ := Text.takeWhile_append_cons hquote (c := '\'') (by decide) rest
  obtain ⟨d, w, hw⟩ := List.exists_cons_of_ne_nil hne
  rw [target?, after?_append]
  simp only [Option.bind_eq_bind, Option.bind_some, hskip, htake, hdrop]
  rw [if_pos (by decide), hw]
  rfl

lemma isAttribute_comma {key value : Text} (h : IsAttribute (keyed key value)) :
    IsAttribute (keyed key (value ++ [','])) := by
  obtain ⟨c, w, hw, hc⟩ := h.head
  have hcolon := h.colon
  have hbrace := h.brace
  refine ⟨h.key, ⟨c, w ++ [','], ?_, hc⟩, ?_, ?_⟩
  · rw [keyed, show value = c :: w from hw]
    rfl
  · simp only [keyed, List.mem_append, not_or] at hcolon ⊢
    exact ⟨hcolon, by decide⟩
  · simp only [keyed, List.mem_append, not_or] at hbrace ⊢
    exact ⟨hbrace, by decide⟩

/-- A target behind the type is read. -/
lemma target_ofText {type target : Text} (htype : IsAttribute (keyed "type" type))
    (ht : ∀ c ∈ target, Text.isWord c = true) (hne : target ≠ []) :
    (SchemaEntry.ofText (inside (keyed "type" type :: keyed "ref" ('\'' :: target ++ ['\'']) :: as))).target =
      some target := by
  -- what stands before the key is a literal of its own, with the comma in its only value
  have hsplit : inside (keyed "type" type :: keyed "ref" ('\'' :: target ++ ['\'']) :: as) =
      (inside [keyed "type" (type ++ [','])]) ++
        ("ref:".toList ++ (' ' :: '\'' :: (target ++ '\'' :: (moreText as ++ [' '])))) := by
    rw [inside_cons, inside_cons]
    simp only [moreText, List.flatMap_cons, List.flatMap_nil, attributeText, keyed, List.append_assoc,
      List.cons_append, List.nil_append]
    rfl
  have hinert : Inert target? (inside [keyed "type" (type ++ [','])]) := by
    refine inert_inside (k := "ref") (by decide) (fun a ha => ?_) fun _ => target?_eq_none
    rw [List.mem_singleton.1 ha]
    exact ⟨isAttribute_comma htype, show "type".toList ≠ "ref".toList by decide⟩
  show first? target? _ = _
  rw [hsplit, first?_append_of_inert hinert]
  exact first?_of_read (target?_quoted ht hne _)

/-- The mark of a required field is read where it stands. -/
lemma isRequired_ofText (h : keyed "required" "true" ∈ as) :
    (SchemaEntry.ofText (inside as)).isRequired = true := by
  obtain ⟨p, q, hpq⟩ := exists_inside_eq h
  have hread : required? (attributeText (keyed "required" "true") ++ q) = some () := by
    have htext : attributeText (keyed "required" "true") ++ q =
        "required:".toList ++ (' ' :: ("true".toList ++ q)) := by
      rw [attributeText, keyed]
      simp only [List.append_assoc]
      rfl
    have hskip : skipBlanks (' ' :: ("true".toList ++ q)) = "true".toList ++ q :=
      skipBlanks_cons_of_not_blank (c := 't') (by decide) _
    rw [htext, required?, after?_append]
    simp only [Option.bind_eq_bind, Option.bind_some, hskip, after?_append]
    rfl
  show (first? required? (inside as)).isSome = true
  rw [hpq]
  apply isSome_first?_append
  rw [first?_of_read hread]
  rfl

lemma isRequired_ofText_eq_false (h : ∀ a ∈ as, IsAttribute a ∧ a.1 ≠ "required") :
    (SchemaEntry.ofText (inside as)).isRequired = false := by
  have hnone : first? required? (inside as) = none :=
    first?_inside_eq_none (k := "required") (by decide) h fun _ => required?_eq_none
  show (first? required? (inside as)).isSome = false
  rw [hnone]
  rfl

end Scaffold.Recovery
