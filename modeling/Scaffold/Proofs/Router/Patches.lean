import Mathlib.Data.List.Induction
import Scaffold.Proofs.Router.Entry

/-!
# Sequences of registrations

What one registration does to the text is said by counting: every solid phrase occurs as often as
before, and the two phrases of the module once more if they were missing (`occurrences_patch`).  Both
edits act on what all the earlier ones left, and counts are what makes that harmless: after any
sequence, a phrase occurs as often as it did at the start, or once if it was missing and its module
was registered (`occurrences_patchAll`).  The list of routes is carried along by the same induction,
with the entries that were added in the order of their first registration (`locate?_patchAll`).
-/

namespace Scaffold.Router

open Text (InOrder occurrences occurs)

variable {n m : Names} {names : List Names} {content : Text} {p : Text} {l l' : Located}

/-- All of a list of routes is in another one, but for blanks at its end. -/
structure Located.Within (l l' : Located) : Prop where
  before : l.before.Sublist l'.before
  list : (Text.trimRight l.list).Sublist l'.list
  after : l.after.Sublist l'.after

lemma trimRight_sublist (t : Text) : (Text.trimRight t).Sublist t := by
  obtain ⟨w, ht, -⟩ := Text.eq_trimRight_append t
  conv_rhs => rw [ht]
  exact List.sublist_append_left _ _

lemma Located.Within.refl (l : Located) : l.Within l :=
  ⟨.refl _, trimRight_sublist _, .refl _⟩

lemma Located.Within.trans {l'' : Located} (h : l.Within l') (h' : l'.Within l'') :
    l.Within l'' := by
  refine ⟨h.before.trans h'.before, ?_, h.after.trans h'.after⟩
  obtain ⟨-, -, -, hlast⟩ := Text.eq_trimRight_append l.list
  exact (Text.sublist_trimRight h.list hlast).trans h'.list

/-! ## One registration -/

/-- The text with the import of a module. -/
def addImport (content : Text) (n : Names) : Text :=
  if occurs (importStatement n) content then content else insertImport content (importStatement n)

lemma patch_content (n : Names) (content : Text) :
    (patch n content).content =
      if occurs (registration n) (addImport content n) then addImport content n
      else (insertRoute (addImport content n) (registration n)).getD (addImport content n) := by
  have himported : (if (!occurs (importStatement n) content) = true then
      insertImport content (importStatement n) else content) = addImport content n := by
    unfold addImport
    cases occurs (importStatement n) content <;> rfl
  unfold patch
  simp only [himported]
  split
  · rfl
  · cases insertRoute (addImport content n) (registration n) <;> rfl

/-- Adding the import adds its phrases, if it was missing. -/
lemma occurrences_addImport (h : n.IsModule) (hp : p ≠ []) (hnewline : '\n' ∉ p) (content : Text) :
    occurrences p (addImport content n) = occurrences p content +
      if occurs (importStatement n) content then 0 else occurrences p (importStatement n) := by
  unfold addImport
  split
  · rfl
  · obtain ⟨u, m, v, hcontent, hinsert, -, hkeeps⟩ := insertImport_spec h content
    rw [hinsert, (hkeeps p hp hnewline).count, ← hcontent]

/-- Adding the import does not make a list of routes appear. -/
lemma locate?_addImport_eq_none (h : n.IsModule) (hl : locate? content = none) :
    locate? (addImport content n) = none := by
  unfold addImport
  split
  · exact hl
  · obtain ⟨u, m, v, rfl, hinsert, hharmless, -⟩ := insertImport_spec h content
    rw [hinsert]
    exact (locate?_insert hharmless).1 hl

/-- Adding the import leaves the list of routes and what stands in it in order. -/
lemma locate?_addImport (h : n.IsModule) (hl : locate? content = some l) :
    ∃ l', locate? (addImport content n) = some l' ∧ l.Within l' ∧
      ∀ ps, (∀ p ∈ ps, Solid p) → InOrder ps l.list → InOrder ps l'.list := by
  unfold addImport
  split
  · exact ⟨l, hl, .refl l, fun _ _ h => h⟩
  · obtain ⟨u, m, v, rfl, hinsert, hharmless, hkeeps⟩ := insertImport_spec h content
    obtain ⟨l', hl', hwide⟩ := (locate?_insert hharmless).2 l hl
    obtain ⟨hbefore, hlist, hafter⟩ := hwide.sublist
    refine ⟨l', by rw [hinsert, hl'], ⟨hbefore, (trimRight_sublist _).trans hlist, hafter⟩, ?_⟩
    intro ps hps
    exact hwide.inOrder fun p hp => (hkeeps p (hps p hp).ne_nil (hps p hp).newline).border

/-- The import does not decide whether an entry is missing. -/
lemma occurs_registration_addImport (h : n.IsModule) (hm : m.IsModule) (content : Text) :
    occurs (registration m) (addImport content n) = occurs (registration m) content := by
  have hcount := occurrences_addImport (p := registration m) h (solid_registration hm).ne_nil
    (solid_registration hm).newline content
  rw [occurrences_registration_importStatement h, ite_self, Nat.add_zero] at hcount
  rw [Bool.eq_iff_iff, Text.occurs_iff_occurrences_pos, Text.occurs_iff_occurrences_pos, hcount]

/-- Without a list of routes only the import is added. -/
lemma patch_content_of_locate?_eq_none (h : n.IsModule) (hl : locate? content = none) :
    (patch n content).content = addImport content n := by
  have hinsert : insertRoute (addImport content n) (registration n) = none := by
    rw [insertRoute, locate?_addImport_eq_none h hl, Option.map_none]
  rw [patch_content, hinsert, Option.getD_none, ite_self]

/-- **One registration, counted**: both phrases of the module are there afterwards, and no other
phrase that an edit cannot complete has come or gone. -/
theorem occurrences_patch (h : n.IsModule) (hl : locate? content = some l) (hp : Solid p) :
    occurrences p (patch n content).content = occurrences p content +
      (if occurs (importStatement n) content then 0 else occurrences p (importStatement n)) +
      if occurs (registration n) content then 0 else occurrences p (registration n) := by
  rw [patch_content, occurs_registration_addImport h h]
  have himport := occurrences_addImport h hp.ne_nil hp.newline content
  obtain ⟨l₁, hl₁, -⟩ := locate?_addImport h hl
  obtain ⟨routed, l', hinsert, -, -, -, -, hcount, -⟩ := insertRoute_spec h hl₁
  split
  · rw [himport, Nat.add_zero]
  · rw [hinsert, Option.getD_some, hcount p hp, himport]

/-- **One registration and the list of routes**: it stays, and a missing entry becomes its last. -/
theorem locate?_patch (h : n.IsModule) (hl : locate? content = some l) :
    ∃ l', locate? (patch n content).content = some l' ∧ l.Within l' ∧
      ∀ ps, (∀ p ∈ ps, Solid p) → InOrder ps l.list →
        InOrder (ps ++ if occurs (registration n) content then [] else [registration n]) l'.list := by
  obtain ⟨l₁, hl₁, hwithin, horder⟩ := locate?_addImport h hl
  rw [patch_content, occurs_registration_addImport h h]
  by_cases hoccurs : occurs (registration n) content = true
  · rw [if_pos hoccurs]
    refine ⟨l₁, hl₁, hwithin, fun ps hps ho => ?_⟩
    rw [if_pos hoccurs, List.append_nil]
    exact horder ps hps ho
  · obtain ⟨routed, l', hinsert, hl', hbefore, hlist, hafter, -, happend⟩ := insertRoute_spec h hl₁
    rw [if_neg hoccurs, hinsert, Option.getD_some]
    refine ⟨l', hl', hwithin.trans ⟨hbefore, hlist, hafter⟩, fun ps hps ho => ?_⟩
    rw [if_neg hoccurs]
    exact happend ps hps (horder ps hps ho)

/-- A text that has both phrases of a module, or the import and no list of routes, is left alone. -/
lemma patch_of_occurs (himport : occurs (importStatement n) content = true)
    (hentry : occurs (registration n) content = true ∨ locate? content = none) :
    (patch n content).content = content ∧ (patch n content).importAdded = false ∧
      (patch n content).routeAdded = false := by
  unfold patch
  simp only [himport, Bool.not_true, Bool.false_eq_true, if_false]
  by_cases hoccurs : occurs (registration n) content = true
  · simp [hoccurs]
  · have hnone : insertRoute content (registration n) = none := by
      rw [insertRoute, hentry.resolve_left hoccurs, Option.map_none]
    simp [hoccurs, hnone]

/-- A registration adds characters of its phrases and of the layout only. -/
lemma not_mem_patch {c : Char} (hcontent : c ∉ content) (himport : c ∉ importStatement n)
    (hentry : c ∉ registration n) (hlayout : c ∉ ['\n', ' ', ',']) :
    c ∉ (patch n content).content := by
  simp only [List.mem_cons, List.not_mem_nil, or_false, not_or] at hlayout
  have hadd : c ∉ addImport content n := by
    unfold addImport
    split
    · exact hcontent
    · rcases insertImport_cases content (importStatement n) with heq | heq | ⟨u, v, rfl, heq⟩
      · rw [heq]
        simp [himport, hcontent, hlayout]
      · rw [heq]
        simp [himport, hcontent, hlayout]
      · rw [heq]
        simp only [List.mem_append, List.mem_cons, not_or] at hcontent
        simp [himport, hcontent]
  rw [patch_content]
  split
  · exact hadd
  · cases hl : locate? (addImport content n) with
    | none =>
      rw [insertRoute, hl]
      exact hadd
    | some l =>
      obtain ⟨code, comma, comment, result, hinsert, happend⟩ := insertRoute_appends (registration n) hl
      obtain ⟨tail, rest, s, hlist, hafter, heq, -⟩ := locate?_eq_some_iff.1 hl
      -- all that the edit takes over was there before it
      have hbefore : c ∉ l.before ∧ c ∉ l.list ∧ c ∉ l.after := by
        rw [hlist]
        rw [heq] at hadd
        simpa [not_or, and_assoc] using hadd
      have hcode : c ∉ code ++ comment := by
        rw [← happend.append_eq, List.mem_append, not_or]
        exact ⟨hbefore.1, fun hm => hbefore.2.1 ((trimRight_sublist _).subset hm)⟩
      rw [List.mem_append, not_or] at hcode
      rw [hinsert, Option.getD_some, happend.result_eq]
      rcases happend.comma_cases with rfl | rfl <;> simp [entryLine, hcode, hbefore, hentry, hlayout]

/-! ## Sequences -/

/-- The text after registering modules one after another. -/
def patchAll (content : Text) (names : List Names) : Text :=
  names.foldl (fun t n => (patch n t).content) content

/-- The entries that a sequence of registrations adds, in the order of their first registration. -/
def addedEntries (content : Text) (names : List Names) : List Text :=
  (names.map registration).eraseDups.filter fun entry => !occurs entry content

@[simp] lemma patchAll_nil (content : Text) : patchAll content [] = content := rfl

@[simp] lemma patchAll_concat (content : Text) (names : List Names) (n : Names) :
    patchAll content (names ++ [n]) = (patch n (patchAll content names)).content := by
  simp [patchAll]

/-- How often the phrase of a module occurs after a sequence of registrations. -/
def countAfter (phrase : Names → Text) (content : Text) (names : List Names) (m : Names) : Nat :=
  occurrences (phrase m) content +
    if occurs (phrase m) content = false ∧ phrase m ∈ names.map phrase then 1 else 0

/-- A count is carried along by a step that adds the phrase of a module where it is missing. -/
lemma countAfter_concat {phrase : Names → Text} {t t' : Text}
    (ht : occurrences (phrase m) t = countAfter phrase content names m)
    (hstep : occurrences (phrase m) t' = occurrences (phrase m) t +
      if occurs (phrase n) t = false ∧ phrase m = phrase n then 1 else 0) :
    occurrences (phrase m) t' = countAfter phrase content (names ++ [n]) m := by
  have hmem : phrase m ∈ (names ++ [n]).map phrase ↔ phrase m ∈ names.map phrase ∨ phrase m = phrase n := by
    simp only [List.map_append, List.mem_append, List.map_singleton, List.mem_singleton]
  have hpos := Text.not_occurs_iff_occurrences_eq_zero (phrase m) t
  have hpos' := Text.not_occurs_iff_occurrences_eq_zero (phrase m) content
  rw [hstep, countAfter]
  simp only [hmem]
  rw [ht, countAfter] at hpos ⊢
  by_cases heq : phrase m = phrase n
  · rw [← heq]
    simp only [or_true, and_true]
    by_cases hcontent : occurs (phrase m) content = false
    · by_cases hnames : phrase m ∈ names.map phrase
      · simp only [hcontent, hnames] at hpos ⊢
        simp [hpos]
      · simp only [hcontent, hnames] at hpos ⊢
        simp [hpos, hpos'.1 hcontent]
    · have ht' : ¬ occurs (phrase m) t = false := fun h => hcontent (hpos'.2 (by
        have hzero := hpos.1 h
        omega))
      simp [hcontent, ht']
  · simp [heq]

lemma occurs_of_countAfter {phrase : Names → Text} {t : Text} (hm : m ∈ names)
    (ht : occurrences (phrase m) t = countAfter phrase content names m) :
    occurs (phrase m) t = true := by
  rw [Text.occurs_iff_occurrences_pos, ht, countAfter]
  by_cases hcontent : occurs (phrase m) content = false
  · rw [if_pos ⟨hcontent, List.mem_map_of_mem hm⟩]
    omega
  · have hpos := (Text.occurs_iff_occurrences_pos _ _).1 (by simpa using hcontent)
    omega

/-- A phrase that was missing occurs once. -/
lemma countAfter_eq_one {phrase : Names → Text} (hm : m ∈ names)
    (hcontent : occurrences (phrase m) content = 0) : countAfter phrase content names m = 1 := by
  have hoccurs := (Text.not_occurs_iff_occurrences_eq_zero _ _).2 hcontent
  rw [countAfter, hcontent, if_pos ⟨hoccurs, List.mem_map_of_mem hm⟩]

lemma ite_occurs_eq {a b : Text} (t : Text) (hab : occurrences a b = if a = b then 1 else 0) :
    (if occurs b t then 0 else occurrences a b) =
      if occurs b t = false ∧ a = b then 1 else 0 := by
  rw [hab]
  cases occurs b t <;> simp

lemma occurs_iff_of_countAfter {phrase : Names → Text} {t : Text}
    (ht : occurrences (phrase m) t = countAfter phrase content names m) :
    occurs (phrase m) t = true ↔ occurs (phrase m) content = true ∨ phrase m ∈ names.map phrase := by
  rw [Text.occurs_iff_occurrences_pos, ht, countAfter]
  by_cases hcontent : occurs (phrase m) content = true
  · have hpos := (Text.occurs_iff_occurrences_pos _ _).1 hcontent
    exact ⟨fun _ => .inl hcontent, fun _ => by omega⟩
  · have hzero := (Text.not_occurs_iff_occurrences_eq_zero _ _).1 (Bool.eq_false_iff.2 hcontent)
    by_cases hmem : phrase m ∈ names.map phrase
    · simp [hcontent, hmem]
    · simp only [hcontent, hmem, hzero]
      simp

lemma addedEntries_concat (content : Text) (names : List Names) (n : Names) :
    addedEntries content (names ++ [n]) = addedEntries content names ++
      if occurs (registration n) content = true ∨ registration n ∈ names.map registration then []
      else [registration n] := by
  unfold addedEntries
  rw [List.map_append, List.map_singleton, List.eraseDups_append, List.filter_append]
  congr 1
  have hremove : [registration n].removeAll (names.map registration) =
      if registration n ∈ names.map registration then [] else [registration n] := by
    rw [List.removeAll, List.filter_singleton, List.elem_eq_mem]
    by_cases hmem : registration n ∈ names.map registration
    · rw [if_pos hmem, decide_eq_true hmem]
      rfl
    · rw [if_neg hmem, decide_eq_false hmem]
      rfl
  rw [hremove]
  -- an entry is added by the first call for it, if it was missing
  by_cases hmem : registration n ∈ names.map registration
  · rw [if_pos hmem, if_pos (.inr hmem)]
    rfl
  · have hone : [registration n].eraseDups = [registration n] := by
      rw [List.eraseDups_cons, List.filter_nil, List.eraseDups_nil]
    rw [if_neg hmem, hone, List.filter_singleton]
    by_cases hoccurs : occurs (registration n) content = true
    · rw [if_pos (.inl hoccurs), hoccurs]
      rfl
    · rw [if_neg (not_or.2 ⟨hoccurs, hmem⟩), Bool.eq_false_iff.2 hoccurs]
      rfl

/-- The text after a sequence of registrations: the list of routes is where it was, with the added
entries in order, and each phrase of a module is there as often as it should be. -/
structure Registered (content : Text) (l : Located) (names : List Names) (t : Text) : Prop where
  located : ∃ l', locate? t = some l' ∧ l.Within l' ∧ InOrder (addedEntries content names) l'.list
  statement : ∀ m : Names, m.IsModule →
    occurrences (importStatement m) t = countAfter importStatement content names m
  entry : ∀ m : Names, m.IsModule →
    occurrences (registration m) t = countAfter registration content names m

lemma solid_of_mem_addedEntries (hnames : ∀ n ∈ names, n.IsModule)
    (hp : p ∈ addedEntries content names) : Solid p := by
  unfold addedEntries at hp
  rw [List.mem_filter, List.mem_eraseDups] at hp
  obtain ⟨n, hn, rfl⟩ := List.mem_map.1 hp.1
  exact solid_registration (hnames n hn)

/-- One more registration. -/
lemma Registered.step {t : Text} (ht : Registered content l names t)
    (hnames : ∀ n ∈ names, n.IsModule) (h : n.IsModule) :
    Registered content l (names ++ [n]) (patch n t).content := by
  obtain ⟨l₁, hl₁, hwithin, horder⟩ := ht.located
  obtain ⟨l', hl', hwithin', horder'⟩ := locate?_patch h hl₁
  refine ⟨⟨l', hl', hwithin.trans hwithin', ?_⟩, fun m hm => ?_, fun m hm => ?_⟩
  · have hlist := horder' _ (fun p hp => solid_of_mem_addedEntries hnames hp) horder
    rw [addedEntries_concat]
    simpa only [occurs_iff_of_countAfter (ht.entry n h)] using hlist
  · refine countAfter_concat (ht.statement m hm) ?_
    rw [occurrences_patch h hl₁ (solid_importStatement hm),
      occurrences_importStatement_registration h, ite_self, Nat.add_zero,
      ite_occurs_eq t (occurrences_importStatement hm h)]
  · refine countAfter_concat (ht.entry m hm) ?_
    rw [occurrences_patch h hl₁ (solid_registration hm),
      occurrences_registration_importStatement h, ite_self, Nat.add_zero,
      ite_occurs_eq t (occurrences_registration hm h)]

/-- **Any sequence of registrations** in a text with a list of routes. -/
theorem registered_patchAll (hl : locate? content = some l) (hnames : ∀ n ∈ names, n.IsModule) :
    Registered content l names (patchAll content names) := by
  induction names using List.reverseRecOn with
  | nil =>
    refine ⟨⟨l, hl, .refl l, .nil _⟩, fun m _ => ?_, fun m _ => ?_⟩ <;> simp [countAfter]
  | append_singleton names n ih =>
    have hnames' : ∀ n' ∈ names, n'.IsModule := fun n' hn' => hnames n' (List.mem_append_left _ hn')
    rw [patchAll_concat]
    exact (ih hnames').step hnames' (hnames n (by simp))

/-- The text after adding imports only. -/
def addImports (content : Text) (names : List Names) : Text := names.foldl addImport content

/-- **Any sequence of registrations** in a text without a list of routes: none appears, and only
imports are added, each one where it was missing. -/
theorem patchAll_of_locate?_eq_none (hl : locate? content = none)
    (hnames : ∀ n ∈ names, n.IsModule) :
    patchAll content names = addImports content names ∧ locate? (patchAll content names) = none ∧
      ∀ m : Names, m.IsModule → occurrences (importStatement m) (patchAll content names) =
        countAfter importStatement content names m := by
  induction names using List.reverseRecOn with
  | nil =>
    refine ⟨rfl, hl, fun m _ => ?_⟩
    simp [countAfter]
  | append_singleton names n ih =>
    have hnames' : ∀ n' ∈ names, n'.IsModule := fun n' hn' => hnames n' (List.mem_append_left _ hn')
    have h : n.IsModule := hnames n (by simp)
    obtain ⟨heq, hnone, hcount⟩ := ih hnames'
    rw [patchAll_concat, patch_content_of_locate?_eq_none h hnone]
    refine ⟨by rw [heq, addImports, addImports, List.foldl_append]; rfl,
      locate?_addImport_eq_none h hnone, fun m hm => countAfter_concat (hcount m hm) ?_⟩
    rw [occurrences_addImport h (solid_importStatement hm).ne_nil (solid_importStatement hm).newline,
      ite_occurs_eq _ (occurrences_importStatement hm h)]

end Scaffold.Router
