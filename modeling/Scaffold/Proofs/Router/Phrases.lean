import Scaffold.Proofs.Names
import Scaffold.Proofs.Text.Occurrences
import Scaffold.Router.Edit

/-!
# The phrases of a module

What is inserted for a module are two phrases, its import and its entry in the list of routes.  The
edits are guarded by the question whether a phrase occurs, so two things decide what a sequence of
edits does.  The phrases of two modules contain each other only if they are the same
(`occurrences_importStatement`, `occurrences_registration`): both have a single opening brace, which
aligns them, and the name behind it ends where a character stands that no name has.  And a phrase is
`Solid`: no edit begins or ends in a way that could complete one.
-/

namespace Scaffold

/-- Names of a module whose folder is an identifier. -/
def Names.IsModule (n : Names) : Prop :=
  (∃ raw, Names.ofRaw? raw = some n) ∧ Text.isExactIdentifier n.folder = true

namespace Names.IsModule

variable {n m : Names} {c : Char}

lemma not_mem_className (h : n.IsModule) (hc : Text.isIdentifierRest c = false)
    (ha : c.toNat < 128) : c ∉ n.className := by
  obtain ⟨⟨raw, hraw⟩, hfolder⟩ := h
  intro hmem
  rw [isIdentifierRest_of_mem_className hraw hfolder hmem ha] at hc
  cases hc

lemma not_mem_folder (h : n.IsModule) (hc : Text.isIdentifierRest c = false) : c ∉ n.folder := by
  intro hmem
  rw [Text.isIdentifierRest_of_mem h.2 hmem] at hc
  cases hc

lemma folder_ne_nil (h : n.IsModule) : n.folder ≠ [] :=
  Text.ne_nil_of_isExactIdentifier h.2

/-- Modules with one class name have one folder. -/
lemma folder_eq (h : n.IsModule) (h' : m.IsModule) (hclass : n.className = m.className) :
    n.folder = m.folder := by
  obtain ⟨⟨raw, hraw⟩, -⟩ := h
  obtain ⟨⟨raw', hraw'⟩, -⟩ := h'
  rw [folder_eq_lower hraw, folder_eq_lower hraw', hclass]

end Names.IsModule

namespace Text

variable {u v : Text} {a b c : Char}

/-- Two characters side by side in a text stand in one of its parts or at the border. -/
lemma not_infix_pair_append (hu : ¬ [a, b] <:+: u) (hv : ¬ [a, b] <:+: v)
    (hborder : u.getLast? ≠ some a ∨ v.head? ≠ some b) : ¬ [a, b] <:+: u ++ v := by
  rintro ⟨s, t, h⟩
  rw [List.append_assoc] at h
  rcases List.append_eq_append_iff.1 h with ⟨x, rfl, hx⟩ | ⟨x, rfl, hx⟩
  · cases x with
    | nil => exact hv ⟨[], t, by simpa using hx⟩
    | cons d x =>
      simp only [List.cons_append, List.nil_append, List.cons.injEq] at hx
      obtain ⟨rfl, hx⟩ := hx
      cases x with
      | nil =>
        rw [List.nil_append] at hx
        simp [← hx] at hborder
      | cons e x =>
        simp only [List.cons_append, List.cons.injEq] at hx
        obtain ⟨rfl, -⟩ := hx
        exact hu ⟨s, x, by simp⟩
  · exact hv ⟨x, t, by simp [hx]⟩

lemma head?_append_ne (hu : u ≠ []) (ha : a ∉ u) : (u ++ v).head? ≠ some a := by
  cases u with
  | nil => exact absurd rfl hu
  | cons d u =>
    rw [List.cons_append, List.head?_cons, ne_eq, Option.some.injEq]
    rintro rfl
    simp at ha

lemma getLast?_ne (ha : a ∉ u) : u.getLast? ≠ some a :=
  fun h => ha (List.mem_of_getLast? h)

lemma not_infix_of_not_occurs {p t : Text} (h : occurs p t = false) : ¬ p <:+: t := by
  rw [← occurs_iff_isInfix, h]
  exact Bool.false_ne_true

lemma not_infix_pair_of_not_mem (h : a ∉ u) : ¬ [a, b] <:+: u :=
  fun hi => h (hi.subset (by simp))

lemma not_infix_pair_of_not_mem_right (h : b ∉ u) : ¬ [a, b] <:+: u :=
  fun hi => h (hi.subset (by simp))

/-- What stands behind a character that occurs once. -/
lemma eq_of_cons_suffix {w y : Text} (hu : c ∉ u) (hw : c ∉ w) (h : c :: y <:+ u ++ c :: w) :
    y = w := by
  obtain ⟨s, hs⟩ := h
  exact (((List.append_cons_inj_of_notMem hu hw).1 hs.symm).2.2).symm

/-- A nonempty phrase occurs once in itself. -/
lemma occurrences_self {p : Text} (hp : p ≠ []) : occurrences p p = 1 := by
  cases p with
  | nil => exact absurd rfl hp
  | cons c p =>
    have hrest : occurrences (c :: p) p = 0 := by
      rw [← not_occurs_iff_occurrences_eq_zero, Bool.eq_false_iff]
      intro h
      have hlength := ((occurs_iff_isInfix _ _).1 h).length_le
      simp only [List.length_cons] at hlength
      omega
    have hself : List.isPrefixOf (c :: p) (c :: p) = true :=
      List.isPrefixOf_iff_prefix.2 (List.prefix_refl _)
    rw [occurrences, hrest, if_pos hself]

/-- A phrase with a character that a text lacks does not occur in it. -/
lemma not_occurs_of_mem {p t : Text} (hp : c ∈ p) (ht : c ∉ t) : occurs p t = false := by
  rw [Bool.eq_false_iff]
  intro h
  exact ht (((occurs_iff_isInfix _ _).1 h).subset hp)

/-- A phrase in another one begins where the other one begins, if a character that it has stands
nowhere else in that one. -/
lemma prefix_of_isInfix {pre p q : Text} (hpre : c ∉ pre) (hq : c ∉ q)
    (h : pre ++ c :: p <:+: pre ++ c :: q) : p <+: q := by
  obtain ⟨s, t, hst⟩ := h
  have heq : pre ++ c :: q = (s ++ pre) ++ c :: (p ++ t) := by simp [← hst]
  obtain ⟨-, -, htail⟩ := (List.append_cons_inj_of_notMem hpre hq).1 heq
  exact ⟨t, htail.symm⟩

lemma prefix_of_cons_isInfix {p q : Text} (hq : c ∉ q) (h : c :: p <:+: c :: q) : p <+: q :=
  prefix_of_isInfix (List.not_mem_nil (a := c)) hq h

/-- Names that are followed by a character that neither has are equal if one phrase begins with
the other. -/
lemma eq_of_prefix {x y p q : Text} (hx : c ∉ x) (hy : c ∉ y) (h : x ++ c :: p <+: y ++ c :: q) :
    x = y ∧ p <+: q := by
  obtain ⟨t, ht⟩ := h
  rw [List.append_assoc, List.cons_append] at ht
  induction x generalizing y with
  | nil =>
    cases y with
    | nil =>
      simp only [List.nil_append, List.cons.injEq, true_and] at ht
      exact ⟨rfl, t, ht⟩
    | cons d y =>
      simp only [List.nil_append, List.cons_append, List.cons.injEq] at ht
      simp [ht.1] at hy
  | cons d x ih =>
    cases y with
    | nil =>
      simp only [List.nil_append, List.cons_append, List.cons.injEq] at ht
      simp [ht.1] at hx
    | cons e y =>
      simp only [List.cons_append, List.cons.injEq] at ht
      obtain ⟨rfl, ht⟩ := ht
      obtain ⟨rfl, hp⟩ := ih (fun hm => hx (List.mem_cons_of_mem _ hm))
        (fun hm => hy (List.mem_cons_of_mem _ hm)) ht
      exact ⟨rfl, hp⟩

end Text

namespace Router

open Text (isBlank occurs occurrences)

variable {n m : Names}

/-! ## Import and entry, taken apart -/

lemma importStatement_eq (n : Names) :
    importStatement n = "import ".toList ++ '{' :: ' ' :: (n.className ++ "Routes".toList) ++
      ' ' :: ("\x7d from ".toList ++ '\'' :: ("../app/modules/".toList ++ n.folder ++ '/' :: n.folder ++
        ".route".toList) ++ ['\'']) := by
  have hfrom : " from '../app/modules/".toList =
      ' ' :: ("from ".toList ++ '\'' :: "../app/modules/".toList) := rfl
  have hto : "\x7d from ".toList = '}' :: ' ' :: "from ".toList := rfl
  have hroute : ".route'".toList = ".route".toList ++ ['\''] := rfl
  have hslash : "/".toList = ['/'] := rfl
  unfold importStatement Text.braced Names.routesSymbol
  rw [hfrom, hto, hroute, hslash]
  simp only [List.append_assoc, List.cons_append, List.nil_append]

lemma registration_eq (n : Names) :
    registration n = '{' :: (" path: ".toList ++ '\'' :: ('/' :: n.folder) ++
      '\'' :: ',' :: (" route: ".toList ++ (n.className ++ "Routes".toList) ++ " \x7d".toList)) := by
  have hpath : "path: '/".toList = "path: ".toList ++ ['\'', '/'] := rfl
  have hpath' : " path: ".toList = ' ' :: "path: ".toList := rfl
  have hroute : "', route: ".toList = '\'' :: ',' :: " route: ".toList := rfl
  have hend : " \x7d".toList = [' ', '}'] := rfl
  unfold registration Text.braced Names.routesSymbol
  rw [hpath, hpath', hroute, hend]
  simp only [List.append_assoc, List.cons_append, List.nil_append]

/-- The characters of an import. -/
lemma mem_importStatement {c : Char} (h : c ∈ importStatement n) :
    c ∈ n.className ∨ c ∈ n.folder ∨ c ∈ "import \x7b Routes \x7d from '../app/modules/.route'".toList := by
  have hlit : ∀ t : Text, t ⊆ "import \x7b Routes \x7d from '../app/modules/.route'".toList → c ∈ t →
      c ∈ n.className ∨ c ∈ n.folder ∨ c ∈ "import \x7b Routes \x7d from '../app/modules/.route'".toList :=
    fun t ht hc => .inr (.inr (ht hc))
  unfold importStatement Text.braced Names.routesSymbol at h
  simp only [List.mem_append, List.mem_cons, List.cons_append] at h
  rcases h with (((((h | rfl | rfl | (h | h) | rfl | rfl | h) | h) | h) | h) | h) | h
  · exact hlit _ (by decide) h
  · exact .inr (.inr (by decide))
  · exact .inr (.inr (by decide))
  · exact .inl h
  · exact hlit _ (by decide) h
  · exact .inr (.inr (by decide))
  · exact .inr (.inr (by decide))
  · simp at h
  · exact hlit _ (by decide) h
  · exact .inr (.inl h)
  · exact hlit _ (by decide) h
  · exact .inr (.inl h)
  · exact hlit _ (by decide) h

/-- The characters of an entry. -/
lemma mem_registration {c : Char} (h : c ∈ registration n) :
    c ∈ n.className ∨ c ∈ n.folder ∨ c ∈ "\x7b path: '/', route: Routes \x7d".toList := by
  have hlit : ∀ t : Text, t ⊆ "\x7b path: '/', route: Routes \x7d".toList → c ∈ t →
      c ∈ n.className ∨ c ∈ n.folder ∨ c ∈ "\x7b path: '/', route: Routes \x7d".toList :=
    fun t ht hc => .inr (.inr (ht hc))
  unfold registration Text.braced Names.routesSymbol at h
  simp only [List.mem_append, List.mem_cons, List.cons_append] at h
  rcases h with rfl | rfl | (((h | h) | h) | (h | h)) | rfl | rfl | h
  · exact .inr (.inr (by decide))
  · exact .inr (.inr (by decide))
  · exact hlit _ (by decide) h
  · exact .inr (.inl h)
  · exact hlit _ (by decide) h
  · exact .inl h
  · exact hlit _ (by decide) h
  · exact .inr (.inr (by decide))
  · exact .inr (.inr (by decide))
  · simp at h

/-- No other punctuation than its own stands in an import. -/
lemma not_mem_importStatement (h : n.IsModule) {c : Char}
    (hc : Text.isIdentifierRest c = false) (ha : c.toNat < 128)
    (hlit : c ∉ "import \x7b Routes \x7d from '../app/modules/.route'".toList) : c ∉ importStatement n := by
  intro hmem
  rcases mem_importStatement hmem with hm | hm | hm
  · exact h.not_mem_className hc ha hm
  · exact h.not_mem_folder hc hm
  · exact hlit hm

/-- No other punctuation than its own stands in an entry. -/
lemma not_mem_registration (h : n.IsModule) {c : Char}
    (hc : Text.isIdentifierRest c = false) (ha : c.toNat < 128)
    (hlit : c ∉ "\x7b path: '/', route: Routes \x7d".toList) : c ∉ registration n := by
  intro hmem
  rcases mem_registration hmem with hm | hm | hm
  · exact h.not_mem_className hc ha hm
  · exact h.not_mem_folder hc hm
  · exact hlit hm

/-! ## One phrase in another -/

lemma not_mem_className_append (h : n.IsModule) {c : Char} (hc : Text.isIdentifierRest c = false)
    (ha : c.toNat < 128) : c ∉ n.className ++ "Routes".toList := by
  rw [List.mem_append, not_or]
  refine ⟨h.not_mem_className hc ha, fun hm => ?_⟩
  have hroutes : ∀ d ∈ "Routes".toList, Text.isIdentifierRest d = true :=
    Text.forall_mem_of_all (by decide)
  rw [hroutes c hm] at hc
  cases hc

/-- An import in an import is the same one. -/
lemma importStatement_eq_of_isInfix (hn : n.IsModule) (hm : m.IsModule)
    (h : importStatement n <:+: importStatement m) : importStatement n = importStatement m := by
  have hclass : '{' ∉ m.className := hm.not_mem_className rfl (by decide)
  have hfolder : '{' ∉ m.folder := hm.not_mem_folder rfl
  rw [importStatement_eq, importStatement_eq] at h
  simp only [List.append_assoc, List.cons_append] at h
  have hinner := Text.prefix_of_isInfix (by decide) (by
    simp only [List.mem_append, List.mem_cons, hclass, hfolder]
    decide) h
  have hname := (List.cons_prefix_cons.1 hinner).2
  rw [← List.append_assoc, ← List.append_assoc m.className] at hname
  obtain ⟨hsymbol, -⟩ := Text.eq_of_prefix (c := ' ')
    (not_mem_className_append hn rfl (by decide)) (not_mem_className_append hm rfl (by decide)) hname
  have heq : n.className = m.className := List.append_cancel_right hsymbol
  unfold importStatement Names.routesSymbol
  rw [heq, hn.folder_eq hm heq]

/-- An entry in an entry is the same one. -/
lemma registration_eq_of_isInfix (hn : n.IsModule) (hm : m.IsModule)
    (h : registration n <:+: registration m) : registration n = registration m := by
  have hclass : '{' ∉ m.className := hm.not_mem_className rfl (by decide)
  have hfolder : '{' ∉ m.folder := hm.not_mem_folder rfl
  have hquote : '\'' ∉ n.folder ∧ '\'' ∉ m.folder := ⟨hn.not_mem_folder rfl, hm.not_mem_folder rfl⟩
  rw [registration_eq, registration_eq] at h
  have hinner := Text.prefix_of_cons_isInfix (by
    simp only [List.mem_append, List.mem_cons, hclass, hfolder]
    decide) h
  simp only [List.append_assoc, List.cons_append] at hinner
  rw [List.prefix_append_right_inj, List.cons_prefix_cons, List.cons_prefix_cons] at hinner
  obtain ⟨hfolderEq, hrest⟩ := Text.eq_of_prefix hquote.1 hquote.2 hinner.2.2
  rw [List.cons_prefix_cons, List.prefix_append_right_inj, ← List.append_assoc,
    ← List.append_assoc] at hrest
  have hend : " \x7d".toList = ' ' :: ['}'] := rfl
  rw [hend] at hrest
  obtain ⟨hsymbol, -⟩ := Text.eq_of_prefix
    (not_mem_className_append hn rfl (by decide)) (not_mem_className_append hm rfl (by decide)) hrest.2
  have heq : n.className = m.className := List.append_cancel_right hsymbol
  unfold registration Names.routesSymbol
  rw [heq, hfolderEq]

/-- **Imports do not overlap**: one occurs in another one once if they are the same, else not. -/
theorem occurrences_importStatement (hn : n.IsModule) (hm : m.IsModule) :
    occurrences (importStatement n) (importStatement m) =
      if importStatement n = importStatement m then 1 else 0 := by
  by_cases heq : importStatement n = importStatement m
  · rw [if_pos heq, heq]
    refine Text.occurrences_self ?_
    rw [importStatement_eq]
    simp
  · rw [if_neg heq, ← Text.not_occurs_iff_occurrences_eq_zero, Bool.eq_false_iff]
    exact fun h => heq (importStatement_eq_of_isInfix hn hm ((Text.occurs_iff_isInfix _ _).1 h))

/-- **Entries do not overlap** either. -/
theorem occurrences_registration (hn : n.IsModule) (hm : m.IsModule) :
    occurrences (registration n) (registration m) =
      if registration n = registration m then 1 else 0 := by
  by_cases heq : registration n = registration m
  · rw [if_pos heq, heq]
    refine Text.occurrences_self ?_
    rw [registration_eq]
    simp
  · rw [if_neg heq, ← Text.not_occurs_iff_occurrences_eq_zero, Bool.eq_false_iff]
    exact fun h => heq (registration_eq_of_isInfix hn hm ((Text.occurs_iff_isInfix _ _).1 h))

/-- An entry has a colon and an import has none. -/
lemma occurrences_registration_importStatement (hm : m.IsModule) :
    occurrences (registration n) (importStatement m) = 0 := by
  rw [← Text.not_occurs_iff_occurrences_eq_zero]
  refine Text.not_occurs_of_mem (c := ':') ?_ (not_mem_importStatement hm rfl (by decide) (by decide))
  have hcolon : ':' ∈ " path: ".toList := by decide
  rw [registration_eq]
  simp only [List.mem_append, List.mem_cons, hcolon, true_or, or_true]

/-- An import has dots and an entry has none. -/
lemma occurrences_importStatement_registration (hm : m.IsModule) :
    occurrences (importStatement n) (registration m) = 0 := by
  rw [← Text.not_occurs_iff_occurrences_eq_zero]
  refine Text.not_occurs_of_mem (c := '.') ?_ (not_mem_registration hm rfl (by decide) (by decide))
  have hdot : '.' ∈ "../app/modules/".toList := by decide
  rw [importStatement_eq]
  simp only [List.mem_append, List.mem_cons, hdot, true_or, or_true]

/-! ## Phrases that no edit completes -/

/-- A phrase that an edit neither splits nor completes: it stands on one line, begins and ends with
characters at which no edit is made, holds no comment, and its commas do not look like commas that
an edit adds. -/
structure Solid (p : Text) : Prop where
  newline : '\n' ∉ p
  bracket : ']' ∉ p
  first : ∃ c t, p = c :: t ∧ Text.isBlank c = false ∧ c ≠ ','
  last : ∃ t c, p = t ++ [c] ∧ Text.isBlank c = false ∧ c ≠ '/' ∧ c ≠ ','
  slashes : ¬ ['/', '/'] <:+: p
  comma : ∀ t, ',' :: t <:+ p → ∃ c u, t = ' ' :: c :: u ∧ Text.isBlank c = false ∧ c ≠ '/'

lemma solid_importStatement (h : n.IsModule) : Solid (importStatement n) where
  newline := not_mem_importStatement h rfl (by decide) (by decide)
  bracket := not_mem_importStatement h rfl (by decide) (by decide)
  first := by
    have himport : "import ".toList = 'i' :: "mport ".toList := rfl
    rw [importStatement_eq, himport]
    exact ⟨'i', _, rfl, by decide, by decide⟩
  last := by
    rw [importStatement_eq]
    simp only [← List.append_assoc, ← List.cons_append]
    exact ⟨_, '\'', rfl, by decide, by decide, by decide⟩
  slashes := by
    have hslash : '/' ∉ n.folder := h.not_mem_folder rfl
    have hclass : '/' ∉ n.className := h.not_mem_className rfl (by decide)
    have hone : "/".toList = ['/'] := rfl
    unfold importStatement Text.braced Names.routesSymbol
    simp only [List.append_assoc, List.cons_append, List.nil_append, hone]
    -- every slash is followed by the beginning of a name
    have htail : ¬ ['/', '/'] <:+: n.folder ++ ".route'".toList :=
      Text.not_infix_pair_of_not_mem (by simp only [List.mem_append, hslash]; decide)
    have hsecond : ¬ ['/', '/'] <:+: ['/'] ++ (n.folder ++ ".route'".toList) :=
      Text.not_infix_pair_append (Text.not_infix_of_not_occurs (by decide)) htail (.inr (Text.head?_append_ne h.folder_ne_nil hslash))
    have hfirst : ¬ ['/', '/'] <:+: n.folder ++ (['/'] ++ (n.folder ++ ".route'".toList)) :=
      Text.not_infix_pair_append (Text.not_infix_pair_of_not_mem hslash) hsecond
        (.inl (Text.getLast?_ne hslash))
    have hpath := Text.not_infix_pair_append (u := " from '../app/modules/".toList)
      (Text.not_infix_of_not_occurs (by decide)) hfirst
      (.inr (Text.head?_append_ne h.folder_ne_nil hslash))
    have hsymbol : '/' ∉ "import ".toList ++ '{' :: ' ' :: (n.className ++ ("Routes".toList ++
        [' ', '}'])) := by
      simp only [List.mem_append, List.mem_cons, hclass]
      decide
    have hall := Text.not_infix_pair_append (Text.not_infix_pair_of_not_mem hsymbol) hpath
      (.inl (Text.getLast?_ne hsymbol))
    simpa only [List.append_assoc, List.cons_append, List.nil_append] using hall
  comma := fun t ht => absurd (ht.subset (List.mem_cons_self ..))
    (not_mem_importStatement h rfl (by decide) (by decide))

lemma solid_registration (h : n.IsModule) : Solid (registration n) where
  newline := not_mem_registration h rfl (by decide) (by decide)
  bracket := not_mem_registration h rfl (by decide) (by decide)
  first := by
    rw [registration_eq]
    exact ⟨'{', _, rfl, by decide, by decide⟩
  last := by
    have hend : " \x7d".toList = [' '] ++ ['}'] := rfl
    rw [registration_eq, hend]
    simp only [← List.append_assoc, ← List.cons_append]
    exact ⟨_, '}', rfl, by decide, by decide, by decide⟩
  slashes := by
    have hslash : '/' ∉ n.folder := h.not_mem_folder rfl
    have hclass : '/' ∉ n.className := h.not_mem_className rfl (by decide)
    have hrest : '/' ∉ n.folder ++ '\'' :: ',' :: (" route: ".toList ++
        (n.className ++ "Routes".toList) ++ " \x7d".toList) := by
      simp only [List.mem_append, List.mem_cons, hslash, hclass]
      decide
    -- two slashes could only meet before the folder, whose name has none
    have hall := Text.not_infix_pair_append (u := "\x7b path: '/".toList)
      (Text.not_infix_of_not_occurs (by decide))
      (Text.not_infix_pair_of_not_mem (b := '/') hrest)
      (.inr (Text.head?_append_ne h.folder_ne_nil hslash))
    have hpath : "\x7b path: '/".toList = '{' :: (" path: ".toList ++ ['\'', '/']) := rfl
    rw [registration_eq]
    rw [hpath] at hall
    simpa only [List.append_assoc, List.cons_append, List.nil_append] using hall
  comma := by
    intro t ht
    have hfolder : ',' ∉ n.folder := h.not_mem_folder rfl
    have hclass : ',' ∉ n.className := h.not_mem_className rfl (by decide)
    have hroute : " route: ".toList = ' ' :: 'r' :: "oute: ".toList := rfl
    have heq : registration n = ('{' :: (" path: ".toList ++ '\'' :: ('/' :: n.folder) ++ ['\''])) ++
        ',' :: (" route: ".toList ++ (n.className ++ "Routes".toList) ++ " \x7d".toList) := by
      rw [registration_eq]
      simp only [List.append_assoc, List.cons_append, List.nil_append]
    rw [heq] at ht
    have hbefore : ',' ∉ '{' :: (" path: ".toList ++ '\'' :: ('/' :: n.folder) ++ ['\'']) := by
      simp only [List.mem_append, List.mem_cons, hfolder]
      decide
    have hafter : ',' ∉ " route: ".toList ++ (n.className ++ "Routes".toList) ++ " \x7d".toList := by
      simp only [List.mem_append, hclass]
      decide
    have hsuffix := Text.eq_of_cons_suffix hbefore hafter ht
    -- behind the one comma stands the route
    rw [hsuffix, hroute]
    exact ⟨'r', _, rfl, by decide, by decide⟩

end Router

end Scaffold
