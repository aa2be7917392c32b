import Mathlib.Algebra.Ring.Int.Defs
import Mathlib.Data.List.TakeWhile
import Mathlib.Tactic.Common
import Scaffold.Artifact.Code
import Scaffold.Proofs.Names
import Scaffold.Proofs.Recovery.Search
import Scaffold.Recovery.Properties
import Scaffold.Types.TypeScript

/-!
# Reading properties that were printed

A body is cut at semicolons outside of brackets.  A text that is cut nowhere and that closes the
brackets that it opens leaves the depth at zero, so what stands behind it is read as if it were not
there (`members_append`), and a line comes out as it went in (`members_flatMap_lines`).  Of the
lines that are properties, those are read whose names are words (`property?_append`,
`property?_of_not_word`).
-/

namespace Scaffold.Recovery

variable {l t w : Text} {c : Char} {depth : Int} {ps : List Text} {p : Text}

/-! ## Pieces -/

/-- How a text changes the depth of brackets. -/
def net (t : Text) : Int := (t.map bracketStep).sum

@[simp] lemma net_append (t w : Text) : net (t ++ w) = net t + net w := by simp [net]

@[simp] lemma net_nil : net [] = 0 := rfl

@[simp] lemma net_cons (c : Char) (t : Text) : net (c :: t) = bracketStep c + net t := by simp [net]

lemma bracketStep_of_isNameChar (h : Text.isNameChar c = true) : bracketStep c = 0 := by
  have hne : ∀ d, Text.isNameChar d = false → c ≠ d := by
    rintro d hd rfl
    rw [h] at hd
    cases hd
  simp [bracketStep, hne '{' rfl, hne '<' rfl, hne '(' rfl, hne '}' rfl, hne '>' rfl, hne ')' rfl]

lemma net_of_isNameChar (h : ∀ c ∈ t, Text.isNameChar c = true) : net t = 0 := by
  induction t with
  | nil => rfl
  | cons c t ih =>
    rw [net_cons, bracketStep_of_isNameChar (h c (by simp)), ih fun d hd => h d (by simp [hd])]
    rfl

/-! ## Cuts -/

/-- Nothing in a text is a cut when the text begins at a depth. -/
def Uncut (depth : Int) (t : Text) : Prop :=
  ∀ u c v, t = u ++ c :: v → c = ';' ∨ c = '\n' → depth + net u ≠ 0

lemma Uncut.tail (h : Uncut depth (c :: t)) : Uncut (depth + bracketStep c) t := by
  intro u d v ht hd
  have := h (c :: u) d v (by rw [ht, List.cons_append]) hd
  rwa [net_cons, ← Int.add_assoc] at this

lemma Uncut.head (h : Uncut depth (c :: t)) : ¬ (depth + bracketStep c = 0 ∧ (c = ';' ∨ c = '\n')) := by
  rintro ⟨hdepth, hc⟩
  have hstep : bracketStep c = 0 := by rcases hc with rfl | rfl <;> rfl
  exact h [] c t rfl hc (by rw [net_nil]; omega)

lemma Uncut.cons (hc : c = ';' ∨ c = '\n' → depth ≠ 0) (h : Uncut (depth + bracketStep c) t) :
    Uncut depth (c :: t) := by
  intro u d v heq hd
  cases u with
  | nil =>
    obtain ⟨rfl, -⟩ := List.cons.inj heq
    rw [net_nil, Int.add_zero]
    exact hc hd
  | cons e u =>
    obtain ⟨rfl, ht⟩ := List.cons.inj heq
    rw [net_cons, ← Int.add_assoc]
    exact h u d v ht hd

lemma Uncut.append (ht : Uncut depth t) (hw : Uncut (depth + net t) w) : Uncut depth (t ++ w) := by
  induction t generalizing depth with
  | nil => rwa [net_nil, Int.add_zero] at hw
  | cons c t ih =>
    have hhead : c = ';' ∨ c = '\n' → depth ≠ 0 := by
      intro hc
      have := ht [] c t rfl hc
      rwa [net_nil, Int.add_zero] at this
    rw [net_cons, ← Int.add_assoc] at hw
    exact .cons hhead (ih ht.tail hw)

lemma pieces_cut (h : depth + bracketStep c = 0 ∧ (c = ';' ∨ c = '\n')) (t : Text) :
    pieces depth (c :: t) = [] :: pieces 0 t := by
  rw [pieces]
  exact if_pos (by simpa using h)

/-- A character that is no cut belongs to the first piece. -/
lemma pieces_cons (h : ¬ (depth + bracketStep c = 0 ∧ (c = ';' ∨ c = '\n')))
    (hp : pieces (depth + bracketStep c) t = p :: ps) : pieces depth (c :: t) = (c :: p) :: ps := by
  rw [pieces]
  simp only [hp]
  exact if_neg (by simpa using h)

lemma pieces_of_uncut (h : Uncut depth t) : pieces depth t = [t] := by
  induction t generalizing depth with
  | nil => rfl
  | cons c t ih => exact pieces_cons h.head (ih h.tail)

/-- A text with no cut is a piece if a cut follows it at depth zero. -/
lemma pieces_append_of_uncut (h : Uncut depth l) (hnet : depth + net l = 0) (hc : c = ';' ∨ c = '\n')
    (rest : Text) : pieces depth (l ++ c :: rest) = l :: pieces 0 rest := by
  induction l generalizing depth with
  | nil =>
    have hstep : bracketStep c = 0 := by rcases hc with rfl | rfl <;> rfl
    rw [net_nil, Int.add_zero] at hnet
    subst hnet
    rw [List.nil_append, pieces, hstep]
    simp [hc]
  | cons d l ih =>
    rw [net_cons, ← Int.add_assoc] at hnet
    exact pieces_cons h.head (ih h.tail hnet)

/-! ## Members -/

/-- A text that closes the brackets that it opens, and that is cut nowhere. -/
structure IsClosed (t : Text) : Prop where
  uncut : Uncut 0 t
  net_eq : net t = 0

/-- **A closed text does not matter** to the members behind it. -/
lemma members_append (h : IsClosed l) (rest : Text) :
    members (l ++ ';' :: '\n' :: rest) = members l ++ members rest := by
  have hnet : 0 + net l = 0 := by rw [h.net_eq, Int.add_zero]
  have hline : pieces 0 ('\n' :: rest) = [] :: pieces 0 rest := pieces_cut ⟨rfl, .inr rfl⟩ rest
  have hblank : Text.trim [] = [] := rfl
  rw [members, pieces_append_of_uncut h.uncut hnet (.inl rfl), hline, members, pieces_of_uncut h.uncut, members]
  simp only [List.map_cons, List.map_nil, List.filter_cons, List.filter_nil, hblank, List.isEmpty_nil, Bool.not_true,
    Bool.false_and, Bool.false_eq_true, if_false]
  split <;> rfl

/-- A line of a body without its indentation and the semicolon that ends it, where semicolons may stand inside of
brackets. -/
structure IsLine (l : Text) : Prop where
  closed : IsClosed l
  trim_eq : Text.trim l = l
  kept : (!l.isEmpty && !Text.startsWith "//" l) = true

lemma isClosed_indent (h : IsClosed l) : IsClosed (Code.indent 2 l) where
  uncut := by
    have hblank : ∀ {t : Text}, Uncut 0 t → Uncut 0 (' ' :: t) := fun ht =>
      .cons (fun hc => absurd hc (by decide)) ht
    exact hblank (hblank h.uncut)
  net_eq := by
    show net (' ' :: ' ' :: l) = 0
    rw [net_cons, net_cons, h.net_eq]
    rfl

lemma members_indent (h : IsLine l) : members (Code.indent 2 l) = [l] := by
  have htrim : Text.trim (Code.indent 2 l) = l := h.trim_eq
  rw [members, pieces_of_uncut (isClosed_indent h.closed).uncut, List.map_singleton, htrim, List.filter_cons,
    if_pos h.kept, List.filter_nil]

/-- **Members are read back** as they were printed. -/
theorem members_flatMap_lines {ls : List Text} (h : ∀ l ∈ ls, IsLine l) :
    members ('\n' :: ls.flatMap fun l => Code.indent 2 (l ++ [';']) ++ ['\n']) = ls := by
  have hopen : ∀ rest, members ('\n' :: rest) = members rest := fun _ => rfl
  rw [hopen]
  induction ls with
  | nil => rfl
  | cons l ls ih =>
    have hl := h l (by simp)
    have hline : (Code.indent 2 (l ++ [';']) ++ ['\n']) ++ (ls.flatMap fun l => Code.indent 2 (l ++ [';']) ++ ['\n']) =
        Code.indent 2 l ++ ';' :: '\n' :: ls.flatMap fun l => Code.indent 2 (l ++ [';']) ++ ['\n'] := by
      simp [Code.indent]
    rw [List.flatMap_cons, hline, members_append (isClosed_indent hl.closed), members_indent hl,
      ih fun m hm => h m (by simp [hm])]
    rfl

/-- A line of a body, without its indentation and the semicolon that ends it. -/
structure IsMember (l : Text) : Prop where
  semicolon : ';' ∉ l
  newline : '\n' ∉ l
  net_eq : net l = 0
  head : ∃ c t, l = c :: t ∧ Text.isBlank c = false ∧ c ≠ '/'
  last : ∀ c, l.getLast? = some c → Text.isBlank c = false

lemma IsMember.isLine (h : IsMember l) : IsLine l where
  closed := by
    refine ⟨?_, h.net_eq⟩
    rintro u c v rfl (rfl | rfl)
    · exact absurd (by simp) h.semicolon
    · exact absurd (by simp) h.newline
  trim_eq := by
    obtain ⟨c, t, rfl, hc, -⟩ := h.head
    refine Text.trim_eq_self (fun d hd => ?_) h.last
    obtain rfl := Option.some.inj hd
    exact hc
  kept := by
    obtain ⟨c, t, rfl, -, hc⟩ := h.head
    have hslash : ¬ ('/' = c) := fun h => hc h.symm
    have hstart : Text.startsWith "//".toList (c :: t) = false := by
      show ('/' == c && _) = false
      simp [hslash]
    rw [hstart]
    rfl

/-! ## Properties -/

/-- The text of a type on one line, closed by no semicolon. -/
structure IsType (t : Text) : Prop where
  semicolon : ';' ∉ t
  newline : '\n' ∉ t
  net_eq : net t = 0
  head : ∃ c u, t = c :: u ∧ Text.isBlank c = false
  last : ∀ c, t.getLast? = some c → Text.isBlank c = false

lemma IsType.ne_nil (h : IsType t) : t ≠ [] := by
  obtain ⟨c, u, rfl, -⟩ := h.head
  exact List.cons_ne_nil _ _

/-- A text that a property has for a type if it is read at all. -/
structure IsTypeLine (t : Text) : Prop where
  newline : '\n' ∉ t
  head : ∃ c u, t = c :: u ∧ Text.isBlank c = false
  last : ∀ c, t.getLast? = some c → Text.isBlank c = false ∧ c ≠ ';'

lemma IsType.isTypeLine (h : IsType t) : IsTypeLine t where
  newline := h.newline
  head := h.head
  last := by
    refine fun c hc => ⟨h.last c hc, ?_⟩
    rintro rfl
    exact h.semicolon (List.mem_of_getLast? hc)

lemma IsTypeLine.trim_eq (h : IsTypeLine t) : Text.trim t = t := by
  obtain ⟨c, u, rfl, hc⟩ := h.head
  rw [Text.trim, Text.trimLeft, List.dropWhile_cons_of_neg (by simp [hc])]
  exact Text.trimRight_eq_self fun c hc => (h.last c hc).1

lemma IsTypeLine.withoutSemicolon_eq (h : IsTypeLine t) : withoutSemicolon t = t := by
  obtain ⟨c, u, rfl, -⟩ := h.head
  have hend : Text.endsWith [';'] u = false := by
    rw [Bool.eq_false_iff]
    intro hs
    obtain ⟨v, rfl⟩ := List.isSuffixOf_iff_suffix.1 hs
    exact (h.last ';' (by rw [← List.cons_append]; exact List.getLast?_concat)).2 rfl
  rw [withoutSemicolon, hend]
  rfl

lemma isNameChar_propertyName {name : Text} (h : ∀ c ∈ name, Text.isNameChar c = true)
    (isOptional : Bool) : ∀ c ∈ TypeScript.propertyName isOptional name,
      Text.isNameChar c = true ∨ c = '?' := by
  intro c hc
  unfold TypeScript.propertyName at hc
  split at hc
  · simp only [List.mem_append, List.mem_singleton] at hc
    exact hc.imp_left (h c)
  · exact .inl (h c hc)

/-- A property is a line of a body. -/
lemma isMember_property {name : Text} (hname : ∀ c ∈ name, Text.isNameChar c = true)
    (hne : name ≠ []) (isOptional : Bool) (ht : IsType t) :
    IsMember (TypeScript.propertyName isOptional name ++ ": " ++ t) := by
  have hchars := isNameChar_propertyName hname isOptional
  have hother : ∀ d, Text.isNameChar d = false → d ≠ '?' →
      d ∉ TypeScript.propertyName isOptional name := by
    intro d hd hq hmem
    rcases hchars d hmem with h | h
    · rw [h] at hd; cases hd
    · exact hq h
  obtain ⟨c, u, rfl⟩ := List.exists_cons_of_ne_nil hne
  refine ⟨?_, ?_, ?_, ?_, ?_⟩
  · simp only [List.mem_append, not_or]
    exact ⟨⟨hother ';' rfl (by decide), by decide⟩, ht.semicolon⟩
  · simp only [List.mem_append, not_or]
    exact ⟨⟨hother '\n' rfl (by decide), by decide⟩, ht.newline⟩
  · have hprop : net (TypeScript.propertyName isOptional (c :: u)) = 0 := by
      unfold TypeScript.propertyName
      split
      · rw [net_append, net_of_isNameChar hname]
        rfl
      · exact net_of_isNameChar hname
    rw [net_append, net_append, hprop, ht.net_eq]
    rfl
  · refine ⟨c, u ++ (if isOptional then ['?'] else []) ++ ": " ++ t, ?_, ?_, ?_⟩
    · cases isOptional <;> simp [TypeScript.propertyName]
    · exact Text.isBlank_eq_false_of_isNameChar (hname c (by simp))
    · rintro rfl
      exact absurd (hname '/' (by simp)) (by decide)
  · intro d hd
    rw [List.getLast?_append_of_ne_nil _ ht.ne_nil] at hd
    exact ht.last d hd

/-- **A property is read back** if its name is a word. -/
theorem property?_append (hw : ∀ c ∈ w, Text.isWord c = true) (hne : w ≠ []) (isOptional : Bool)
    (ht : IsTypeLine t) :
    property? (TypeScript.propertyName isOptional w ++ ": " ++ t) = some ⟨w, isOptional, t⟩ := by
  have hskip : skipBlanks (' ' :: t) = t := by
    obtain ⟨c, u, rfl, hc⟩ := ht.head
    rw [skipBlanks_space, skipBlanks_cons_of_not_blank hc]
  have hempty : t.isEmpty = false := by
    obtain ⟨c, u, rfl, -⟩ := ht.head
    rfl
  have hcolon : skipBlanks (':' :: ' ' :: t) = ':' :: ' ' :: t :=
    skipBlanks_cons_of_not_blank (by decide) _
  -- from the colon on, the marker plays no part
  have hrest : ∀ marker : Bool, (do
      let type := skipBlanks (← after? [':'] (skipBlanks (':' :: ' ' :: t)))
      if type.isEmpty || '\n' ∈ type then none
      else return (⟨w, marker, Text.trim (withoutSemicolon type)⟩ : Property)) = some ⟨w, marker, t⟩ := by
    intro marker
    rw [hcolon, after?_singleton]
    simp only [Option.bind_eq_bind, Option.bind_some, hskip, hempty, ht.newline,
      ht.withoutSemicolon_eq, ht.trim_eq]
    rfl
  cases isOptional with
  | true =>
    have htext : TypeScript.propertyName true w ++ ": " ++ t = w ++ '?' :: ':' :: ' ' :: t := by
      simp [TypeScript.propertyName]
    rw [htext, property?, word?_append hw hne (by decide)]
    exact hrest true
  | false =>
    have htext : TypeScript.propertyName false w ++ ": " ++ t = w ++ ':' :: ' ' :: t := by
      simp [TypeScript.propertyName]
    rw [htext, property?, word?_append hw hne (by decide)]
    exact hrest false

/-- Properties have words for names. -/
lemma isWord_of_property? {p : Property} (h : property? l = some p) :
    ∀ c ∈ p.name, Text.isWord c = true := by
  simp only [property?, Option.bind_eq_bind, Option.bind_eq_some_iff] at h
  obtain ⟨⟨name, r⟩, hname, t, -, h⟩ := h
  split at h
  · cases h
  · simp only [Option.pure_def, Option.some.injEq] at h
    rw [← h]
    exact (append_of_word? hname).2.2

/-- A name with a dollar sign is not read, since a word ends before the sign. -/
lemma property?_of_not_word {name : Text} (hname : ∀ c ∈ name, Text.isNameChar c = true)
    (hword : ¬ ∀ c ∈ name, Text.isWord c = true) (t : Text) : property? (name ++ t) = none := by
  obtain ⟨w, u, rfl, hw⟩ := Text.exists_first_dollar hname hword
  rcases eq_or_ne w [] with rfl | hne
  · rw [List.nil_append, List.cons_append, property?, word?_cons_of_not_word (by decide)]
    rfl
  · rw [List.append_assoc, List.cons_append, property?, word?_append hw hne (by decide)]
    rfl

end Scaffold.Recovery
