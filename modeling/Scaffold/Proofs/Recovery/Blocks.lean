import Mathlib.Data.List.TakeWhile
import Mathlib.Tactic.Common
import Scaffold.Proofs.Names
import Scaffold.Proofs.Recovery.Search
import Scaffold.Recovery.Blocks

/-!
# Reading declarations that were printed

A printed interface file is a sequence of blocks.  A block is read back as a whole if its name is a
word and the braces inside match (`blocks_flatMap_of_isReadable`).  A name may also hold a dollar
sign, which is no word character: then the header is not recognised, and the search has to pass over
the whole block without mistaking anything in it for a header (`inert_text`).  So reading a file of
blocks without braces inside leaves exactly those that are named by words (`blocks_flatMap_text`).

The obstruction is that the body of an enumeration holds arbitrary text, and that may look like a
header.  But a header ends with an opening brace, with nothing but words and blanks before it, and a
body has no brace (`inert_header_of_barrier`).
-/

namespace Scaffold.Recovery

variable {s t u v w rest : Text} {b c : Char}

/-! ## Headers -/

lemma eq_append_skipBlanks (s : Text) :
    ∃ w, s = w ++ skipBlanks s ∧ ∀ c ∈ w, Text.isBlank c = true :=
  ⟨s.takeWhile Text.isBlank, (List.takeWhile_append_dropWhile ..).symm,
    fun _ hc => List.mem_takeWhile_imp hc⟩

lemma append_of_skipSomeBlanks? (h : skipSomeBlanks? s = some t) :
    ∃ w, s = w ++ t ∧ w ≠ [] ∧ ∀ c ∈ w, Text.isBlank c = true := by
  cases s with
  | nil => cases h
  | cons c s =>
    rw [skipSomeBlanks?] at h
    split at h
    · rename_i hc
      obtain ⟨w, hw, hblank⟩ := eq_append_skipBlanks s
      simp only [Option.some.injEq] at h
      refine ⟨c :: w, by rw [List.cons_append, ← h, ← hw], by simp, ?_⟩
      intro d hd
      rcases List.mem_cons.1 hd with rfl | hd
      · exact hc
      · exact hblank d hd
    · cases h

lemma append_of_keyword? {kind : DeclarationKind} (h : keyword? s = some (kind, t)) :
    s = kind.keyword ++ t := by
  unfold keyword? at h
  rw [Option.orElse_eq_orElse, Option.orElse_eq_or, Option.or_eq_some_iff] at h
  rcases h with h | ⟨-, h⟩
  all_goals
    obtain ⟨r, hr, heq⟩ := Option.map_eq_some_iff.1 h
    simp only [Prod.mk.injEq] at heq
    obtain ⟨rfl, rfl⟩ := heq
    exact after?_eq_some_iff.1 hr

/-- A character of a header before its brace. -/
def isHeaderChar (c : Char) : Bool := Text.isWord c || Text.isBlank c

lemma isHeaderChar_of_word (h : ∀ c ∈ w, Text.isWord c = true) : ∀ c ∈ w, isHeaderChar c = true :=
  fun c hc => by simp [isHeaderChar, h c hc]

lemma isHeaderChar_of_blank (h : ∀ c ∈ w, Text.isBlank c = true) :
    ∀ c ∈ w, isHeaderChar c = true :=
  fun c hc => by simp [isHeaderChar, h c hc]

/-- A header starts with its keyword and a blank, and nothing but words and blanks stands before its
brace. -/
lemma exists_of_header? {kind : DeclarationKind} {name : Text}
    (h : header? s = some (kind, name, rest)) :
    (∃ c t, s = "export".toList ++ c :: t ∧ Text.isBlank c = true) ∧
      ∃ w, s = w ++ '{' :: rest ∧ ∀ c ∈ w, isHeaderChar c = true := by
  simp only [header?, Option.bind_eq_bind, Option.bind_eq_some_iff, Option.pure_def,
    Option.some.injEq, Prod.mk.injEq] at h
  obtain ⟨a, ha, x, hx, ⟨kind', y⟩, hy, z, hz, ⟨name', r⟩, hname, r', hr', rfl, rfl, rfl⟩ := h
  obtain rfl := after?_eq_some_iff.1 ha
  obtain ⟨w₁, rfl, hne, hw₁⟩ := append_of_skipSomeBlanks? hx
  obtain rfl := append_of_keyword? hy
  obtain ⟨w₂, rfl, -, hw₂⟩ := append_of_skipSomeBlanks? hz
  obtain ⟨rfl, -, hword⟩ := append_of_word? hname
  obtain ⟨w₃, hw₃, hblank⟩ := eq_append_skipBlanks r
  have hbrace := after?_eq_some_iff.1 hr'
  rw [hbrace] at hw₃
  obtain ⟨c, w, rfl⟩ := List.exists_cons_of_ne_nil hne
  refine ⟨⟨c, _, rfl, hw₁ c (by simp)⟩,
    "export".toList ++ (c :: w) ++ kind'.keyword ++ w₂ ++ name' ++ w₃, ?_, ?_⟩
  · rw [hw₃]
    simp only [List.append_assoc, List.singleton_append]
  · have hexport : ∀ d ∈ "export".toList, isHeaderChar d = true :=
      Text.forall_mem_of_all (by decide)
    have hkeyword : ∀ d ∈ kind'.keyword, isHeaderChar d = true := by
      cases kind' <;> exact Text.forall_mem_of_all (by decide)
    intro d hd
    simp only [List.mem_append] at hd
    rcases hd with ((((hd | hd) | hd) | hd) | hd) | hd
    · exact hexport d hd
    · exact isHeaderChar_of_blank hw₁ d hd
    · exact hkeyword d hd
    · exact isHeaderChar_of_blank hw₂ d hd
    · exact isHeaderChar_of_word hword d hd
    · exact isHeaderChar_of_blank hblank d hd

/-- Declarations have words for names. -/
lemma isWord_of_mem_blocks {b : Block} (h : b ∈ blocks s) : ∀ c ∈ b.name, Text.isWord c = true := by
  obtain ⟨t, left, hread⟩ := exists_of_mem_allFrom h
  obtain ⟨⟨kind, name, r⟩, hheader, heq⟩ := Option.map_eq_some_iff.1 hread
  obtain ⟨rfl, -⟩ := Prod.mk.inj heq
  simp only [header?, Option.bind_eq_bind, Option.bind_eq_some_iff, Option.pure_def,
    Option.some.injEq, Prod.mk.injEq] at hheader
  obtain ⟨_, -, _, -, ⟨_, _⟩, -, _, -, ⟨name', _⟩, hname, _, -, rfl, rfl, rfl⟩ := hheader
  exact (append_of_word? hname).2.2

/-- A header is read up to its brace. -/
lemma header?_append (kind : DeclarationKind) {name : Text}
    (hname : ∀ c ∈ name, Text.isWord c = true) (hne : name ≠ []) (rest : Text) :
    header? ("export ".toList ++ kind.keyword ++ ' ' :: name ++ [' ', '{'] ++ rest) =
      some (kind, name, rest) := by
  have hexport : "export ".toList ++ kind.keyword ++ ' ' :: name ++ [' ', '{'] ++ rest =
      "export".toList ++ ' ' :: (kind.keyword ++ ' ' :: (name ++ ' ' :: '{' :: rest)) := by
    rw [show "export ".toList = "export".toList ++ [' '] from rfl]
    simp
  have hskip : ∀ c t, Text.isBlank c = false → skipSomeBlanks? (' ' :: c :: t) = some (c :: t) := by
    intro c t hc
    show some (skipBlanks (c :: t)) = _
    rw [skipBlanks_cons_of_not_blank hc]
  have hkeyword : ∀ t, skipSomeBlanks? (' ' :: (kind.keyword ++ t)) = some (kind.keyword ++ t) := by
    intro t
    cases kind <;> exact hskip _ _ rfl
  have hkind : ∀ t, keyword? (kind.keyword ++ t) = some (kind, t) := by
    intro t
    cases kind with
    | interface =>
      unfold keyword?
      rw [show DeclarationKind.interface.keyword = "interface".toList from rfl, after?_append]
      rfl
    | enumeration =>
      unfold keyword?
      rw [show DeclarationKind.enumeration.keyword = "enum".toList from rfl, after?_append]
      rfl
  obtain ⟨c, w, rfl⟩ := List.exists_cons_of_ne_nil hne
  rw [hexport]
  simp only [header?, after?_append, Option.bind_eq_bind, Option.bind_some, hkeyword, hkind]
  rw [List.cons_append, hskip _ _ (Text.isBlank_eq_false_of_isWord (hname c (by simp)))]
  simp only [Option.bind_some]
  rw [← List.cons_append, word?_append hname hne rfl]
  rfl

/-- No header begins in a text without its first letter. -/
lemma inert_header_of_heads (h : 'e' ∉ t) : Inert header? t := by
  apply inert_of_heads
  intro c hc s
  have hne : 'e' ≠ c := by
    rintro rfl
    exact h hc
  rw [header?, show "export".toList = 'e' :: "xport".toList from rfl, after?_cons_of_ne hne]
  rfl

/-- No header begins in a text that has no opening brace and ends with a character that no header
has. -/
lemma inert_header_of_barrier (ht : '{' ∉ t) (hb : isHeaderChar b = false) (hbrace : b ≠ '{') :
    Inert header? (t ++ [b]) := by
  intro u hu hne rest
  by_contra hsome
  obtain ⟨⟨kind, name, r⟩, hr⟩ := Option.ne_none_iff_exists'.1 hsome
  obtain ⟨-, w, hw, hchars⟩ := exists_of_header? hr
  obtain ⟨x, hx⟩ := hu
  obtain ⟨u', d, rfl⟩ := (List.eq_nil_or_concat' u).resolve_left hne
  rw [← List.append_assoc] at hx
  obtain ⟨rfl, hd⟩ := List.append_inj' hx rfl
  obtain rfl : d = b := by simpa using hd
  have hmem : d ∈ w := by
    rcases List.append_eq_append_iff.1 hw with ⟨y, rfl, -⟩ | ⟨y, hy, hrest⟩
    · simp
    · cases y with
      | nil => simp at hy; simp [← hy]
      | cons e y =>
        rw [List.cons_append, List.cons.injEq] at hrest
        rw [← hrest.1] at hy
        have hin : '{' ∈ u' ++ [d] := by rw [hy]; simp
        rcases List.mem_append.1 hin with h | h
        · exact absurd (List.mem_append_right x h) ht
        · exact absurd (List.mem_singleton.1 h).symm hbrace
  rw [hchars d hmem] at hb
  cases hb

/-- A word with a brace behind it is no header: the only blank is the one before the brace. -/
lemma header?_word_brace (hw : ∀ c ∈ w, Text.isWord c = true) (rest : Text) :
    header? (w ++ ' ' :: '{' :: rest) = none := by
  by_contra hsome
  obtain ⟨⟨kind, name, r⟩, hr⟩ := Option.ne_none_iff_exists'.1 hsome
  obtain ⟨⟨c, s, hs, hc⟩, -⟩ := exists_of_header? hr
  have hexport : w = "export".toList := by
    rcases List.append_eq_append_iff.1 hs with ⟨z, hz, hrest⟩ | ⟨z, hz, hrest⟩
    · cases z with
      | nil => rw [hz, List.append_nil]
      | cons e z =>
        rw [List.cons_append, List.cons.injEq] at hrest
        have he : ' ' ∈ "export".toList := by rw [hz, ← hrest.1]; simp
        exact absurd he (by decide)
    · cases z with
      | nil => rw [hz, List.append_nil]
      | cons e z =>
        rw [List.cons_append, List.cons.injEq] at hrest
        have hword := hw e (by rw [hz]; simp)
        rw [← hrest.1, Text.isWord_eq_false_of_isBlank hc] at hword
        cases hword
  have hnone : header? ("export".toList ++ ' ' :: '{' :: rest) = none := by
    rw [header?, after?_append]
    rfl
  rw [hexport, hnone] at hr
  cases hr

/-- What is left of a header whose name is cut off begins no header. -/
lemma inert_header_of_word (hw : ∀ c ∈ w, Text.isWord c = true) : Inert header? (w ++ [' ', '{']) := by
  intro t ht hne rest
  obtain ⟨x, hx⟩ := ht
  rcases List.append_eq_append_iff.1 hx with ⟨y, rfl, rfl⟩ | ⟨y, rfl, hy⟩
  · rw [List.append_assoc]
    exact header?_word_brace (fun d hd => hw d (by simp [hd])) rest
  · exact inert_header_of_heads (by decide) t ⟨y, hy.symm⟩ hne rest

/-! ## Blocks -/

/-- A text in which every brace that is opened is closed, and no other one. -/
inductive IsBraced : Text → Prop
  | nil : IsBraced []
  | plain {c : Char} {t : Text} : c ≠ '{' → c ≠ '}' → IsBraced t → IsBraced (c :: t)
  | group {u t : Text} : IsBraced u → IsBraced t → IsBraced ('{' :: (u ++ '}' :: t))

lemma isBraced_of_not_mem (hopen : '{' ∉ t) (hclose : '}' ∉ t) : IsBraced t := by
  induction t with
  | nil => exact .nil
  | cons c t ih =>
    simp only [List.mem_cons, not_or] at hopen hclose
    exact .plain (Ne.symm hopen.1) (Ne.symm hclose.1) (ih hopen.2 hclose.2)

lemma IsBraced.append (ht : IsBraced t) (hu : IsBraced u) : IsBraced (t ++ u) := by
  induction ht with
  | nil => exact hu
  | plain hopen hclose _ ih => exact .plain hopen hclose ih
  | group hin _ _ ih =>
    rw [List.cons_append, List.append_assoc, List.cons_append]
    exact .group hin ih

/-- A text whose braces match is passed over at every depth. -/
lemma IsBraced.balanced_append (h : IsBraced t) (depth : Nat) (rest : Text) :
    balanced (depth + 1) (t ++ rest) =
      (t ++ (balanced (depth + 1) rest).1, (balanced (depth + 1) rest).2) := by
  induction h generalizing depth rest with
  | nil => rfl
  | plain hopen hclose _ ih =>
    rw [List.cons_append, balanced, if_neg (by simp [hclose]), if_neg hopen, if_neg hclose]
    simp only [ih, List.cons_append]
  | @group u t _ _ ihu iht =>
    have hinner : balanced (depth + 2) ('}' :: (t ++ rest)) =
        ('}' :: (balanced (depth + 1) (t ++ rest)).1, (balanced (depth + 1) (t ++ rest)).2) := by
      rw [balanced, if_neg (by simp), if_neg (by decide), if_pos rfl]
      rfl
    rw [List.cons_append, List.append_assoc, List.cons_append, balanced, if_neg (by simp), if_pos rfl]
    simp only [ihu, hinner, iht, List.cons_append, List.append_assoc]

/-- A text whose braces match is closed by the brace behind it. -/
lemma balanced_append (h : IsBraced t) (rest : Text) : balanced 1 (t ++ '}' :: rest) = (t, rest) := by
  rw [h.balanced_append 0]
  exact congrArg (·, rest) (List.append_nil t)

/-- A block as it is written, up to its closing brace. -/
def Block.core (b : Block) : Text :=
  "export ".toList ++ b.kind.keyword ++ ' ' :: b.name ++ [' ', '{'] ++ b.body ++ ['}']

/-- A block as it is written, with an empty line behind it. -/
def Block.text (b : Block) : Text := b.core ++ ['\n', '\n']

/-- A name and a body without braces. -/
structure Block.IsFlat (b : Block) : Prop where
  name_ne_nil : b.name ≠ []
  name_chars : ∀ c ∈ b.name, Text.isNameChar c = true
  body_open : '{' ∉ b.body
  body_close : '}' ∉ b.body

/-- A block that is read back: its name is a word, and the braces of its body match. -/
structure Block.IsReadable (b : Block) : Prop where
  name_ne_nil : b.name ≠ []
  name_word : ∀ c ∈ b.name, Text.isWord c = true
  body : IsBraced b.body

lemma Block.IsReadable.block?_core {b : Block} (h : b.IsReadable) (rest : Text) :
    block? (b.core ++ rest) = some (b, rest) := by
  have hcore : b.core ++ rest = "export ".toList ++ b.kind.keyword ++ ' ' :: b.name ++ [' ', '{'] ++
      (b.body ++ '}' :: rest) := by
    unfold core
    simp only [List.append_assoc, List.singleton_append]
  rw [hcore, block?, header?_append _ h.name_word h.name_ne_nil]
  simp only [Option.map_some]
  rw [balanced_append h.body]

namespace Block.IsFlat

variable {b : Block}

lemma isReadable (h : b.IsFlat) (hname : ∀ c ∈ b.name, Text.isWord c = true) : b.IsReadable :=
  ⟨h.name_ne_nil, hname, isBraced_of_not_mem h.body_open h.body_close⟩

/-- Nothing in a block is taken for a header if the name is none. -/
lemma inert_text (h : b.IsFlat) (hname : ¬ ∀ c ∈ b.name, Text.isWord c = true) :
    Inert header? b.text := by
  obtain ⟨u, w, hu, hw⟩ := Text.exists_last_dollar h.name_chars hname
  have htext : b.text = ("export ".toList ++ b.kind.keyword ++ ' ' :: u ++ ['$']) ++
      ((w ++ [' ', '{']) ++ ((b.body ++ ['}']) ++ ['\n', '\n'])) := by
    unfold text core
    rw [hu]
    simp only [List.append_assoc, List.cons_append, List.nil_append]
  have hbrace : '{' ∉ "export ".toList ++ b.kind.keyword ++ ' ' :: u := by
    have hkind : '{' ∉ b.kind.keyword := by cases b.kind <;> decide
    have hname : '{' ∉ u := fun hmem =>
      Text.not_mem_of_isNameChar h.name_chars (by decide) (hu ▸ List.mem_append_left _ hmem)
    simp [hkind, hname]
  rw [htext]
  exact (inert_header_of_barrier hbrace (by decide) (by decide)).append
    ((inert_header_of_word hw).append
      ((inert_header_of_barrier h.body_open (by decide) (by decide)).append
        (inert_header_of_heads (by decide))))

end Block.IsFlat

lemma inert_block (h : Inert header? t) : Inert block? t :=
  fun u hu hne rest => by rw [block?, h u hu hne rest]; rfl

lemma blocks_text_append {b : Block} (h : b.IsReadable) (rest : Text) :
    blocks (b.text ++ rest) = b :: blocks rest := by
  have hcore : b.core ≠ [] := List.append_ne_nil_of_right_ne_nil _ (List.cons_ne_nil _ _)
  have hlines : Inert block? ['\n', '\n'] := inert_block (inert_header_of_heads (by decide))
  rw [Block.text, List.append_assoc, blocks, all_append_of_read (h.block?_core _) hcore,
    all_append_of_inert hlines]
  rfl

lemma blocks_flatMap_of_isReadable {bs : List Block} (h : ∀ b ∈ bs, b.IsReadable) (rest : Text) :
    blocks (bs.flatMap Block.text ++ rest) = bs ++ blocks rest := by
  induction bs with
  | nil => rfl
  | cons b bs ih =>
    rw [List.flatMap_cons, List.append_assoc, blocks_text_append (h b (by simp)),
      ih fun d hd => h d (by simp [hd]), List.cons_append]

/-- **A printed file is read back** up to the blocks whose names are no words. -/
theorem blocks_flatMap_text {bs : List Block} (h : ∀ b ∈ bs, b.IsFlat) (rest : Text) :
    blocks (bs.flatMap Block.text ++ rest) =
      bs.filter (fun b => b.name.all Text.isWord) ++ blocks rest := by
  induction bs with
  | nil => rfl
  | cons b bs ih =>
    have hb := h b (by simp)
    have hbs := ih fun d hd => h d (by simp [hd])
    rw [List.flatMap_cons, List.append_assoc]
    by_cases hname : ∀ c ∈ b.name, Text.isWord c = true
    · have hkeep : b.name.all Text.isWord = true := List.all_eq_true.2 hname
      rw [List.filter_cons, if_pos hkeep, List.cons_append, ← hbs, blocks_text_append (hb.isReadable hname)]
    · have hdrop : ¬ b.name.all Text.isWord = true := fun h => hname (List.all_eq_true.1 h)
      rw [List.filter_cons, if_neg hdrop, ← hbs]
      exact all_append_of_inert (inert_block (hb.inert_text hname)) _

end Scaffold.Recovery
