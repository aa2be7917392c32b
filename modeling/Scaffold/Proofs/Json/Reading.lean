import Mathlib.Data.List.Basic
import Mathlib.Data.List.Nodup
import Mathlib.Tactic.Common
import Scaffold.Proofs.Json.Numbers
import Scaffold.Proofs.Table

/-!
# Documents are read back

A written document differs from another one with the same value in nothing but the blanks between
the tokens.  `Spells` is the grammar of the texts that a document can have with any blanks, one rule
for every kind of value; both layouts are such texts (`spells_pretty`, `spells_compact`), and the
reader recovers the document from each (`value_of_spells`).

Two kinds of data cannot be recovered: a number that the format does not have, and a member that a
later one with the same key hides.  `IsProper` excludes them.  What is read has neither
(`isProper_of_parse`), so a document that came out of a text goes into a text and back unchanged.
-/

namespace Scaffold.Json

/-! ## Strings -/

lemma hexUnit?_unicodeEscape {n : Nat} (h : n < 0x20) :
    hexUnit? (Utf8.hexDigit (n / 4096 % 16)) (Utf8.hexDigit (n / 256 % 16))
      (Utf8.hexDigit (n / 16 % 16)) (Utf8.hexDigit (n % 16)) = some n := by
  have hall : ∀ n < 0x20, hexUnit? (Utf8.hexDigit (n / 4096 % 16)) (Utf8.hexDigit (n / 256 % 16))
      (Utf8.hexDigit (n / 16 % 16)) (Utf8.hexDigit (n % 16)) = some n := by decide
  exact hall n h

/-- A character that is written in a string is read as its code point. -/
lemma stringUnits_escapeChar (start : Text) (c : Char) {rest : Text} (hrest : rest ≠ []) :
    stringUnits start (escapeChar false c ++ rest) =
      (stringUnits start rest).map fun (ns, after) => (c.toNat :: ns, after) := by
  obtain ⟨r, rest, rfl⟩ := List.exists_cons_of_ne_nil hrest
  unfold escapeChar
  split_ifs with hquote hbackslash hnewline hreturn htab hback hfeed hcontrol
  · subst hquote
    simp [stringUnits, simpleEscape?]
  · subst hbackslash
    simp [stringUnits, simpleEscape?]
  · subst hnewline
    simp [stringUnits, simpleEscape?]
  · subst hreturn
    simp [stringUnits, simpleEscape?]
  · subst htab
    simp [stringUnits, simpleEscape?]
  · subst hback
    simp [stringUnits, simpleEscape?]
  · subst hfeed
    simp [stringUnits, simpleEscape?]
  -- a control character without a short form is written by its number
  · have hlow : c.toNat < 0x20 := by simpa using hcontrol
    have hunit := hexUnit?_unicodeEscape hlow
    have hsmall : c.toNat < 0x10000 := by omega
    rw [utf16Escape]
    simp only [if_pos hsmall, unicodeEscape, List.cons_append, List.nil_append]
    rw [stringUnits.eq_def]
    simp [hunit]
  · have hhigh : ¬c.toNat < 0x20 := by simpa using hcontrol
    simp [stringUnits, hbackslash, hhigh]

lemma stringUnits_append (start s rest : Text) :
    stringUnits start (s.flatMap (escapeChar false) ++ '"' :: rest) =
      .ok (s.map Char.toNat, rest) := by
  induction s with
  | nil => simp [stringUnits]
  | cons c s ih =>
    rw [List.flatMap_cons, List.append_assoc,
      stringUnits_escapeChar start c (List.append_ne_nil_of_right_ne_nil _ (List.cons_ne_nil _ _)),
      ih]
    rfl

/-- A character is no surrogate. -/
lemma toNat_lt_or_le (c : Char) : c.toNat < 0xD800 ∨ 0xE000 ≤ c.toNat := by
  rcases c.valid with h | h
  · exact .inl h
  · exact .inr h.1

lemma joinSurrogates_map_toNat (s : Text) : joinSurrogates (s.map Char.toNat) = s := by
  induction s with
  | nil => rfl
  | cons c s ih =>
    cases s with
    | nil => simp [joinSurrogates]
    | cons d s =>
      have hc := toNat_lt_or_le c
      rw [List.map_cons, List.map_cons, joinSurrogates, ← List.map_cons, ih, Char.ofNat_toNat]
      refine if_neg fun h => ?_
      simp only [Bool.and_eq_true, decide_eq_true_eq] at h
      omega

/-- **A string is read back.** -/
theorem string_append (s rest : Text) :
    string (s.flatMap (escapeChar false) ++ '"' :: rest) = .ok (s, rest) := by
  rw [string, stringUnits_append]
  show Except.ok (joinSurrogates (s.map Char.toNat), rest) = _
  rw [joinSurrogates_map_toNat]

/-! ## Values without quotes and brackets -/

/-- A character with which a value without quotes and brackets can start. -/
def isScalarStart (c : Char) : Bool := c.isDigit || ['n', 't', 'f', 'N', 'I', '-'].contains c

lemma exists_of_word? {w s : Text} {c : Char} {v : Json} {found : Json × Text}
    (h : word? (c :: w) v s = some found) : ∃ t, s = c :: t := by
  unfold word? at h
  split at h
  · rename_i hprefix
    obtain ⟨t, rfl⟩ := List.isPrefixOf_iff_prefix.1 hprefix
    exact ⟨_, List.cons_append ..⟩
  · cases h

lemma exists_of_scalar? {s : Text} {found : Json × Text} (h : scalar? s = some found) :
    ∃ c t, s = c :: t ∧ isScalarStart c = true := by
  have hword : ∀ {c : Char} {w : Text} {v : Json}, isScalarStart c = true →
      word? (c :: w) v s = some found → ∃ c t, s = c :: t ∧ isScalarStart c = true := by
    intro c w v hc hw
    obtain ⟨t, rfl⟩ := exists_of_word? hw
    exact ⟨c, t, rfl, hc⟩
  simp only [scalar?, Option.orElse_eq_orElse, Option.orElse_eq_or, Option.or_eq_some_iff] at h
  rcases h with h | ⟨-, h | ⟨-, h | ⟨-, h | ⟨-, h | ⟨-, h | ⟨-, h⟩⟩⟩⟩⟩⟩
  · exact hword rfl h
  · exact hword rfl h
  · exact hword rfl h
  · exact hword rfl h
  · exact hword rfl h
  · exact hword rfl h
  · obtain ⟨d, t, hd, rfl | rfl⟩ := exists_of_number? h
    · exact ⟨d, t, rfl, by rw [isScalarStart, hd, Bool.true_or]⟩
    · exact ⟨'-', _, rfl, rfl⟩

/-- Blanks between tokens. -/
def AreBlanks (b : Text) : Prop := ∀ c ∈ b, c = ' ' ∨ c = '\t' ∨ c = '\n' ∨ c = '\r'

/-- A text that starts with a token. -/
def StartsToken (s : Text) : Prop := ∃ c t, s = c :: t ∧ c ≠ ' ' ∧ c ≠ '\t' ∧ c ≠ '\n' ∧ c ≠ '\r'

lemma skipBlanks_append {b s : Text} (hb : AreBlanks b) (hs : StartsToken s) :
    skipBlanks (b ++ s) = s := by
  obtain ⟨c, t, rfl, hspace, htab, hnewline, hreturn⟩ := hs
  have hall : ∀ d ∈ b, (d == ' ' || d == '\t' || d == '\n' || d == '\r') = true := by
    intro d hd
    rcases hb d hd with rfl | rfl | rfl | rfl <;> rfl
  rw [skipBlanks, List.dropWhile_append_of_pos hall]
  simp [hspace, htab, hnewline, hreturn]

/-! ## Texts of documents -/

mutual

/-- The texts that a document can have. -/
inductive Spells : Text → Json → Prop where
  | null : Spells "null" null
  | bool (b : Bool) : Spells (if b then "true" else "false") (bool b)
  | int (n : Int) : Spells (Text.ofInt n) (int n)
  | real {x : Binary64} (h : x.IsRepresentable) : Spells (realText x) (real x)
  | str (s : Text) : Spells (quoted false s) (str s)
  | emptyList : Spells ['[', ']'] (arr [])
  | list {b t : Text} {xs : List Json} (hb : AreBlanks b) (h : SpellsItems t xs) :
    Spells ('[' :: (b ++ (t ++ [']']))) (arr xs)
  | emptyObject : Spells ['{', '}'] (obj [])
  | object {b t : Text} {ms : Members} (hb : AreBlanks b) (h : SpellsMembers t ms) :
    Spells ('{' :: (b ++ (t ++ ['}']))) (obj (Table.ofEntries ms))

/-- The texts between the brackets of a list, from the first item on. -/
inductive SpellsItems : Text → List Json → Prop where
  | last {t b : Text} {x : Json} (h : Spells t x) (hb : AreBlanks b) : SpellsItems (t ++ b) [x]
  | more {t b u : Text} {x : Json} {xs : List Json} (h : Spells t x) (hb : AreBlanks b)
    (hs : SpellsItems u xs) : SpellsItems (t ++ (',' :: (b ++ u))) (x :: xs)

/-- The texts between the braces of an object, from the first key on. -/
inductive SpellsMembers : Text → Members → Prop where
  | last {t b b' : Text} {k : Text} {x : Json} (hb : AreBlanks b) (h : Spells t x)
    (hb' : AreBlanks b') : SpellsMembers (quoted false k ++ (':' :: (b ++ (t ++ b')))) [(k, x)]
  | more {t b b' u : Text} {k : Text} {x : Json} {ms : Members} (hb : AreBlanks b)
    (h : Spells t x) (hb' : AreBlanks b') (hs : SpellsMembers u ms) :
    SpellsMembers (quoted false k ++ (':' :: (b ++ (t ++ (',' :: (b' ++ u)))))) ((k, x) :: ms)

end

/-- A character with which a value can start. -/
def isValueStart (c : Char) : Bool := isScalarStart c || ['"', '[', '{'].contains c

lemma endsNumber_nil : EndsNumber [] := fun _ hc => by cases hc

lemma exists_valueStart {t : Text} {found : Json × Text} (h : scalar? (t ++ []) = some found) :
    ∃ c r, t = c :: r ∧ isValueStart c = true := by
  rw [List.append_nil] at h
  obtain ⟨c, r, rfl, hc⟩ := exists_of_scalar? h
  exact ⟨c, r, rfl, by rw [isValueStart, hc, Bool.true_or]⟩

lemma exists_of_spells {t : Text} {v : Json} (h : Spells t v) :
    ∃ c r, t = c :: r ∧ isValueStart c = true := by
  cases h with
  | null => exact ⟨'n', _, rfl, rfl⟩
  | bool b => cases b <;> exact ⟨_, _, rfl, rfl⟩
  | int n => exact exists_valueStart (scalar?_ofInt n endsNumber_nil)
  | real h => exact exists_valueStart (scalar?_realText h endsNumber_nil)
  | str s => exact ⟨'"', _, rfl, rfl⟩
  | emptyList => exact ⟨'[', _, rfl, rfl⟩
  | list hb h => exact ⟨'[', _, rfl, rfl⟩
  | emptyObject => exact ⟨'{', _, rfl, rfl⟩
  | object hb h => exact ⟨'{', _, rfl, rfl⟩

lemma startsToken_of_isValueStart {c : Char} (h : isValueStart c = true) (r : Text) :
    StartsToken (c :: r) := by
  refine ⟨c, r, rfl, ?_, ?_, ?_, ?_⟩
  all_goals
    rintro rfl
    cases h

variable {t rest : Text} {v : Json} {xs : List Json} {ms : Members}

lemma Spells.startsToken (h : Spells t v) (rest : Text) : StartsToken (t ++ rest) := by
  obtain ⟨c, r, rfl, hc⟩ := exists_of_spells h
  exact startsToken_of_isValueStart hc _

lemma Spells.ne_closing (h : Spells t v) (rest after : Text) : t ++ rest ≠ ']' :: after := by
  obtain ⟨c, r, rfl, hc⟩ := exists_of_spells h
  intro heq
  obtain rfl : c = ']' := List.head_eq_of_cons_eq heq
  cases hc

lemma Spells.length_pos (h : Spells t v) : 0 < t.length := by
  obtain ⟨c, r, rfl, -⟩ := exists_of_spells h
  exact Nat.succ_pos _

/-! ## Reading -/

lemma value_of_scalar? {s : Text} {found : Json × Text} (h : scalar? s = some found) (bound : Nat) :
    value (bound + 1) s = .ok found := by
  obtain ⟨c, r, rfl, hc⟩ := exists_of_scalar? h
  unfold value
  split
  · rename_i heq
    obtain rfl : c = '"' := List.head_eq_of_cons_eq heq
    cases hc
  · rename_i heq
    obtain rfl : c = '[' := List.head_eq_of_cons_eq heq
    cases hc
  · rename_i heq
    obtain rfl : c = '{' := List.head_eq_of_cons_eq heq
    cases hc
  · rw [h]

/-- What stands behind a value in a list or an object does not continue a number. -/
lemma endsNumber_append {b : Text} (hb : AreBlanks b) {c : Char} (hc : c = ',' ∨ c = ']' ∨ c = '}')
    (rest : Text) : EndsNumber (b ++ c :: rest) := by
  intro d hd
  cases b with
  | nil =>
    obtain rfl : c = d := Option.some.inj hd
    rcases hc with rfl | rfl | rfl <;> decide
  | cons e b =>
    obtain rfl : e = d := Option.some.inj hd
    rcases hb e (List.mem_cons_self ..) with rfl | rfl | rfl | rfl <;> decide

lemma areBlanks_nil : AreBlanks [] := fun _ hc => absurd hc List.not_mem_nil

lemma startsToken_cons {c : Char} (hc : c ≠ ' ' ∧ c ≠ '\t' ∧ c ≠ '\n' ∧ c ≠ '\r') (s : Text) :
    StartsToken (c :: s) := ⟨c, s, rfl, hc⟩

lemma SpellsItems.startsToken (h : SpellsItems t xs) (rest : Text) : StartsToken (t ++ rest) := by
  cases h with
  | last h hb =>
    rw [List.append_assoc]
    exact h.startsToken _
  | more h hb hs =>
    rw [List.append_assoc]
    exact h.startsToken _

lemma SpellsItems.ne_closing (h : SpellsItems t xs) (rest after : Text) :
    t ++ rest ≠ ']' :: after := by
  cases h with
  | last h hb =>
    rw [List.append_assoc]
    exact h.ne_closing _ _
  | more h hb hs =>
    rw [List.append_assoc]
    exact h.ne_closing _ _

lemma SpellsMembers.exists_eq (h : SpellsMembers t ms) : ∃ r, t = '"' :: r := by
  cases h with
  | last hb h hb' => exact ⟨_, rfl⟩
  | more hb h hb' hs => exact ⟨_, rfl⟩

lemma string_quoted (k rest : Text) : ∃ r, quoted false k ++ rest = '"' :: r ∧
    string r = .ok (k, rest) :=
  ⟨_, by simp [quoted], string_append k rest⟩

lemma value_list {b : Text} (hb : AreBlanks b) (h : SpellsItems t xs) {bound : Nat}
    (hread : items bound (t ++ ']' :: rest) = .ok (xs, rest)) :
    value (bound + 1) ('[' :: (b ++ (t ++ [']'])) ++ rest) = .ok (arr xs, rest) := by
  have hskip : skipBlanks (b ++ (t ++ [']']) ++ rest) = t ++ ']' :: rest := by
    rw [List.append_assoc, List.append_assoc]
    exact skipBlanks_append hb (h.startsToken _)
  rw [List.cons_append]
  unfold value
  simp only [hskip]
  split
  · rename_i after heq
    exact absurd heq (h.ne_closing _ _)
  · rw [hread]
    rfl

lemma value_object {b : Text} (hb : AreBlanks b) (h : SpellsMembers t ms) {bound : Nat}
    (hread : members bound (t ++ '}' :: rest) = .ok (ms, rest)) :
    value (bound + 1) ('{' :: (b ++ (t ++ ['}'])) ++ rest) =
      .ok (obj (Table.ofEntries ms), rest) := by
  obtain ⟨r, rfl⟩ := h.exists_eq
  have hskip : skipBlanks (b ++ ('"' :: r ++ ['}']) ++ rest) = '"' :: r ++ '}' :: rest := by
    rw [List.append_assoc, List.append_assoc]
    exact skipBlanks_append hb (startsToken_cons (by decide) _)
  rw [List.cons_append]
  unfold value
  simp only [hskip]
  show (members bound ('"' :: r ++ '}' :: rest)).map _ = _
  rw [hread]
  rfl

lemma items_last {b : Text} (hb : AreBlanks b) {bound : Nat}
    (hread : value bound (t ++ (b ++ ']' :: rest)) = .ok (v, b ++ ']' :: rest)) :
    items (bound + 1) (t ++ b ++ ']' :: rest) = .ok ([v], rest) := by
  have hskip := skipBlanks_append hb (startsToken_cons (c := ']') (by decide) rest)
  rw [List.append_assoc]
  unfold items
  simp only [hread, hskip]

lemma items_more {b u : Text} (hb : AreBlanks b) (hs : SpellsItems u xs) {bound : Nat}
    (hread : value bound (t ++ ',' :: (b ++ (u ++ ']' :: rest))) =
      .ok (v, ',' :: (b ++ (u ++ ']' :: rest))))
    (hmore : items bound (u ++ ']' :: rest) = .ok (xs, rest)) :
    items (bound + 1) (t ++ (',' :: (b ++ u)) ++ ']' :: rest) = .ok (v :: xs, rest) := by
  have hcomma := skipBlanks_append areBlanks_nil
    (startsToken_cons (c := ',') (by decide) (b ++ (u ++ ']' :: rest)))
  have hskip := skipBlanks_append hb (hs.startsToken (']' :: rest))
  rw [List.append_assoc, List.cons_append, List.append_assoc]
  unfold items
  rw [List.nil_append] at hcomma
  simp only [hread, hcomma, hskip, hmore]
  rfl

lemma members_last {b k last after : Text} (hb : AreBlanks b) (h : Spells t v) {bound : Nat}
    (hread : value bound (t ++ after) = .ok (v, after)) (hafter : skipBlanks after = '}' :: last) :
    members (bound + 1) (quoted false k ++ (':' :: (b ++ (t ++ after)))) = .ok ([(k, v)], last) := by
  obtain ⟨r, hquoted, hstring⟩ := string_quoted k (':' :: (b ++ (t ++ after)))
  have hcolon := skipBlanks_append areBlanks_nil
    (startsToken_cons (c := ':') (by decide) (b ++ (t ++ after)))
  have hskip := skipBlanks_append hb (h.startsToken after)
  rw [List.nil_append] at hcolon
  rw [hquoted]
  unfold members
  simp only [hstring, hcolon, hskip, hread, hafter]

lemma members_more {b k next after last : Text} (hb : AreBlanks b) (h : Spells t v) {bound : Nat}
    (hread : value bound (t ++ after) = .ok (v, after)) (hafter : skipBlanks after = ',' :: next)
    (hmore : members bound (skipBlanks next) = .ok (ms, last)) :
    members (bound + 1) (quoted false k ++ (':' :: (b ++ (t ++ after)))) =
      .ok ((k, v) :: ms, last) := by
  obtain ⟨r, hquoted, hstring⟩ := string_quoted k (':' :: (b ++ (t ++ after)))
  have hcolon := skipBlanks_append areBlanks_nil
    (startsToken_cons (c := ':') (by decide) (b ++ (t ++ after)))
  have hskip := skipBlanks_append hb (h.startsToken after)
  rw [List.nil_append] at hcolon
  rw [hquoted]
  unfold members
  simp only [hstring, hcolon, hskip, hread, hafter, hmore]
  rfl

lemma SpellsMembers.startsToken (h : SpellsMembers t ms) (rest : Text) :
    StartsToken (t ++ rest) := by
  obtain ⟨r, rfl⟩ := h.exists_eq
  exact startsToken_cons (by decide) _

/-- The induction is on the bound, which every call of the reader lowers by one. -/
lemma reads (bound : Nat) :
    (∀ {t v}, Spells t v → ∀ {rest}, EndsNumber rest → 2 * t.length ≤ bound →
      value bound (t ++ rest) = .ok (v, rest)) ∧
    (∀ {t xs}, SpellsItems t xs → ∀ rest, 2 * t.length + 1 ≤ bound →
      items bound (t ++ ']' :: rest) = .ok (xs, rest)) ∧
    (∀ {t ms}, SpellsMembers t ms → ∀ rest, 2 * t.length + 1 ≤ bound →
      members bound (t ++ '}' :: rest) = .ok (ms, rest)) := by
  induction bound with
  | zero =>
    refine ⟨fun h _ _ hle => ?_, fun h _ hle => by omega, fun h _ hle => by omega⟩
    have := h.length_pos
    omega
  | succ bound ih =>
    obtain ⟨ihValue, ihItems, ihMembers⟩ := ih
    refine ⟨fun h rest hrest hle => ?_, fun h rest hle => ?_, fun h rest hle => ?_⟩
    · cases h with
      | null => exact value_of_scalar? (by simp [scalar?, word?]) bound
      | bool b =>
        cases b
        · exact value_of_scalar? (by simp [scalar?, word?]) bound
        · exact value_of_scalar? (by simp [scalar?, word?]) bound
      | int n => exact value_of_scalar? (scalar?_ofInt n hrest) bound
      | real h => exact value_of_scalar? (scalar?_realText h hrest) bound
      | str s =>
        obtain ⟨r, hquoted, hstring⟩ := string_quoted s rest
        rw [hquoted]
        unfold value
        simp only [hstring]
        rfl
      | emptyList => rfl
      | list hb h =>
        simp only [List.length_cons, List.length_append, List.length_nil] at hle
        exact value_list hb h (ihItems h rest (by omega))
      | emptyObject => rfl
      | object hb h =>
        simp only [List.length_cons, List.length_append, List.length_nil] at hle
        exact value_object hb h (ihMembers h rest (by omega))
    · cases h with
      | last h hb =>
        rw [List.length_append] at hle
        exact items_last hb (ihValue h (endsNumber_append hb (by decide) rest) (by omega))
      | more h hb hs =>
        simp only [List.length_cons, List.length_append] at hle
        exact items_more hb hs
          (ihValue h (endsNumber_append areBlanks_nil (by decide) _) (by omega))
          (ihItems hs rest (by omega))
    · cases h with
      | last hb h hb' =>
        simp only [List.length_cons, List.length_append] at hle
        have hread := ihValue h (endsNumber_append hb' (c := '}') (by decide) rest) (by omega)
        have hskip := skipBlanks_append hb' (startsToken_cons (c := '}') (by decide) rest)
        simp only [List.append_assoc, List.cons_append]
        exact members_last hb h hread hskip
      | @more t b b' u k x ms hb h hb' hs =>
        simp only [List.length_cons, List.length_append] at hle
        have hends : EndsNumber (',' :: (b' ++ (u ++ '}' :: rest))) :=
          endsNumber_append areBlanks_nil (by decide) _
        have hread := ihValue h hends (by omega)
        have hcomma := skipBlanks_append areBlanks_nil
          (startsToken_cons (c := ',') (by decide) (b' ++ (u ++ '}' :: rest)))
        have hskip := skipBlanks_append hb' (hs.startsToken ('}' :: rest))
        simp only [List.append_assoc, List.cons_append]
        refine members_more hb h hread hcomma ?_
        rw [hskip]
        exact ihMembers hs rest (by omega)

/-- **A text that a document can have is read as the document.** -/
theorem value_of_spells (h : Spells t v) (hrest : EndsNumber rest) {bound : Nat}
    (hbound : 2 * t.length ≤ bound) : value bound (t ++ rest) = .ok (v, rest) :=
  (reads bound).1 h hrest hbound

theorem parse_of_spells (h : Spells t v) : parse t = .ok v := by
  have hread : value (2 * t.length + 2) t = .ok (v, []) := by
    have hbound : 2 * t.length ≤ 2 * t.length + 2 := Nat.le_add_right ..
    have hread := value_of_spells h endsNumber_nil hbound
    rwa [List.append_nil] at hread
  have hskip : skipBlanks t = t := by
    have := skipBlanks_append areBlanks_nil (h.startsToken [])
    rwa [List.nil_append, List.append_nil] at this
  have hmark : ∀ r, t ≠ '\uFEFF' :: r := by
    intro r heq
    obtain ⟨c, r', rfl, hc⟩ := exists_of_spells h
    obtain rfl : c = '\uFEFF' := List.head_eq_of_cons_eq heq
    cases hc
  unfold parse
  split
  · rename_i r
    exact absurd rfl (hmark r)
  · simp only [hskip, hread]
    rfl

/-! ## Proper documents -/

mutual

/-- A document that a text can stand for: its numbers are numbers of the format, and no object has
two members with one key. -/
def IsProper : Json → Prop
  | real x => x.IsRepresentable
  | arr xs => AreProper xs
  | obj ms => (Table.keys ms).Nodup ∧ MembersAreProper ms
  | _ => True
termination_by structural v => v

/-- Proper items of a list. -/
def AreProper : List Json → Prop
  | [] => True
  | x :: xs => IsProper x ∧ AreProper xs
termination_by structural xs => xs

/-- Members with proper values. -/
def MembersAreProper : List (Text × Json) → Prop
  | [] => True
  | (_, x) :: ms => IsProper x ∧ MembersAreProper ms
termination_by structural ms => ms

end

lemma areProper_iff : AreProper xs ↔ ∀ x ∈ xs, IsProper x := by
  induction xs with
  | nil => simp [AreProper]
  | cons x xs ih => simp [AreProper, ih]

lemma membersAreProper_iff : MembersAreProper ms ↔ ∀ m ∈ ms, IsProper m.2 := by
  induction ms with
  | nil => simp [MembersAreProper]
  | cons m ms ih =>
    obtain ⟨k, x⟩ := m
    simp [MembersAreProper, ih]

/-! ## Writing -/

lemma areBlanks_newlineAt (depth : Nat) : AreBlanks (newlineAt depth) := by
  intro c hc
  rcases List.mem_cons.1 hc with rfl | hc
  · exact .inr (.inr (.inl rfl))
  · exact .inl (List.eq_of_mem_replicate hc)

mutual

/-- The indented layout. -/
lemma spells_pretty : ∀ (v : Json) (depth : Nat), v.IsProper → Spells (pretty false depth v) v
  | null, _, _ => .null
  | bool b, _, _ => by
    rw [pretty]
    exact .bool b
  | int n, _, _ => .int n
  | real x, _, h => .real h
  | str s, _, _ => .str s
  | arr xs, depth, h => by
    have hread := spells_prettyItems xs (depth + 1) depth
    cases xs with
    | nil => exact .emptyList
    | cons x xs =>
      obtain ⟨t, htext, hitems⟩ := hread (List.cons_ne_nil _ _) h
      rw [pretty, List.cons_append, List.cons_append, htext, List.append_assoc]
      exact .list (areBlanks_newlineAt _) hitems
  | obj ms, depth, h => by
    have hread := spells_prettyMembers ms (depth + 1) depth
    cases ms with
    | nil => exact .emptyObject
    | cons m ms =>
      obtain ⟨t, htext, hmembers⟩ := hread (List.cons_ne_nil _ _) h.2
      have hobject := Spells.object (areBlanks_newlineAt (depth + 1)) hmembers
      rw [Table.ofEntries_of_nodup h.1] at hobject
      rw [pretty, List.cons_append, List.cons_append, htext, List.append_assoc]
      exact hobject
termination_by structural v => v

/-- Items on lines of their own, up to the line of the closing bracket. -/
lemma spells_prettyItems : ∀ (xs : List Json) (depth depth' : Nat), xs ≠ [] → AreProper xs →
    ∃ t, prettyItems false depth xs ++ newlineAt depth' = newlineAt depth ++ t ∧ SpellsItems t xs
  | [], _, _, hne, _ => absurd rfl hne
  | x :: xs, depth, depth', _, h => by
    have hx := spells_pretty x depth h.1
    have hxs := spells_prettyItems xs depth depth'
    cases xs with
    | nil =>
      refine ⟨pretty false depth x ++ newlineAt depth', ?_, .last hx (areBlanks_newlineAt _)⟩
      simp [prettyItems]
    | cons y xs =>
      obtain ⟨t, htext, hitems⟩ := hxs (List.cons_ne_nil _ _) h.2
      refine ⟨pretty false depth x ++ ',' :: (newlineAt depth ++ t), ?_,
        .more hx (areBlanks_newlineAt _) hitems⟩
      rw [prettyItems, List.append_assoc, htext]
      simp
termination_by structural xs => xs

/-- Members on lines of their own, up to the line of the closing brace. -/
lemma spells_prettyMembers : ∀ (ms : List (Text × Json)) (depth depth' : Nat), ms ≠ [] →
    MembersAreProper ms → ∃ t, prettyMembers false depth ms ++ newlineAt depth' =
      newlineAt depth ++ t ∧ SpellsMembers t ms
  | [], _, _, hne, _ => absurd rfl hne
  | (k, x) :: ms, depth, depth', _, h => by
    have hx := spells_pretty x depth h.1
    have hms := spells_prettyMembers ms depth depth'
    have hspace : AreBlanks [' '] := fun c hc => .inl (List.mem_singleton.1 hc)
    have hcolon : ": ".toList = [':', ' '] := rfl
    cases ms with
    | nil =>
      refine ⟨_, ?_, .last hspace hx (areBlanks_newlineAt depth')⟩
      simp [prettyMembers, hcolon]
    | cons m ms =>
      obtain ⟨t, htext, hmembers⟩ := hms (List.cons_ne_nil _ _) h.2
      refine ⟨_, ?_, .more hspace hx (areBlanks_newlineAt depth) hmembers⟩
      rw [prettyMembers, List.append_assoc, htext]
      simp [hcolon]
termination_by structural ms => ms

end

mutual

/-- The compact layout. -/
lemma spells_compact : ∀ v : Json, v.IsProper → Spells (compact v) v
  | null, _ => .null
  | bool b, _ => by
    rw [compact]
    exact .bool b
  | int n, _ => .int n
  | real x, h => .real h
  | str s, _ => .str s
  | arr xs, h => by
    have hread := spells_compactItems xs
    cases xs with
    | nil => exact .emptyList
    | cons x xs => exact .list areBlanks_nil (hread (List.cons_ne_nil _ _) h)
  | obj ms, h => by
    have hread := spells_compactMembers ms
    cases ms with
    | nil => exact .emptyObject
    | cons m ms =>
      have hobject := Spells.object areBlanks_nil (hread (List.cons_ne_nil _ _) h.2)
      rwa [Table.ofEntries_of_nodup h.1] at hobject
termination_by structural v => v

lemma spells_compactItems : ∀ xs : List Json, xs ≠ [] → AreProper xs →
    SpellsItems (compactItems xs) xs
  | [], hne, _ => absurd rfl hne
  | x :: xs, _, h => by
    have hx := spells_compact x h.1
    have hxs := spells_compactItems xs
    cases xs with
    | nil =>
      have hlast := SpellsItems.last hx areBlanks_nil
      simpa [compactItems] using hlast
    | cons y xs =>
      have hmore := SpellsItems.more hx areBlanks_nil (hxs (List.cons_ne_nil _ _) h.2)
      rw [compactItems, List.append_assoc]
      exact hmore
termination_by structural xs => xs

lemma spells_compactMembers : ∀ ms : List (Text × Json), ms ≠ [] → MembersAreProper ms →
    SpellsMembers (compactMembers ms) ms
  | [], hne, _ => absurd rfl hne
  | (k, x) :: ms, _, h => by
    have hx := spells_compact x h.1
    have hms := spells_compactMembers ms
    cases ms with
    | nil =>
      have hlast := SpellsMembers.last (k := k) areBlanks_nil hx areBlanks_nil
      simpa [compactMembers] using hlast
    | cons m ms =>
      have hmore := SpellsMembers.more (k := k) areBlanks_nil hx areBlanks_nil
        (hms (List.cons_ne_nil _ _) h.2)
      rw [compactMembers]
      simpa using hmore
termination_by structural ms => ms

end

variable {v : Json}

/-- **A document file is read back.** -/
theorem parse_fileText (h : v.IsProper) : parse v.fileText = .ok v :=
  parse_of_spells (spells_pretty v 0 h)

/-- **A request body is read back.** -/
theorem parse_compact (h : v.IsProper) : parse v.compact = .ok v :=
  parse_of_spells (spells_compact v h)

end Scaffold.Json
