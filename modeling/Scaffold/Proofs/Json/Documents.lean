import Scaffold.Proofs.Json.Reading
import Scaffold.Proofs.World.Files

/-!
# Documents in files and from texts

What is read from a text is a proper document (`isProper_of_parse`), whatever the text is.  A proper
document that was written to a file is read back from it (`readDocument_of_write`): the one thing
that reading a file could change are carriage returns, and a written document has none
(`not_mem_fileText`).
-/

namespace Scaffold.Json

/-! ## Reading makes proper documents -/

lemma isProper_of_number? {s r : Text} {v : Json} (h : number? s = some (v, r)) : v.IsProper := by
  obtain ⟨⟨whole, after⟩, -, h⟩ := Option.bind_eq_some_iff.1 h
  simp only at h
  split at h
  · simp only [pure, Option.some.injEq, Prod.mk.injEq] at h
    rw [← h.1]
    trivial
  · simp only [pure, Option.some.injEq, Prod.mk.injEq] at h
    rw [← h.1]
    exact Binary64.isRepresentable_ofDecimal ..
  · simp only [pure, Option.some.injEq, Prod.mk.injEq] at h
    rw [← h.1]
    exact Binary64.isRepresentable_ofDecimal ..

lemma isProper_of_word? {w s r : Text} {v v' : Json} (h : word? w v' s = some (v, r))
    (hv : v'.IsProper) : v.IsProper := by
  unfold word? at h
  split at h
  · simp only [Option.some.injEq, Prod.mk.injEq] at h
    rwa [← h.1]
  · cases h

lemma isProper_of_scalar? {s r : Text} {v : Json} (h : scalar? s = some (v, r)) : v.IsProper := by
  simp only [scalar?, Option.orElse_eq_orElse, Option.orElse_eq_or, Option.or_eq_some_iff] at h
  rcases h with h | ⟨-, h | ⟨-, h | ⟨-, h | ⟨-, h | ⟨-, h | ⟨-, h⟩⟩⟩⟩⟩⟩
  · exact isProper_of_word? h trivial
  · exact isProper_of_word? h trivial
  · exact isProper_of_word? h trivial
  · exact isProper_of_word? h trivial
  · exact isProper_of_word? h trivial
  · exact isProper_of_word? h trivial
  · exact isProper_of_number? h

lemma exists_of_map {ε α β : Type} {f : α → β} {x : Except ε α} {b : β} (h : x.map f = .ok b) :
    ∃ a, x = .ok a ∧ f a = b := by
  cases x with
  | error e => cases h
  | ok a => exact ⟨a, rfl, Except.ok.inj h⟩

section Step

variable {bound : Nat} {s r : Text} {v : Json} {xs : List Json} {ms : List (Text × Json)}
  (hvalue : ∀ {s v r}, value bound s = .ok (v, r) → IsProper v)
  (hitems : ∀ {s xs r}, items bound s = .ok (xs, r) → AreProper xs)
  (hmembers : ∀ {s ms r}, members bound s = .ok (ms, r) → MembersAreProper ms)

include hitems hmembers in
lemma isProper_of_value_succ (h : value (bound + 1) s = .ok (v, r)) : IsProper v := by
  unfold value at h
  split at h
  · obtain ⟨⟨t, after⟩, -, heq⟩ := exists_of_map h
    rw [← (Prod.mk.inj heq).1]
    trivial
  · split at h
    · rw [← (Prod.mk.inj (Except.ok.inj h)).1]
      trivial
    · obtain ⟨⟨xs, after⟩, hread, heq⟩ := exists_of_map h
      rw [← (Prod.mk.inj heq).1]
      exact hitems hread
  · split at h
    · rw [← (Prod.mk.inj (Except.ok.inj h)).1]
      exact ⟨List.nodup_nil, trivial⟩
    · obtain ⟨⟨ms, after⟩, hread, heq⟩ := exists_of_map h
      rw [← (Prod.mk.inj heq).1]
      -- a key that comes twice is kept once, with its last value
      have hms := membersAreProper_iff.1 (hmembers hread)
      exact ⟨Table.nodup_keys_ofEntries ms, membersAreProper_iff.2 fun m hm =>
        hms m (Table.mem_of_mem_ofEntries hm)⟩
  · split at h
    · rename_i found hfound
      obtain rfl := Except.ok.inj h
      exact isProper_of_scalar? hfound
    · cases h

include hvalue hitems in
lemma areProper_of_items_succ (h : items (bound + 1) s = .ok (xs, r)) : AreProper xs := by
  unfold items at h
  split at h
  · cases h
  · rename_i x rest hread
    split at h
    · rw [← (Prod.mk.inj (Except.ok.inj h)).1]
      exact ⟨hvalue hread, trivial⟩
    · obtain ⟨⟨xs, after⟩, hmore, heq⟩ := exists_of_map h
      rw [← (Prod.mk.inj heq).1]
      exact ⟨hvalue hread, hitems hmore⟩
    · cases h

include hvalue hmembers in
lemma membersAreProper_of_members_succ (h : members (bound + 1) s = .ok (ms, r)) : MembersAreProper ms := by
  unfold members at h
  split at h
  · split at h
    · cases h
    · split at h
      · split at h
        · cases h
        · rename_i x rest hread
          split at h
          · rw [← (Prod.mk.inj (Except.ok.inj h)).1]
            exact ⟨hvalue hread, trivial⟩
          · obtain ⟨⟨ms, after⟩, hmore, heq⟩ := exists_of_map h
            rw [← (Prod.mk.inj heq).1]
            exact ⟨hvalue hread, hmembers hmore⟩
          · cases h
      · cases h
  · cases h

end Step

/-- The induction is on the bound, as in reading itself. -/
lemma proper_reads (bound : Nat) :
    (∀ {s v r}, value bound s = .ok (v, r) → IsProper v) ∧
    (∀ {s xs r}, items bound s = .ok (xs, r) → AreProper xs) ∧
    (∀ {s ms r}, members bound s = .ok (ms, r) → MembersAreProper ms) := by
  induction bound with
  | zero =>
    refine ⟨fun h => ?_, fun h => ?_, fun h => ?_⟩
    · cases h
    · cases h
    · cases h
  | succ bound ih =>
    obtain ⟨hvalue, hitems, hmembers⟩ := ih
    exact ⟨isProper_of_value_succ hitems hmembers, areProper_of_items_succ hvalue hitems,
      membersAreProper_of_members_succ hvalue hmembers⟩

/-- **What is read from a text is proper.** -/
theorem isProper_of_parse {t : Text} {v : Json} (h : parse t = .ok v) : v.IsProper := by
  unfold parse at h
  simp only at h
  split at h
  · cases h
  · split at h
    · cases h
    · rename_i hread
      split at h
      · obtain rfl := Except.ok.inj h
        exact (proper_reads _).1 hread
      · cases h

/-! ## Written documents have no carriage returns -/

lemma not_mem_of_areDigits {ds : Text} (h : AreDigits ds) : '\r' ∉ ds := fun hc =>
  absurd (h _ hc) (by decide)

lemma not_mem_ofInt (n : Int) : '\r' ∉ Text.ofInt n := by
  cases n with
  | ofNat n => exact not_mem_of_areDigits (areDigits_ofNat n)
  | negSucc n => simpa [Text.ofInt] using not_mem_of_areDigits (areDigits_ofNat (n + 1))

lemma not_mem_replicate_zero (n : Nat) : '\r' ∉ List.replicate n '0' :=
  not_mem_of_areDigits (areDigits_replicate n)

lemma not_mem_ofNat (n : Nat) : '\r' ∉ Text.ofNat n := not_mem_of_areDigits (areDigits_ofNat n)

lemma not_mem_exponentText (e : Int) : '\r' ∉ exponentText e := by
  unfold exponentText Text.padLeft
  have hsign : '\r' ∉ (if e < 0 then "-" else "+").toList := by split <;> decide
  simp only [List.mem_append, not_or]
  exact ⟨⟨by decide, hsign⟩, not_mem_replicate_zero _, not_mem_ofNat _⟩

lemma not_mem_positionalOrExponent {ds : Text} (hds : '\r' ∉ ds) (point : Int) :
    '\r' ∉ Binary64.positionalOrExponent ds point := by
  have htake n : '\r' ∉ ds.take n := fun h => hds (List.mem_of_mem_take h)
  have hdrop n : '\r' ∉ ds.drop n := fun h => hds (List.mem_of_mem_drop h)
  have hpoint : '\r' ∉ ".".toList := by decide
  have hzero : '\r' ∉ "0.".toList := by decide
  have hwhole : '\r' ∉ ".0".toList := by decide
  unfold Binary64.positionalOrExponent
  split
  · split
    · simp only [List.mem_append, not_or]
      exact ⟨⟨hzero, not_mem_replicate_zero _⟩, hds⟩
    · simp only
      split
      · simp only [List.mem_append, not_or]
        exact ⟨⟨hds, not_mem_replicate_zero _⟩, hwhole⟩
      · simp only [List.mem_append, not_or]
        exact ⟨⟨htake _, hpoint⟩, hdrop _⟩
  · have hexponent := not_mem_exponentText (point - 1)
    simp only [exponentText, List.mem_append, not_or] at hexponent
    simp only [List.mem_append, not_or]
    refine ⟨⟨⟨?_, hexponent.1.1⟩, hexponent.1.2⟩, hexponent.2⟩
    match ds, hds with
    | [], h => exact h
    | [_], h => exact h
    | _ :: _ :: _, h =>
      simp only [List.mem_cons, not_or] at h ⊢
      exact ⟨h.1, by decide, h.2⟩

lemma not_mem_realText (x : Binary64) : '\r' ∉ realText x := by
  have hsign (negative : Bool) : '\r' ∉ (if negative then ['-'] else []) := by
    cases negative <;> decide
  cases x with
  | nan => decide
  | infinite negative => cases negative <;> decide
  | finite negative units =>
    have hmagnitude : '\r' ∉ Binary64.magnitudeText units := by
      unfold Binary64.magnitudeText
      split
      · decide
      · refine not_mem_positionalOrExponent (fun h => ?_) _
        obtain ⟨w, happend, -, -⟩ :=
          Text.exists_dropRightWhile (· == '0') (Text.ofNat (Binary64.shortest units).digits)
        exact not_mem_ofNat _ (happend ▸ List.mem_append_left w h)
    rw [realText, Binary64.text, List.mem_append, not_or]
    exact ⟨hsign negative, hmagnitude⟩

lemma not_mem_escapeChar (c : Char) : '\r' ∉ escapeChar false c := by
  unfold escapeChar
  split_ifs with _ _ _ hreturn _ _ _ hcontrol
  all_goals try decide
  · have hlow : c.toNat < 0x20 := by simpa using hcontrol
    have hall : ∀ n < 0x20, '\r' ∉ unicodeEscape n := by decide
    rw [utf16Escape]
    simp only [if_pos (show c.toNat < 0x10000 by omega)]
    exact hall _ hlow
  · simpa using Ne.symm hreturn

lemma not_mem_quoted (s : Text) : '\r' ∉ quoted false s := by
  have hchars : '\r' ∉ s.flatMap (escapeChar false) := fun h => by
    obtain ⟨c, -, hc⟩ := List.mem_flatMap.1 h
    exact not_mem_escapeChar c hc
  simp [quoted, hchars]

lemma not_mem_newlineAt (depth : Nat) : '\r' ∉ newlineAt depth := by
  simp [newlineAt]

mutual

lemma not_mem_pretty : ∀ (v : Json) (depth : Nat), '\r' ∉ pretty false depth v
  | null, _ => by
    rw [pretty]
    decide
  | bool b, _ => by
    rw [pretty]
    cases b <;> decide
  | int n, _ => not_mem_ofInt n
  | real x, _ => not_mem_realText x
  | str s, _ => not_mem_quoted s
  | arr xs, depth => by
    have hxs := not_mem_prettyItems xs (depth + 1)
    cases xs with
    | nil =>
      rw [pretty]
      decide
    | cons x xs => simp [pretty, hxs, not_mem_newlineAt]
  | obj ms, depth => by
    have hms := not_mem_prettyMembers ms (depth + 1)
    cases ms with
    | nil =>
      rw [pretty]
      decide
    | cons m ms => simp [pretty, hms, not_mem_newlineAt]
termination_by structural v => v

lemma not_mem_prettyItems : ∀ (xs : List Json) (depth : Nat), '\r' ∉ prettyItems false depth xs
  | [], _ => List.not_mem_nil
  | x :: xs, depth => by
    have hx := not_mem_pretty x depth
    have hxs := not_mem_prettyItems xs depth
    rw [prettyItems]
    split
    · simp [hx, hxs, not_mem_newlineAt]
    · simp [hx, hxs, not_mem_newlineAt]
termination_by structural xs => xs

lemma not_mem_prettyMembers :
    ∀ (ms : List (Text × Json)) (depth : Nat), '\r' ∉ prettyMembers false depth ms
  | [], _ => List.not_mem_nil
  | (k, x) :: ms, depth => by
    have hx := not_mem_pretty x depth
    have hms := not_mem_prettyMembers ms depth
    rw [prettyMembers]
    split
    · simp [hx, hms, not_mem_newlineAt, not_mem_quoted]
    · simp [hx, hms, not_mem_newlineAt, not_mem_quoted]
termination_by structural ms => ms

end

lemma not_mem_fileText (v : Json) : '\r' ∉ v.fileText := not_mem_pretty v 0

end Scaffold.Json

namespace Scaffold.Files

variable {p : Path} {w w' : World} {v : Json} {n : Nat}

/-- **A document that was written is read back.** -/
theorem readDocument_of_write (h : (writeDocument p v).runOn w = (.ok n, w')) (hv : v.IsProper) :
    (readDocument p).runOn w' = (.ok v, w') := by
  have hread := readText_of_write h (Json.not_mem_fileText v)
  rw [readDocument, Act.runOn_bind, read, Act.runOn_look, hread]
  simp only [Act.runOn_ofExcept, document, Json.parse_fileText hv]
  rfl

end Scaffold.Files
