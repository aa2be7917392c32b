import Mathlib.Data.List.Perm.Subperm
import Mathlib.Tactic.Common
import Scaffold.Artifact.Members
import Scaffold.Proofs.Names
import Scaffold.Proofs.Table

/-!
# The keys of enumeration members are distinct

A key that is taken gets a number, counted up from the last number that was given out under it until
the numbered key is free.  The numbered keys of one base are all different, so among one more of them
than there are keys in use one is free, and counting ends (`countsTo_freeNumber`).

The keys in use are the keys issued so far (`keys_usedAfter`): a base that is looked up first is either
issued as it stands or was issued before as the numbered key of another base.  Distinctness is therefore
one fact about one step, that the key it issues was not in use (`nextKey_not_mem`).
-/

namespace Scaffold

open Literal

namespace Members

variable {used : List (Text × Nat)} {base value : Text} {values : List Text} {count k : Nat}
  {members : List (Text × Text)}

/-! ## What keys look like -/

/-- A character of a key. -/
def isKeyChar (c : Char) : Bool := Text.isAsciiUpper c || Text.isAsciiDigit c || c == '_'

/-- An identifier of upper-case letters, digits and underscores. -/
structure IsKey (key : Text) : Prop where
  identifier : Text.isExactIdentifier key = true
  chars : ∀ c ∈ key, isKeyChar c = true

lemma isIdentifierRest_of_isKeyChar {c : Char} (h : isKeyChar c = true) :
    Text.isIdentifierRest c = true := by
  simp only [isKeyChar, Bool.or_eq_true] at h
  simp only [Text.isIdentifierRest, Text.isIdentifierStart, Bool.or_eq_true]
  tauto

lemma isIdentifierStart_of_isKeyChar {c : Char} (h : isKeyChar c = true)
    (hdigit : Text.isAsciiDigit c = false) : Text.isIdentifierStart c = true := by
  simp only [isKeyChar, hdigit, Bool.or_false, Bool.or_eq_true] at h
  simp only [Text.isIdentifierStart, Bool.or_eq_true]
  tauto

/-- A key is recognised at its first character. -/
lemma isKey_cons {c : Char} {rest : Text} (hc : isKeyChar c = true)
    (hdigit : Text.isAsciiDigit c = false) (hrest : ∀ d ∈ rest, isKeyChar d = true) :
    IsKey (c :: rest) where
  identifier := by
    rw [Text.isExactIdentifier, isIdentifierStart_of_isKeyChar hc hdigit, Bool.true_and,
      List.all_eq_true]
    exact fun d hd => isIdentifierRest_of_isKeyChar (hrest d hd)
  chars := List.forall_mem_cons.2 ⟨hc, hrest⟩

/-- The key of a value is the value in upper case with the other characters replaced, with an
underscore in front of a digit or of nothing. -/
lemma isKey_enumKey (value : Text) : IsKey (enumKey value) := by
  set replaced := (Text.upper value).map fun c =>
    if Text.isAsciiUpper c || Text.isAsciiDigit c then c else '_' with hreplaced
  have hchars : ∀ c ∈ replaced, isKeyChar c = true := by
    intro c hc
    obtain ⟨d, -, rfl⟩ := List.mem_map.1 hc
    split
    · rename_i hd
      rw [isKeyChar, hd, Bool.true_or]
    · rfl
  unfold enumKey
  simp only [← hreplaced]
  cases hcases : replaced with
  | nil => exact isKey_cons rfl rfl nofun
  | cons c rest =>
    rw [hcases] at hchars
    simp only
    split
    · exact isKey_cons rfl rfl hchars
    · rename_i hdigit
      obtain ⟨hc, hrest⟩ := List.forall_mem_cons.1 hchars
      exact isKey_cons hc (by simpa using hdigit) hrest

lemma isAsciiDigit_of_mem_ofNat {c : Char} (h : c ∈ Text.ofNat k) : Text.isAsciiDigit c = true := by
  have hdigit : c.isDigit = true := Nat.isDigit_of_mem_toDigits (by decide) (by decide) h
  simp only [Char.isDigit, Bool.and_eq_true, decide_eq_true_eq] at hdigit
  simp only [Text.isAsciiDigit, Bool.and_eq_true, decide_eq_true_eq]
  exact hdigit

lemma IsKey.numbered (h : IsKey base) (k : Nat) : IsKey (numbered base k) := by
  obtain ⟨c, rest, rfl⟩ := List.exists_cons_of_ne_nil (Text.ne_nil_of_isExactIdentifier h.identifier)
  have hnumber : ∀ d ∈ '_' :: Text.ofNat k, isKeyChar d = true := by
    refine List.forall_mem_cons.2 ⟨rfl, fun d hd => ?_⟩
    rw [isKeyChar, isAsciiDigit_of_mem_ofNat hd, Bool.or_true, Bool.true_or]
  have hall : ∀ d ∈ c :: rest ++ '_' :: Text.ofNat k, isKeyChar d = true :=
    List.forall_mem_append.2 ⟨h.chars, hnumber⟩
  refine ⟨?_, hall⟩
  have hstart := h.identifier
  rw [Text.isExactIdentifier, Bool.and_eq_true] at hstart
  rw [Members.numbered, List.cons_append, Text.isExactIdentifier, hstart.1, Bool.true_and,
    List.all_eq_true]
  exact fun d hd => isIdentifierRest_of_isKeyChar (hall d (List.mem_cons_of_mem _ hd))

/-! ## Counting up -/

/-- The numbered keys of one base are different. -/
lemma numbered_injective (base : Text) : Function.Injective (numbered base) := by
  intro i j h
  have hdigits : Nat.toDigits 10 i = Nat.toDigits 10 j :=
    (List.cons.inj (List.append_cancel_left h)).2
  have hread := congrArg (fun digits => Nat.ofDigitChars 10 digits 0) hdigits
  simpa using hread

/-- Counting up from one number ends at another: the numbered keys in between are taken, the last
one is free. -/
inductive CountsTo (used : List (Text × Nat)) (base : Text) : Nat → Nat → Prop where
  | free {count : Nat} : numbered base (count + 1) ∉ Table.keys used →
      CountsTo used base count (count + 1)
  | taken {count k : Nat} : numbered base (count + 1) ∈ Table.keys used →
      CountsTo used base (count + 1) k → CountsTo used base count k

lemma CountsTo.lt (h : CountsTo used base count k) : count < k := by
  induction h with
  | free => exact Nat.lt_succ_self _
  | taken _ _ ih => exact Nat.lt_of_succ_lt ih

lemma CountsTo.not_mem (h : CountsTo used base count k) : numbered base k ∉ Table.keys used := by
  induction h with
  | free hfree => exact hfree
  | taken _ _ ih => exact ih

/-- Counting ends at one number only. -/
lemma CountsTo.unique {k' : Nat} (h : CountsTo used base count k) (h' : CountsTo used base count k') :
    k = k' := by
  induction h with
  | free hfree =>
    cases h' with
    | free => rfl
    | taken htaken => exact absurd htaken hfree
  | taken htaken _ ih =>
    cases h' with
    | free hfree => exact absurd htaken hfree
    | taken _ h' => exact ih h'

/-- Among one more number than there are keys in use, one has a free key. -/
lemma exists_free (used : List (Text × Nat)) (base : Text) (count : Nat) :
    ∃ k ∈ List.range' (count + 1) (used.length + 1), numbered base k ∉ Table.keys used := by
  by_contra hnone
  push Not at hnone
  have hnodup : ((List.range' (count + 1) (used.length + 1)).map (numbered base)).Nodup :=
    List.Nodup.map (numbered_injective base) List.nodup_range'
  have hsubset : (List.range' (count + 1) (used.length + 1)).map (numbered base) ⊆ Table.keys used := by
    intro key hkey
    obtain ⟨k, hk, rfl⟩ := List.mem_map.1 hkey
    exact hnone k hk
  have hlength := (List.subperm_of_subset hnodup hsubset).length_le
  simp only [List.length_map, List.length_range', Table.keys] at hlength
  omega

/-- Where all numbers up to a free one are taken, counting ends there. -/
lemma countsTo_of_taken (hlt : count < k) (hfree : numbered base k ∉ Table.keys used)
    (htaken : ∀ j, count < j → j < k → numbered base j ∈ Table.keys used) :
    CountsTo used base count k := by
  obtain ⟨n, rfl⟩ := Nat.exists_eq_add_of_lt hlt
  induction n generalizing count with
  | zero => exact .free hfree
  | succ n ih =>
    have hnext : count + (n + 1) + 1 = count + 1 + n + 1 := by omega
    refine .taken (htaken _ (by omega) (by omega)) ?_
    rw [hnext] at hfree htaken ⊢
    exact ih (by omega) hfree fun j hj => htaken j (by omega)

/-- **Counting ends**, and where it ends is the number that is given out. -/
theorem countsTo_freeNumber (used : List (Text × Nat)) (base : Text) (count : Nat) :
    CountsTo used base count (freeNumber used base count) := by
  obtain ⟨k, hk, hfree⟩ := exists_free used base count
  have hsome : ((List.range' (count + 1) (used.length + 1)).find? fun k =>
      numbered base k ∉ Table.keys used).isSome := by
    rw [List.find?_isSome]
    exact ⟨k, hk, by simpa using hfree⟩
  obtain ⟨first, hfirst⟩ := Option.isSome_iff_exists.1 hsome
  have hnumber : freeNumber used base count = first := by rw [freeNumber, hfirst, Option.getD_some]
  obtain ⟨hkey, hmem, hbefore⟩ := List.find?_range'_eq_some.1 hfirst
  rw [hnumber]
  refine countsTo_of_taken ?_ (by simpa using hkey) fun j hj hlt => ?_
  · have := List.mem_range'_1.1 hmem
    omega
  · simpa using hbefore j hj hlt

/-! ## One value -/

lemma nextKey_of_not_mem (h : base ∉ Table.keys used) :
    nextKey used base = (base, used ++ [(base, 1)]) := by
  rw [nextKey, Table.find?_eq_none_of_not_mem h]

lemma nextKey_of_find? (h : Table.find? base used = some count) :
    nextKey used base = (numbered base (freeNumber used base count),
      Table.put base (freeNumber used base count) used ++
        [(numbered base (freeNumber used base count), 1)]) := by
  rw [nextKey, h]

/-- What is counted under keys starts at one. -/
def CountsFromOne (used : List (Text × Nat)) : Prop := ∀ e ∈ used, 1 ≤ e.2

/-- The key that is issued was not in use. -/
lemma nextKey_not_mem (used : List (Text × Nat)) (base : Text) :
    (nextKey used base).1 ∉ Table.keys used := by
  by_cases h : base ∈ Table.keys used
  · obtain ⟨count, hcount⟩ := Table.exists_find?_of_mem_keys h
    rw [nextKey_of_find? hcount]
    exact (countsTo_freeNumber used base count).not_mem
  · rwa [nextKey_of_not_mem h]

/-- The keys in use grow by the key that is issued. -/
lemma keys_nextKey (used : List (Text × Nat)) (base : Text) :
    Table.keys (nextKey used base).2 = Table.keys used ++ [(nextKey used base).1] := by
  by_cases h : base ∈ Table.keys used
  · obtain ⟨count, hcount⟩ := Table.exists_find?_of_mem_keys h
    have hput := Table.keys_put base (freeNumber used base count) used
    rw [if_pos h] at hput
    rw [nextKey_of_find? hcount, Table.keys, List.map_append, ← Table.keys, hput]
    rfl
  · rw [nextKey_of_not_mem h, Table.keys, List.map_append]
    rfl

/-- A key is its base, or the base was in use and the key is the base with a number above one. -/
lemma nextKey_cases (hused : CountsFromOne used) (base : Text) :
    (base ∉ Table.keys used ∧ (nextKey used base).1 = base) ∨
      (base ∈ Table.keys used ∧ ∃ k, 2 ≤ k ∧ (nextKey used base).1 = numbered base k) := by
  by_cases h : base ∈ Table.keys used
  · obtain ⟨count, hcount⟩ := Table.exists_find?_of_mem_keys h
    have hone : 1 ≤ count := hused _ (Table.mem_of_find? hcount)
    have hlt := (countsTo_freeNumber used base count).lt
    refine .inr ⟨h, freeNumber used base count, Nat.lt_of_le_of_lt hone hlt, ?_⟩
    rw [nextKey_of_find? hcount]
  · exact .inl ⟨h, by rw [nextKey_of_not_mem h]⟩

lemma CountsFromOne.nextKey (hused : CountsFromOne used) (base : Text) :
    CountsFromOne (nextKey used base).2 := by
  intro e he
  by_cases h : base ∈ Table.keys used
  · obtain ⟨count, hcount⟩ := Table.exists_find?_of_mem_keys h
    rw [nextKey_of_find? hcount] at he
    rcases List.mem_append.1 he with he | he
    · rcases Table.mem_put he with he | rfl
      · exact hused e he
      · exact Nat.one_le_of_lt (countsTo_freeNumber used base count).lt
    · obtain rfl := List.mem_singleton.1 he
      exact le_rfl
  · rw [nextKey_of_not_mem h] at he
    rcases List.mem_append.1 he with he | he
    · exact hused e he
    · obtain rfl := List.mem_singleton.1 he
      exact le_rfl

lemma isKey_nextKey (used : List (Text × Nat)) (h : IsKey base) : IsKey (nextKey used base).1 := by
  unfold nextKey
  split
  · exact h
  · exact h.numbered _

/-! ## All values -/

/-- The keys in use after several values. -/
def usedAfter (used : List (Text × Nat)) (values : List Text) : List (Text × Nat) :=
  values.foldl (fun used value => (nextKey used (enumKey value)).2) used

lemma assign_cons (used : List (Text × Nat)) (value : Text) (values : List Text) :
    assign used (value :: values) = ((nextKey used (enumKey value)).1, value) ::
      assign (nextKey used (enumKey value)).2 values := rfl

lemma assign_append (used : List (Text × Nat)) (values later : List Text) :
    assign used (values ++ later) = assign used values ++ assign (usedAfter used values) later := by
  induction values generalizing used with
  | nil => rfl
  | cons value values ih =>
    rw [List.cons_append, assign_cons, assign_cons, ih, List.cons_append, usedAfter, usedAfter,
      List.foldl_cons]

lemma map_snd_assign (values : List Text) (used : List (Text × Nat)) :
    (assign used values).map Prod.snd = values := by
  induction values generalizing used with
  | nil => rfl
  | cons value values ih => rw [assign_cons, List.map_cons, ih]

lemma isKey_of_mem_assign {m : Text × Text} (hm : m ∈ assign used values) : IsKey m.1 := by
  induction values generalizing used with
  | nil => cases hm
  | cons value values ih =>
    rw [assign_cons] at hm
    rcases List.mem_cons.1 hm with rfl | hm
    · exact isKey_nextKey used (isKey_enumKey value)
    · exact ih hm

/-- **The keys in use are the keys issued**, in order, behind those in use before. -/
lemma keys_usedAfter (used : List (Text × Nat)) (values : List Text) :
    Table.keys (usedAfter used values) = Table.keys used ++ Table.keys (assign used values) := by
  induction values generalizing used with
  | nil => exact (List.append_nil _).symm
  | cons value values ih =>
    have hafter : usedAfter used (value :: values) =
        usedAfter (nextKey used (enumKey value)).2 values := rfl
    rw [hafter, ih, keys_nextKey, List.append_assoc]
    rfl

lemma CountsFromOne.usedAfter (hused : CountsFromOne used) (values : List Text) :
    CountsFromOne (usedAfter used values) := by
  induction values generalizing used with
  | nil => exact hused
  | cons value values ih => exact ih (hused.nextKey _)

/-- Keys are not issued twice, and no key in use is issued. -/
lemma nodup_keys_usedAfter (hused : (Table.keys used).Nodup) (values : List Text) :
    (Table.keys (usedAfter used values)).Nodup := by
  induction values generalizing used with
  | nil => exact hused
  | cons value values ih =>
    refine ih ?_
    rw [keys_nextKey]
    rw [← List.concat_eq_append]
    exact hused.concat (nextKey_not_mem used _)

/-- Every key comes from the base of its value. -/
lemma cases_of_mem_assign (hused : CountsFromOne used) {m : Text × Text} (hm : m ∈ assign used values) :
    m.1 = enumKey m.2 ∨ ∃ k, 2 ≤ k ∧ m.1 = numbered (enumKey m.2) k := by
  induction values generalizing used with
  | nil => cases hm
  | cons value values ih =>
    rw [assign_cons] at hm
    rcases List.mem_cons.1 hm with rfl | hm
    · rcases nextKey_cases hused (enumKey value) with ⟨-, hkey⟩ | ⟨-, hkey⟩
      · exact .inl hkey
      · exact .inr hkey
    · exact ih (hused.nextKey _) hm

/-! ## The members of an enumeration -/

/-- The making of members, given the keys in use, with each step of counting: a free base is the key
of its value, a taken one is counted up. -/
inductive Makes : List (Text × Nat) → List Text → List (Text × Text) → Prop where
  | nil (used : List (Text × Nat)) : Makes used [] []
  | bare {used : List (Text × Nat)} {value : Text} {values : List Text} {members : List (Text × Text)} :
      enumKey value ∉ Table.keys used →
      Makes (used ++ [(enumKey value, 1)]) values members →
      Makes used (value :: values) ((enumKey value, value) :: members)
  | counted {used : List (Text × Nat)} {value : Text} {values : List Text}
      {members : List (Text × Text)} {count k : Nat} :
      Table.find? (enumKey value) used = some count →
      CountsTo used (enumKey value) count k →
      Makes (Table.put (enumKey value) k used ++ [(numbered (enumKey value) k, 1)]) values members →
      Makes used (value :: values) ((numbered (enumKey value) k, value) :: members)

/-- **The making of members ends** with one result. -/
theorem makes_iff : Makes used values members ↔ members = assign used values := by
  constructor
  · intro h
    induction h with
    | nil => rfl
    | bare hfree _ ih => rw [ih, assign_cons, nextKey_of_not_mem hfree]
    | counted hcount hk _ ih =>
      rw [ih, assign_cons, nextKey_of_find? hcount, hk.unique (countsTo_freeNumber _ _ _)]
  · rintro rfl
    induction values generalizing used with
    | nil => exact .nil used
    | cons value values ih =>
      rw [assign_cons]
      by_cases h : enumKey value ∈ Table.keys used
      · obtain ⟨count, hcount⟩ := Table.exists_find?_of_mem_keys h
        rw [nextKey_of_find? hcount]
        exact .counted hcount (countsTo_freeNumber _ _ _) ih
      · rw [nextKey_of_not_mem h]
        exact .bare h ih

/-- What the members of an enumeration are to be: one for every value, with distinct identifiers as
keys, each made from its value.  The first value of a base has the base as its key, unless an earlier
value was given it as a numbered key of another base. -/
structure HaveDistinctKeys (values : List Text) (members : List (Text × Text)) : Prop where
  values : members.map Prod.snd = values
  distinct : (members.map Prod.fst).Nodup
  keys : ∀ m ∈ members, IsKey m.1
  bases : ∀ m ∈ members, m.1 = enumKey m.2 ∨ ∃ k, 2 ≤ k ∧ m.1 = numbered (enumKey m.2) k
  first : ∀ before m after, members = before ++ m :: after →
    (∀ e ∈ before, enumKey e.2 ≠ enumKey m.2) →
    m.1 = enumKey m.2 ∨
      ∃ e ∈ before, e.1 = enumKey m.2 ∧ ∃ k, 2 ≤ k ∧ e.1 = numbered (enumKey e.2) k

/-- The base of the first value that has it is free, or it is a numbered key that was issued before. -/
lemma first_of_base {earlier : List Text} (hbase : ∀ v ∈ earlier, enumKey v ≠ enumKey value) :
    (nextKey (usedAfter [] earlier) (enumKey value)).1 = enumKey value ∨
      ∃ e ∈ assign [] earlier, e.1 = enumKey value ∧ ∃ k, 2 ≤ k ∧ e.1 = numbered (enumKey e.2) k := by
  have hnone : CountsFromOne [] := nofun
  rcases nextKey_cases (hnone.usedAfter earlier) (enumKey value) with ⟨-, hkey⟩ | ⟨hmem, -⟩
  · exact .inl hkey
  · rw [keys_usedAfter] at hmem
    obtain ⟨e, he, hkey⟩ := List.mem_map.1 hmem
    refine .inr ⟨e, he, hkey, ?_⟩
    have hvalue : e.2 ∈ earlier := by
      rw [← map_snd_assign earlier []]
      exact List.mem_map_of_mem he
    rcases cases_of_mem_assign hnone he with hbare | hnumbered
    · exact absurd (hbare.symm.trans hkey) (hbase e.2 hvalue)
    · exact hnumbered

/-- **The members of an enumeration have distinct keys**, whatever the values are, and the making of
them ends. -/
theorem makes_distinct_keys (values : List Text) :
    (∀ members, Makes [] values members ↔ members = ofValues values) ∧
      HaveDistinctKeys values (ofValues values) := by
  have hnone : CountsFromOne [] := nofun
  refine ⟨fun members => makes_iff, map_snd_assign values [], ?_, fun m => isKey_of_mem_assign,
    fun m hm => cases_of_mem_assign hnone hm, fun before m after hsplit hbefore => ?_⟩
  · have hempty : (Table.keys ([] : List (Text × Nat))).Nodup := List.nodup_nil
    have hnodup := nodup_keys_usedAfter hempty values
    rwa [keys_usedAfter] at hnodup
  · obtain ⟨key, value⟩ := m
    have hvalues : values = before.map Prod.snd ++ value :: after.map Prod.snd := by
      rw [← map_snd_assign values [], ← ofValues, hsplit, List.map_append, List.map_cons]
    have hassign := assign_append [] (before.map Prod.snd) (value :: after.map Prod.snd)
    rw [← hvalues, ← ofValues, hsplit, assign_cons] at hassign
    have hlength : before.length = (assign [] (before.map Prod.snd)).length := by
      have hmap := congrArg List.length (map_snd_assign (before.map Prod.snd) [])
      rw [List.length_map, List.length_map] at hmap
      exact hmap.symm
    obtain ⟨hearlier, hrest⟩ := List.append_inj hassign hlength
    obtain ⟨hkey, -⟩ := Prod.mk.inj (List.cons.inj hrest).1
    have hbases : ∀ v ∈ before.map Prod.snd, enumKey v ≠ enumKey value :=
      List.forall_mem_map.2 hbefore
    have hcases := first_of_base hbases
    rw [← hkey, ← hearlier] at hcases
    exact hcases

/-- A numbered key is passed over where a value was given it as its base. -/
example : (ofValues ["a", "a_2", "a", "a-2", "1"]).map Prod.fst =
    ["A", "A_2", "A_3", "A_2_2", "_1"] := by decide

end Members

end Scaffold
