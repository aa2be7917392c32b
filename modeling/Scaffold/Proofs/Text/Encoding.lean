import Mathlib.Data.List.Basic
import Mathlib.Tactic.Common
import Mathlib.Tactic.IntervalCases
import Scaffold.Text.Utf8

/-!
# Texts survive being written and read

A text goes to the disk as UTF-8 and comes back through a strict decoder that also reads every line
end as a newline.  `decode_encode` is the round trip of the bytes, one character at a time: the
lead byte of a character decides how many bytes are owed and how far the next one may range, and
what the encoder writes is in range because no character is a surrogate.  The line ends then only
matter for texts with a carriage return (`unifyNewlines_eq_self`).
-/

namespace Scaffold

namespace Utf8

variable {p : Pending} {n position : Nat} {rest : Bytes}

/-- A byte in range is taken up while more than one is owed. -/
lemma decodeFrom_more (hn : n < 256) (hlow : p.low ≤ n) (hhigh : n ≤ p.high) (howed : p.owed ≠ 1) :
    decodeFrom position (some p) (UInt8.ofNat n :: rest) =
      decodeFrom (position + 1)
        (some ⟨p.lead, p.seen + 1, p.owed - 1, 0x80, 0xBF, p.code * 64 + (n - 0x80)⟩) rest := by
  have htoNat : (UInt8.ofNat n).toNat = n := by simp [Nat.mod_eq_of_lt hn]
  rw [decodeFrom, htoNat, if_neg (by simp; omega), if_neg howed]

/-- The last byte that is owed completes a character. -/
lemma decodeFrom_last (hn : n < 256) (hlow : p.low ≤ n) (hhigh : n ≤ p.high) (howed : p.owed = 1) :
    decodeFrom position (some p) (UInt8.ofNat n :: rest) =
      (decodeFrom (position + 1) none rest).map (Char.ofNat (p.code * 64 + (n - 0x80)) :: ·) := by
  have htoNat : (UInt8.ofNat n).toNat = n := by simp [Nat.mod_eq_of_lt hn]
  rw [decodeFrom, htoNat, if_neg (by simp; omega), if_pos howed]

/-- A lead byte opens a character. -/
lemma decodeFrom_lead (hn : n < 256) (h128 : 128 ≤ n) (hp : Pending.ofLead? n = some p) :
    decodeFrom position none (UInt8.ofNat n :: rest) = decodeFrom (position + 1) (some p) rest := by
  have htoNat : (UInt8.ofNat n).toNat = n := by simp [Nat.mod_eq_of_lt hn]
  rw [decodeFrom, htoNat, if_neg (by omega), hp]

lemma ofLead?_two (hlow : 0xC2 ≤ n) (hhigh : n ≤ 0xDF) :
    Pending.ofLead? n = some ⟨n, 1, 1, 0x80, 0xBF, n - 0xC0⟩ := by
  simp [Pending.ofLead?, hlow, hhigh]

/-- Three bytes: the range of the second one leaves out overlong forms and surrogates. -/
lemma exists_ofLead?_three (hn : n < 16) :
    ∃ low high, Pending.ofLead? (n + 0xE0) = some ⟨n + 0xE0, 1, 2, low, high, n⟩ ∧
      low ≤ (if n = 0 then 0xA0 else 0x80) ∧ (if n = 0xD then 0x9F else 0xBF) ≤ high := by
  interval_cases n <;> exact ⟨_, _, rfl, by decide, by decide⟩

/-- Four bytes: the range of the second one leaves out overlong forms and what is beyond Unicode. -/
lemma exists_ofLead?_four (hn : n < 5) :
    ∃ low high, Pending.ofLead? (n + 0xF0) = some ⟨n + 0xF0, 1, 3, low, high, n⟩ ∧
      low ≤ (if n = 0 then 0x90 else 0x80) ∧ (if n = 4 then 0x8F else 0xBF) ≤ high := by
  interval_cases n <;> exact ⟨_, _, rfl, by decide, by decide⟩

/-- One character is decoded as it was encoded. -/
theorem decodeFrom_encodeChar (c : Char) (position : Nat) (rest : Bytes) :
    ∃ next, decodeFrom position none (String.utf8EncodeChar c ++ rest) =
      (decodeFrom next none rest).map (c :: ·) := by
  have hvalid : c.toNat < 0xD800 ∨ 0xDFFF < c.toNat ∧ c.toNat < 0x110000 := c.valid
  have hback : Char.ofNat c.toNat = c := Char.ofNat_toNat c
  set v := c.toNat with hv
  by_cases h1 : v ≤ 0x7F
  · refine ⟨position + 1, ?_⟩
    have htoNat : (UInt8.ofNat v).toNat = v := by simp [Nat.mod_eq_of_lt (show v < 256 by omega)]
    simp only [String.utf8EncodeChar, show c.val.toNat = v from rfl, if_pos h1,
      List.cons_append, List.nil_append]
    rw [decodeFrom, htoNat, if_pos (by omega), hback]
  by_cases h2 : v ≤ 0x7FF
  · refine ⟨position + 1 + 1, ?_⟩
    simp only [String.utf8EncodeChar, show c.val.toNat = v from rfl, if_neg h1, if_pos h2,
      List.cons_append, List.nil_append]
    rw [decodeFrom_lead (by omega) (by omega) (ofLead?_two (by omega) (by omega)),
      decodeFrom_last (by omega) (by simp) (by simp; omega) rfl]
    simp only
    rw [show (v / 64 % 0x20 + 0xC0 - 0xC0) * 64 + (v % 0x40 + 0x80 - 0x80) = v by omega, hback]
  by_cases h3 : v ≤ 0xFFFF
  · obtain ⟨low, high, hlead, hlow, hhigh⟩ := exists_ofLead?_three (n := v / 4096 % 0x10) (by omega)
    refine ⟨position + 1 + 1 + 1, ?_⟩
    simp only [String.utf8EncodeChar, show c.val.toNat = v from rfl, if_neg h1, if_neg h2, if_pos h3,
      List.cons_append, List.nil_append]
    rw [decodeFrom_lead (by omega) (by omega) hlead,
      decodeFrom_more (by omega) (Nat.le_trans hlow (by split <;> omega))
        (Nat.le_trans (by split <;> omega) hhigh) (by simp),
      decodeFrom_last (by omega) (by simp) (by simp; omega) rfl]
    simp only
    rw [show (v / 4096 % 0x10 * 64 + (v / 64 % 0x40 + 0x80 - 0x80)) * 64 + (v % 0x40 + 0x80 - 0x80) =
      v by omega, hback]
  · obtain ⟨low, high, hlead, hlow, hhigh⟩ := exists_ofLead?_four (n := v / 262144 % 8) (by omega)
    refine ⟨position + 1 + 1 + 1 + 1, ?_⟩
    simp only [String.utf8EncodeChar, show c.val.toNat = v from rfl, if_neg h1, if_neg h2, if_neg h3,
      List.cons_append, List.nil_append]
    rw [decodeFrom_lead (by omega) (by omega) hlead,
      decodeFrom_more (by omega) (Nat.le_trans hlow (by split <;> omega))
        (Nat.le_trans (by split <;> omega) hhigh) (by simp),
      decodeFrom_more (by omega) (by simp) (by simp; omega) (by simp),
      decodeFrom_last (by omega) (by simp) (by simp; omega) rfl]
    simp only
    rw [show ((v / 262144 % 8 * 64 + (v / 4096 % 0x40 + 0x80 - 0x80)) * 64 +
      (v / 64 % 0x40 + 0x80 - 0x80)) * 64 + (v % 0x40 + 0x80 - 0x80) = v by omega, hback]

lemma decodeFrom_encode (t : Text) (position : Nat) :
    decodeFrom position none (encode t) = .ok t := by
  induction t generalizing position with
  | nil => rfl
  | cons c t ih =>
    obtain ⟨next, h⟩ := decodeFrom_encodeChar c position (encode t)
    rw [encode, List.flatMap_cons, ← encode, h, ih]
    rfl

/-- **A text survives its bytes.** -/
theorem decode_encode (t : Text) : decode (encode t) = .ok t :=
  decodeFrom_encode t 0

end Utf8

namespace Text

/-- Without a carriage return every line end is a newline already. -/
lemma unifyNewlines_eq_self {t : Text} (h : '\r' ∉ t) : unifyNewlines t = t := by
  fun_induction unifyNewlines t with
  | case1 => rfl
  | case2 => simp at h
  | case3 => simp at h
  | case4 c rest _ _ ih => rw [ih fun hr => h (List.mem_cons_of_mem _ hr)]

lemma mem_of_mem_unifyNewlines {t : Text} {c : Char} (h : c ∈ unifyNewlines t) : c = '\n' ∨ c ∈ t := by
  fun_induction unifyNewlines t with
  | case1 => simp at h
  | case2 rest ih =>
    rcases List.mem_cons.1 h with rfl | h
    · exact .inl rfl
    · exact (ih h).imp_right fun h => by simp [h]
  | case3 rest _ ih =>
    rcases List.mem_cons.1 h with rfl | h
    · exact .inl rfl
    · exact (ih h).imp_right fun h => by simp [h]
  | case4 d rest _ _ ih =>
    rcases List.mem_cons.1 h with rfl | h
    · exact .inr (by simp)
    · exact (ih h).imp_right fun h => by simp [h]

/-- Line ends are unified on both sides of a border that splits none. -/
lemma unifyNewlines_append {u v : Text} (h : u.getLast? ≠ some '\r' ∨ v.head? ≠ some '\n') :
    unifyNewlines (u ++ v) = unifyNewlines u ++ unifyNewlines v := by
  fun_induction unifyNewlines u with
  | case1 => rfl
  | case2 rest ih =>
    rw [List.cons_append, List.cons_append, unifyNewlines, List.cons_append, ih]
    refine h.imp_left fun hlast hrest => hlast ?_
    rw [List.getLast?_cons_cons, List.getLast?_cons, hrest]
    rfl
  | case3 rest hrest ih =>
    -- a carriage return at the border would be joined with what follows it only if that is a newline
    have hnot : ∀ w, rest ++ v ≠ '\n' :: w := by
      intro w hw
      cases rest with
      | nil => simp_all
      | cons d rest =>
        rw [List.cons_append, List.cons.injEq] at hw
        exact hrest rest (by rw [hw.1])
    rw [List.cons_append, unifyNewlines, List.cons_append, ih]
    · refine h.imp_left fun hlast hrest => hlast ?_
      rw [List.getLast?_cons, hrest]
      rfl
    · exact hnot
  | case4 d rest h₁ h₂ ih =>
    rw [List.cons_append, unifyNewlines, List.cons_append, ih]
    · refine h.imp_left fun hlast hrest => hlast ?_
      rw [List.getLast?_cons, hrest]
      rfl
    · exact fun w hd _ => h₂ hd
    · exact h₂

/-- No carriage return is left. -/
lemma not_mem_unifyNewlines (t : Text) : '\r' ∉ unifyNewlines t := by
  fun_induction unifyNewlines t with
  | case1 => simp
  | case2 rest ih => simp [ih]
  | case3 rest _ ih => simp [ih]
  | case4 c rest _ hcr ih =>
    have hc : '\r' ≠ c := fun hc => hcr hc.symm
    simp [hc, ih]

end Text

end Scaffold
