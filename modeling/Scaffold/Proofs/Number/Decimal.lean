import Mathlib.Data.List.Basic
import Mathlib.Data.Nat.Log
import Mathlib.Tactic.Common
import Mathlib.Tactic.Ring
import Scaffold.Number.Shortest

/-!
# A number is read back from its shortest decimal

A decimal stands for a quotient, and only the quotient counts: moving zeros between the digits and
the exponent does not change the number (`ofDecimal_shift`), although the digits are measured
before anything is rounded.  The shortest decimal of a magnitude reads back because reading back is
what the search tests, and the search does not come back empty-handed because its last candidate is
the exact decimal (`ofDecimal_shortest`).

That argument needs a magnitude that the format has (`IsMagnitude`).  Every number that is rounded
from a decimal is one (`isRepresentable_ofDecimal`).
-/

namespace Scaffold

namespace Text

lemma length_ofNat_le_iff {n k : Nat} (hk : 0 < k) : (ofNat n).length ≤ k ↔ n < 10 ^ k :=
  Nat.length_toDigits_le_iff (by decide) hk

lemma length_ofNat_pos (n : Nat) : 0 < (ofNat n).length := Nat.length_toDigits_pos

/-- Multiplying by a power of ten adds as many digits. -/
lemma length_ofNat_mul_pow {n : Nat} (hn : 0 < n) (k : Nat) :
    (ofNat (n * 10 ^ k)).length = (ofNat n).length + k := by
  have hle : ∀ m, 0 < m → ((ofNat (n * 10 ^ k)).length ≤ m + k ↔ (ofNat n).length ≤ m) := by
    intro m hm
    rw [length_ofNat_le_iff (by omega), length_ofNat_le_iff hm, Nat.pow_add]
    exact Nat.mul_lt_mul_right (Nat.pow_pos (by decide))
  have hpos := length_ofNat_pos n
  have hupper := (hle (ofNat n).length hpos).2 le_rfl
  by_contra hne
  have hlt : (ofNat (n * 10 ^ k)).length < (ofNat n).length + k := by omega
  by_cases hone : (ofNat n).length = 1
  · -- one digit: the product is at least the power of ten
    have hk : 0 < k := by
      have := length_ofNat_pos (n * 10 ^ k)
      omega
    have hsmall := (length_ofNat_le_iff hk).1 (show (ofNat (n * 10 ^ k)).length ≤ k by omega)
    exact absurd hsmall (Nat.not_lt.2 (Nat.le_mul_of_pos_left _ hn))
  · have := (hle ((ofNat n).length - 1) (by omega)).1 (by omega)
    omega

end Text

namespace Binary64

/-- How many decimal places the smallest subnormal has. -/
def unitPlaces : Nat := 1074

lemma unitsPerOne_eq : unitsPerOne = 2 ^ unitPlaces := by decide +kernel

lemma exists_overflowUnits_eq : ∃ bound places, bound ≤ 10 ^ places ∧ places ≤ 400 ∧
    overflowUnits = bound * 2 ^ unitPlaces :=
  ⟨2 ^ 1024, 309, by decide +kernel, by decide, by decide +kernel⟩

lemma pow_five_eq : Nat.pow 5 1074 = 5 ^ unitPlaces := by decide +kernel

lemma unitPlaces_eq : -(unitPlaces : Int) = -1074 := rfl

-- the two constants have hundreds of digits, which no proof step should compute
attribute [local irreducible] unitsPerOne overflowUnits unitPlaces

/-! ## Rounding quotients -/

/-- Rounding depends on the quotient only. -/
lemma roundDiv_mul {c : Nat} (hc : 0 < c) (num den : Nat) :
    roundDiv (num * c) (den * c) = roundDiv num den := by
  have hlow : 2 * (num % den * c) < den * c ↔ 2 * (num % den) < den := by
    rw [← Nat.mul_assoc]
    exact Nat.mul_lt_mul_right hc
  have hhigh : den * c < 2 * (num % den * c) ↔ den < 2 * (num % den) := by
    rw [← Nat.mul_assoc]
    exact Nat.mul_lt_mul_right hc
  rw [roundDiv, roundDiv, Nat.mul_div_mul_right _ _ hc, Nat.mul_mod_mul_right]
  simp only [hlow, hhigh]

lemma roundDiv_mul_self (n : Nat) {den : Nat} (hden : 0 < den) : roundDiv (n * den) den = n := by
  rw [roundDiv, Nat.mul_div_cancel _ hden, Nat.mul_mod_left, Nat.mul_zero, if_pos hden]

lemma roundDiv_le (num den : Nat) : roundDiv num den ≤ num / den + 1 := by
  unfold roundDiv
  simp only
  split_ifs <;> omega

lemma roundUnits_mul {c : Nat} (hc : 0 < c) (num den : Nat) :
    roundUnits (num * c) (den * c) = roundUnits num den := by
  have hexact : num * c * unitsPerOne = num * unitsPerOne * c := Nat.mul_right_comm ..
  simp only [roundUnits, hexact, Nat.mul_div_mul_right _ _ hc]
  rw [Nat.mul_right_comm den, roundDiv_mul hc]

lemma ofRatio_mul {c : Nat} (hc : 0 < c) (negative : Bool) (num den : Nat) :
    ofRatio negative (num * c) (den * c) = ofRatio negative num den := by
  rw [ofRatio, ofRatio, roundUnits_mul hc]

/-! ## Decimals -/

/-- A decimal as a quotient. -/
def ofScaled (negative : Bool) (digits : Nat) (exponent : Int) : Binary64 :=
  ofRatio negative (digits * 10 ^ exponent.toNat) (10 ^ (-exponent).toNat)

lemma ofScaled_shift (negative : Bool) (digits k : Nat) (e : Int) :
    ofScaled negative (digits * 10 ^ k) e = ofScaled negative digits (e + k) := by
  obtain ⟨m, hnum, hden⟩ : ∃ m, k + e.toNat = (e + k).toNat + m ∧
      (-e).toNat = (-(e + k)).toNat + m := ⟨k + e.toNat - (e + k).toNat, by omega, by omega⟩
  rw [ofScaled, ofScaled, Nat.mul_assoc, ← Nat.pow_add, hnum, hden, Nat.pow_add, Nat.pow_add,
    ← Nat.mul_assoc, ofRatio_mul (Nat.pow_pos (by decide))]

/-- A decimal within the range that is looked at. -/
lemma ofDecimal_eq (negative : Bool) {digits : Nat} (h : digits ≠ 0) (e : Int) :
    ofDecimal negative digits e =
      if 400 < ((Text.ofNat digits).length : Int) + e then infinite negative
      else if ((Text.ofNat digits).length : Int) + e < -400 then finite negative 0
      else ofScaled negative digits e := by
  unfold ofDecimal
  simp only [if_neg h]
  congr 1
  congr 1
  cases e with
  | ofNat e =>
    show ofRatio negative (digits * 10 ^ e) 1 = ofRatio negative (digits * 10 ^ e) (10 ^ (-(e : Int)).toNat)
    rw [Int.toNat_neg_natCast, Nat.pow_zero]
  | negSucc e =>
    show ofRatio negative digits (10 ^ (e + 1)) = ofRatio negative (digits * 10 ^ 0) (10 ^ (e + 1))
    rw [Nat.pow_zero, Nat.mul_one]

lemma ofDecimal_zero (negative : Bool) (e : Int) : ofDecimal negative 0 e = finite negative 0 := rfl

/-- **Zeros can be moved** between the digits and the exponent. -/
theorem ofDecimal_shift (negative : Bool) (digits k : Nat) (e : Int) :
    ofDecimal negative (digits * 10 ^ k) e = ofDecimal negative digits (e + k) := by
  by_cases h : digits = 0
  · rw [h, Nat.zero_mul, ofDecimal_zero, ofDecimal_zero]
  · have hpos : 0 < digits := Nat.pos_of_ne_zero h
    have hsize : ((Text.ofNat (digits * 10 ^ k)).length : Int) + e =
        (Text.ofNat digits).length + (e + k) := by
      rw [Text.length_ofNat_mul_pow hpos]
      omega
    rw [ofDecimal_eq negative (Nat.mul_ne_zero h (Nat.pow_pos (by decide)).ne'), ofDecimal_eq negative h, hsize, ofScaled_shift]

/-- The sign of a decimal is the sign of the number. -/
lemma ofDecimal_of_ofDecimal {negative negative' : Bool} {digits units : Nat} {e : Int}
    (h : ofDecimal negative digits e = finite negative units) :
    ofDecimal negative' digits e = finite negative' units := by
  by_cases hzero : digits = 0
  · subst hzero
    rw [ofDecimal_zero, finite.injEq] at h
    rw [ofDecimal_zero, h.2]
  · rw [ofDecimal_eq negative' hzero]
    rw [ofDecimal_eq negative hzero] at h
    split_ifs at h ⊢
    · rw [(finite.inj h).2]
    · unfold ofScaled ofRatio at h ⊢
      simp only at h ⊢
      split_ifs at h ⊢
      rw [(finite.inj h).2]

/-! ## Magnitudes of the format -/

/-- A magnitude in smallest subnormals that the format has: it does not overflow, and its bits
beyond the first 53 are zero. -/
structure IsMagnitude (units : Nat) : Prop where
  lt_overflow : units < overflowUnits
  dvd : 2 ^ (Nat.log2 units + 1 - 53) ∣ units

/-- A number that the format has. -/
def IsRepresentable : Binary64 → Prop
  | finite _ units => IsMagnitude units
  | _ => True

lemma isMagnitude_zero : IsMagnitude 0 := ⟨by decide +kernel, Nat.dvd_zero _⟩

/-- A significand of at most 53 bits scaled by a power of two has no other bits. -/
lemma pow_log2_dvd {q s : Nat} (hq : q ≤ 2 ^ 53) :
    2 ^ (Nat.log2 (q * 2 ^ s) + 1 - 53) ∣ q * 2 ^ s := by
  by_cases hzero : q = 0
  · rw [hzero, Nat.zero_mul]
    exact Nat.dvd_zero _
  have hne : q * 2 ^ s ≠ 0 := Nat.mul_ne_zero hzero (Nat.two_pow_pos s).ne'
  rcases Nat.lt_or_eq_of_le hq with hlt | rfl
  · have hlog : Nat.log2 (q * 2 ^ s) < 53 + s := by
      rw [Nat.log2_lt hne, Nat.pow_add]
      exact Nat.mul_lt_mul_of_pos_right hlt (Nat.two_pow_pos s)
    exact Nat.dvd_mul_left_of_dvd (Nat.pow_dvd_pow 2 (by omega)) q
  · have hlog : Nat.log2 (2 ^ 53 * 2 ^ s) < 54 + s := by
      rw [Nat.log2_lt hne, Nat.pow_add]
      exact Nat.mul_lt_mul_of_pos_right (by decide) (Nat.two_pow_pos s)
    rw [← Nat.pow_add] at hlog ⊢
    exact Nat.pow_dvd_pow 2 (by omega)

lemma isRepresentable_ofRatio (negative : Bool) (num den : Nat) :
    (ofRatio negative num den).IsRepresentable := by
  unfold ofRatio
  simp only
  split
  · trivial
  · rename_i hlt
    refine ⟨Nat.lt_of_not_le hlt, pow_log2_dvd ((roundDiv_le _ _).trans ?_)⟩
    have hlog : num * unitsPerOne / den <
        2 ^ (Nat.log2 (num * unitsPerOne / den) + 1 - 53) * 2 ^ 53 := by
      rw [← Nat.pow_add]
      exact Nat.lt_log2_self.trans_le (Nat.pow_le_pow_right (by decide) (by omega))
    rw [← Nat.div_div_eq_div_mul]
    exact Nat.div_lt_of_lt_mul hlog

/-- **Every number that is read** from a decimal is one of the format. -/
theorem isRepresentable_ofDecimal (negative : Bool) (digits : Nat) (e : Int) :
    (ofDecimal negative digits e).IsRepresentable := by
  by_cases h : digits = 0
  · rw [h]
    exact isMagnitude_zero
  · rw [ofDecimal_eq negative h]
    split_ifs
    · trivial
    · exact isMagnitude_zero
    · exact isRepresentable_ofRatio ..

/-! ## The shortest decimal -/

/-- A magnitude of the format is kept when it is rounded. -/
lemma roundUnits_exact {units : Nat} (h : IsMagnitude units) :
    roundUnits (units * 5 ^ unitPlaces) (10 ^ unitPlaces) = units := by
  obtain ⟨q, hq⟩ := h.dvd
  have hpos : 0 < 10 ^ unitPlaces := Nat.pow_pos (by decide)
  have hexact : units * 5 ^ unitPlaces * unitsPerOne = units * 10 ^ unitPlaces := by
    rw [unitsPerOne_eq, Nat.mul_assoc, ← Nat.mul_pow]
  simp only [roundUnits, hexact, Nat.mul_div_cancel _ hpos, Nat.pow_eq]
  generalize Nat.log2 units + 1 - 53 = surplus at hq ⊢
  have hden : units * 10 ^ unitPlaces = q * (10 ^ unitPlaces * 2 ^ surplus) := by
    rw [hq]
    ring
  rw [hden, roundDiv_mul_self q (Nat.mul_pos hpos (Nat.two_pow_pos _)), hq, Nat.mul_comm]

/-- The exact decimal of a magnitude is neither too large nor too small to be looked at. -/
lemma length_exact {units : Nat} (hpos : 0 < units) (hlt : units < overflowUnits) :
    (Text.ofNat (units * 5 ^ unitPlaces)).length ≤ 400 + unitPlaces ∧
      unitPlaces ≤ (Text.ofNat (units * 5 ^ unitPlaces)).length + 400 := by
  constructor
  · obtain ⟨bound, places, hbound, hplaces, heq⟩ := exists_overflowUnits_eq
    rw [heq] at hlt
    refine le_trans ?_ (Nat.add_le_add_right hplaces unitPlaces)
    have hpos : 0 < unitPlaces := by decide +kernel
    rw [Text.length_ofNat_le_iff (by omega), Nat.pow_add]
    calc units * 5 ^ unitPlaces
        < bound * 2 ^ unitPlaces * 5 ^ unitPlaces :=
          Nat.mul_lt_mul_of_pos_right hlt (Nat.pow_pos (by decide))
      _ = bound * 10 ^ unitPlaces := by rw [Nat.mul_assoc, ← Nat.mul_pow]
      _ ≤ 10 ^ places * 10 ^ unitPlaces := Nat.mul_le_mul_right _ hbound
  · have hfives : (10 : Nat) ^ 674 ≤ 5 ^ unitPlaces := by decide +kernel
    have hplaces : unitPlaces = 674 + 400 := by decide +kernel
    by_contra hshort
    have hsmall := (Text.length_ofNat_le_iff (by decide)).1
      (show (Text.ofNat (units * 5 ^ unitPlaces)).length ≤ 674 by omega)
    exact absurd (hfives.trans (Nat.le_mul_of_pos_left _ hpos)) (Nat.not_le.2 hsmall)

/-- The exact decimal of a magnitude reads back. -/
lemma ofDecimal_exact {units : Nat} (h : IsMagnitude units) :
    ofDecimal false (units * 5 ^ unitPlaces) (-(unitPlaces : Int)) = finite false units := by
  by_cases hzero : units = 0
  · rw [hzero, Nat.zero_mul, ofDecimal_zero]
  have hlength := length_exact (Nat.pos_of_ne_zero hzero) h.lt_overflow
  have hne : units * 5 ^ unitPlaces ≠ 0 := Nat.mul_ne_zero hzero (Nat.pow_pos (by decide)).ne'
  have hscaled : ofScaled false (units * 5 ^ unitPlaces) (-(unitPlaces : Int)) =
      ofRatio false (units * 5 ^ unitPlaces) (10 ^ unitPlaces) := by
    rw [ofScaled, Int.toNat_neg_natCast, Int.neg_neg, Int.toNat_natCast, Nat.pow_zero, Nat.mul_one]
  rw [ofDecimal_eq false hne, if_neg (by omega), if_neg (by omega), hscaled, ofRatio,
    roundUnits_exact h]
  exact if_neg (Nat.not_le.2 h.lt_overflow)

/-- **The shortest decimal reads back.** -/
theorem ofDecimal_shortest {units : Nat} (h : IsMagnitude units) (negative : Bool) :
    ofDecimal negative (shortest units).digits (shortest units).exponent =
      finite negative units := by
  have hread : ofDecimal false (shortest units).digits (shortest units).exponent =
      finite false units := by
    rw [shortest, pow_five_eq, ← unitPlaces_eq]
    cases hfound : (candidates units).find? fun d =>
        ofDecimal false d.digits d.exponent == finite false units with
    | none => exact ofDecimal_exact h
    | some d =>
      have hd := List.find?_some hfound
      exact beq_iff_eq.1 hd
  exact ofDecimal_of_ofDecimal hread

end Binary64

end Scaffold
