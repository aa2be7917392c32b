import Mathlib.Data.List.Basic
import Mathlib.Tactic.Common
import Scaffold.Json.Reader
import Scaffold.Json.Writer
import Scaffold.Proofs.Number.Decimal
import Scaffold.Proofs.Text.Blanks

/-!
# Numbers are read back

A number has no closing mark: it ends where a character follows that cannot continue it
(`EndsNumber`).  Up to that character the reader takes the integer part, the places behind the point
and the exponent that are written (`number?_append`), whichever of them there are.  What they stand
for is settled by the decimal alone, so an integer comes back as itself (`number?_ofInt`) and a
number of double precision as the number whose shortest decimal was written (`number?_realText`).
-/

namespace Scaffold.Json

/-! ## Digits -/

/-- A text of decimal digits. -/
def AreDigits (ds : Text) : Prop := ∀ c ∈ ds, c.isDigit = true

/-- A text that does not go on with a digit. -/
def EndsDigits (rest : Text) : Prop := ∀ c ∈ rest.head?, c.isDigit = false

/-- The integer part of a number: digits without a leading zero, or the zero alone. -/
structure IsWhole (ds : Text) : Prop where
  areDigits : AreDigits ds
  ne_nil : ds ≠ []
  zero : ds.head? = some '0' → ds = ['0']

variable {ds ps es rest : Text}

lemma areDigits_ofNat (n : Nat) : AreDigits (Text.ofNat n) := fun _ hc =>
  Nat.isDigit_of_mem_toDigits (by decide) (by decide) hc

lemma areDigits_replicate (n : Nat) : AreDigits (List.replicate n '0') := fun c hc => by
  rw [List.eq_of_mem_replicate hc]
  rfl

lemma AreDigits.append (hd : AreDigits ds) (hp : AreDigits ps) : AreDigits (ds ++ ps) := fun c hc =>
  (List.mem_append.1 hc).elim (hd c) (hp c)

lemma digits_append (hd : AreDigits ds) (hrest : EndsDigits rest) :
    digits (ds ++ rest) = (ds, rest) := by
  have hstop : rest.takeWhile Char.isDigit = [] ∧ rest.dropWhile Char.isDigit = rest := by
    cases rest with
    | nil => exact ⟨rfl, rfl⟩
    | cons c rest => simp [hrest c rfl]
  rw [digits, List.takeWhile_append_of_pos hd, List.dropWhile_append_of_pos hd, hstop.1, hstop.2,
    List.append_nil]

lemma natOfDigits_eq (ds : Text) : natOfDigits ds = Nat.ofDigitChars 10 ds 0 := rfl

@[simp] lemma natOfDigits_ofNat (n : Nat) : natOfDigits (Text.ofNat n) = n :=
  Nat.ofDigitChars_ten_toDigits

lemma natOfDigits_append_zeros (ds : Text) (n : Nat) :
    natOfDigits (ds ++ List.replicate n '0') = natOfDigits ds * 10 ^ n := by
  rw [natOfDigits_eq, Nat.ofDigitChars_append, Nat.ofDigitChars_replicate_zero, Nat.mul_comm]
  rfl

lemma natOfDigits_zeros_append (n : Nat) (ds : Text) :
    natOfDigits (List.replicate n '0' ++ ds) = natOfDigits ds := by
  rw [natOfDigits_eq, Nat.ofDigitChars_append, Nat.ofDigitChars_replicate_zero, Nat.mul_zero]
  rfl

lemma digitChar_ne_zero {n : Nat} (hpos : 0 < n) (hlt : n < 10) : Nat.digitChar n ≠ '0' := by
  have hall : ∀ m < 10, 0 < m → Nat.digitChar m ≠ '0' := by decide
  exact hall n hlt hpos

lemma head?_ofNat_ne_zero {n : Nat} (hpos : 0 < n) : (Text.ofNat n).head? ≠ some '0' := by
  induction n using Nat.strongRecOn with
  | ind n ih =>
    rcases Nat.lt_or_ge n 10 with hlt | hge
    · rw [Text.ofNat, Nat.toDigits_of_lt_base hlt]
      simpa using digitChar_ne_zero hpos hlt
    · have hdiv : 0 < n / 10 := Nat.div_pos hge (by decide)
      have hhead := ih (n / 10) (Nat.div_lt_self hpos (by decide)) hdiv
      rw [Text.ofNat, Nat.toDigits_of_base_le (by decide) hge,
        List.head?_append_of_ne_nil _ Nat.toDigits_ne_nil]
      exact hhead

/-- A number is written without leading zeros. -/
lemma isWhole_ofNat (n : Nat) : IsWhole (Text.ofNat n) where
  areDigits := areDigits_ofNat n
  ne_nil := Nat.toDigits_ne_nil
  zero h := by
    rcases Nat.eq_zero_or_pos n with rfl | hpos
    · rfl
    · exact absurd h (head?_ofNat_ne_zero hpos)

lemma wholePart?_append (h : IsWhole ds) (hrest : EndsDigits rest) :
    wholePart? (ds ++ rest) = some (ds, rest) := by
  have hds := digits_append h.areDigits hrest
  have hzero := h.zero
  obtain ⟨d, ds, rfl⟩ := List.exists_cons_of_ne_nil h.ne_nil
  unfold wholePart?
  split
  · rename_i after heq
    obtain rfl : d = '0' := List.head_eq_of_cons_eq heq
    obtain rfl : ds = [] := List.tail_eq_of_cons_eq (hzero rfl)
    obtain rfl : rest = after := List.tail_eq_of_cons_eq heq
    rfl
  · rw [hds]

/-! ## Parts of a number -/

/-- A text that does not continue a number. -/
def EndsNumber (rest : Text) : Prop :=
  ∀ c ∈ rest.head?, c.isDigit = false ∧ c ≠ '.' ∧ c ≠ 'e' ∧ c ≠ 'E'

/-- The sign of a number. -/
def signText (negative : Bool) : Text := if negative then ['-'] else []

/-- An exponent as it is written. -/
def exponentText (e : Int) : Text :=
  "e" ++ (if e < 0 then "-" else "+") ++ Text.padLeft 2 '0' (Text.ofNat e.natAbs)

lemma EndsNumber.endsDigits (h : EndsNumber rest) : EndsDigits rest := fun c hc => (h c hc).1

lemma endsDigits_exponentText (e : Int) : EndsDigits (exponentText e ++ rest) := by
  rintro c hc
  obtain rfl : 'e' = c := Option.some.inj hc
  rfl

lemma fraction?_append (hps : AreDigits ps) (hne : ps ≠ []) (hrest : EndsDigits rest) :
    fraction? ('.' :: ps ++ rest) = some (ps, rest) := by
  obtain ⟨p, ps, rfl⟩ := List.exists_cons_of_ne_nil hne
  rw [List.cons_append, fraction?, digits_append hps hrest]

lemma fraction?_eq_none (h : ∀ c ∈ rest.head?, c ≠ '.') : fraction? rest = none := by
  unfold fraction?
  split
  · exact absurd rfl (h '.' rfl)
  · rfl

lemma exponent?_append (e : Int) (hrest : EndsDigits rest) :
    exponent? (exponentText e ++ rest) = some (e, rest) := by
  have hdigits : AreDigits (Text.padLeft 2 '0' (Text.ofNat e.natAbs)) :=
    (areDigits_replicate _).append (areDigits_ofNat _)
  have hvalue : natOfDigits (Text.padLeft 2 '0' (Text.ofNat e.natAbs)) = e.natAbs := by
    rw [Text.padLeft, natOfDigits_zeros_append, natOfDigits_ofNat]
  have hread := digits_append hdigits hrest
  obtain ⟨d, ds, heq⟩ := List.exists_cons_of_ne_nil (l := Text.padLeft 2 '0' (Text.ofNat e.natAbs))
    (List.append_ne_nil_of_right_ne_nil _ Nat.toDigits_ne_nil)
  rw [heq] at hread hvalue
  by_cases he : e < 0
  · have htext : exponentText e ++ rest = 'e' :: '-' :: (d :: ds ++ rest) := by
      rw [exponentText, if_pos he, heq]
      rfl
    have hneg : -((e.natAbs : Nat) : Int) = e := by omega
    rw [List.cons_append] at hread
    simp only [htext, exponent?, List.cons_append, hread, hvalue, hneg]
    rfl
  · have htext : exponentText e ++ rest = 'e' :: '+' :: (d :: ds ++ rest) := by
      rw [exponentText, if_neg he, heq]
      rfl
    have hpos : ((e.natAbs : Nat) : Int) = e := by omega
    rw [List.cons_append] at hread
    simp only [htext, exponent?, List.cons_append, hread, hvalue, hpos]
    rfl

lemma exponent?_eq_none (h : EndsNumber rest) : exponent? rest = none := by
  cases rest with
  | nil => rfl
  | cons c rest =>
    obtain ⟨-, -, he, hE⟩ := h c rfl
    simp [exponent?, he, hE]

/-- The number that parts stand for.  Without an exponent, `rest` is what was left behind the integer
part and `after` what was left behind the places. -/
def numberOf (negative : Bool) (whole ps rest after : Text) : Option (Int × Text) → Json × Text
  | none =>
    if ps.isEmpty then (int (if negative then -(natOfDigits whole : Int) else natOfDigits whole), rest)
    else (real (.ofDecimal negative (natOfDigits (whole ++ ps)) (-(ps.length : Int))), after)
  | some (e, last) =>
    (real (.ofDecimal negative (natOfDigits (whole ++ ps)) (e - ps.length)), last)

/-- A number, once its integer part and its places are read. -/
lemma number?_append {after : Text} (negative : Bool) (hds : IsWhole ds) (hrest : EndsDigits rest)
    (hplaces : (fraction? rest).getD ([], rest) = (ps, after)) :
    number? (signText negative ++ (ds ++ rest)) =
      some (numberOf negative ds ps rest after (exponent? after)) := by
  have hwhole := wholePart?_append hds hrest
  cases negative with
  | true =>
    show number? ('-' :: (ds ++ rest)) = _
    simp only [number?, hwhole, hplaces, Option.bind_eq_bind, Option.bind_some]
    cases exponent? after with
    | none => cases ps <;> rfl
    | some found => rfl
  | false =>
    have hdigits := hds.areDigits
    obtain ⟨d, ds, rfl⟩ := List.exists_cons_of_ne_nil hds.ne_nil
    have hd : d ≠ '-' := by
      rintro rfl
      exact absurd (hdigits '-' (List.mem_cons_self ..)) (by decide)
    show number? (d :: (ds ++ rest)) = _
    rw [List.cons_append] at hwhole
    have hsign : ∀ body, ¬d :: (ds ++ rest) = '-' :: body := fun body heq =>
      hd (List.head_eq_of_cons_eq heq)
    simp only [number?, hwhole, hplaces, Option.bind_eq_bind, Option.bind_some]
    cases exponent? after with
    | none => cases ps <;> rfl
    | some found => rfl

/-! ## Integers -/

/-- **An integer is read back.** -/
theorem number?_ofInt (n : Int) (hrest : EndsNumber rest) :
    number? (Text.ofInt n ++ rest) = some (int n, rest) := by
  have hfraction : fraction? rest = none := fraction?_eq_none fun c hc => (hrest c hc).2.1
  have hread negative m : number? (signText negative ++ (Text.ofNat m ++ rest)) =
      some (int (if negative then -(m : Int) else m), rest) := by
    rw [number?_append negative (isWhole_ofNat m) hrest.endsDigits (by rw [hfraction, Option.getD_none]),
      exponent?_eq_none hrest, numberOf, List.isEmpty_nil, if_pos rfl, natOfDigits_ofNat]
  cases n with
  | ofNat m => exact hread false m
  | negSucc m => exact hread true (m + 1)

/-! ## Numbers of double precision -/

lemma number?_places (negative : Bool) (hds : IsWhole ds) (hps : AreDigits ps) (hne : ps ≠ [])
    (hrest : EndsNumber rest) :
    number? (signText negative ++ (ds ++ ('.' :: ps ++ rest))) =
      some (real (.ofDecimal negative (natOfDigits (ds ++ ps)) (-(ps.length : Int))), rest) := by
  have hpoint : EndsDigits ('.' :: ps ++ rest) := by
    rintro c hc
    obtain rfl : '.' = c := Option.some.inj hc
    rfl
  have hfraction := fraction?_append hps hne hrest.endsDigits
  rw [number?_append negative hds hpoint (by rw [hfraction, Option.getD_some]), exponent?_eq_none hrest]
  obtain ⟨p, ps, rfl⟩ := List.exists_cons_of_ne_nil hne
  rfl

/-- The places behind the point, without a point if there are none. -/
def placesText (ps : Text) : Text := if ps.isEmpty then [] else '.' :: ps

lemma number?_exponent (negative : Bool) (hds : IsWhole ds) (hps : AreDigits ps) (e : Int)
    (hrest : EndsNumber rest) :
    number? (signText negative ++ (ds ++ (placesText ps ++ (exponentText e ++ rest)))) =
      some (real (.ofDecimal negative (natOfDigits (ds ++ ps)) (e - ps.length)), rest) := by
  have hexponent := exponent?_append e hrest.endsDigits
  cases ps with
  | nil =>
    have hfraction : fraction? (exponentText e ++ rest) = none := by
      refine fraction?_eq_none ?_
      rintro c hc rfl
      cases hc
    rw [placesText, List.isEmpty_nil, if_pos rfl, List.nil_append,
      number?_append negative hds (endsDigits_exponentText e) (by rw [hfraction, Option.getD_none]), hexponent, numberOf]
  | cons p ps =>
    have hpoint : EndsDigits ('.' :: (p :: ps) ++ (exponentText e ++ rest)) := by
      rintro c hc
      obtain rfl : '.' = c := Option.some.inj hc
      rfl
    have hexponentText : EndsDigits (exponentText e ++ rest) := endsDigits_exponentText e
    have hfraction := fraction?_append hps (List.cons_ne_nil p ps) hexponentText
    show number? (signText negative ++ (ds ++ ('.' :: (p :: ps) ++ (exponentText e ++ rest)))) = _
    rw [number?_append negative hds hpoint (by rw [hfraction, Option.getD_some]), hexponent, numberOf]

/-- Digits of which the first is not zero. -/
structure IsSignificant (ds : Text) : Prop where
  areDigits : AreDigits ds
  ne_nil : ds ≠ []
  head?_ne : ds.head? ≠ some '0'

lemma IsSignificant.isWhole (h : IsSignificant ds) : IsWhole ds :=
  ⟨h.areDigits, h.ne_nil, fun hzero => absurd hzero h.head?_ne⟩

lemma IsSignificant.append (h : IsSignificant ds) (hps : AreDigits ps) :
    IsSignificant (ds ++ ps) where
  areDigits := h.areDigits.append hps
  ne_nil := List.append_ne_nil_of_left_ne_nil h.ne_nil ps
  head?_ne := by
    rw [List.head?_append_of_ne_nil _ h.ne_nil]
    exact h.head?_ne

lemma IsSignificant.take (h : IsSignificant ds) {n : Nat} (hn : 0 < n) :
    IsSignificant (ds.take n) where
  areDigits c hc := h.areDigits c (List.mem_of_mem_take hc)
  ne_nil := by simp [h.ne_nil, hn.ne']
  head?_ne := by
    rw [List.head?_take, if_neg hn.ne']
    exact h.head?_ne

/-- The digits of a decimal without the zeros at its end. -/
lemma exists_significantDigits (d : Binary64.Decimal) (h : d.digits ≠ 0) :
    ∃ n, IsSignificant (Binary64.significantDigits d) ∧
      natOfDigits (Binary64.significantDigits d) * 10 ^ n = d.digits ∧
      (Binary64.significantDigits d).length + n = (Text.ofNat d.digits).length := by
  obtain ⟨zeros, happend, hzeros, -⟩ :=
    Text.exists_dropRightWhile (· == '0') (Text.ofNat d.digits)
  rw [← Binary64.significantDigits] at happend
  have hreplicate : zeros = List.replicate zeros.length '0' :=
    List.eq_replicate_of_mem fun c hc => beq_iff_eq.1 (hzeros c hc)
  have hvalue : natOfDigits (Binary64.significantDigits d) * 10 ^ zeros.length = d.digits := by
    rw [← natOfDigits_append_zeros, ← hreplicate, ← happend, natOfDigits_ofNat]
  have hwhole := isWhole_ofNat d.digits
  have hne : Binary64.significantDigits d ≠ [] := by
    intro hnil
    rw [hnil] at hvalue
    exact h (by simpa [natOfDigits] using hvalue.symm)
  refine ⟨zeros.length, ⟨fun c hc => ?_, hne, fun hhead => ?_⟩, hvalue, ?_⟩
  · exact hwhole.areDigits c (happend ▸ List.mem_append_left _ hc)
  · refine absurd ?_ (head?_ofNat_ne_zero (Nat.pos_of_ne_zero h))
    rw [happend, List.head?_append_of_ne_nil _ hne, hhead]
  · rw [← List.length_append, ← happend]

/-- The point stands before all digits. -/
lemma number?_fraction (negative : Bool) (hds : IsSignificant ds) {point : Int} (hpoint : point ≤ 0)
    (hrest : EndsNumber rest) :
    number? (signText negative ++
        ("0." ++ List.replicate (-point).toNat '0' ++ ds ++ rest)) =
      some (real (.ofDecimal negative (natOfDigits ds) (point - ds.length)), rest) := by
  have hplaces : AreDigits (List.replicate (-point).toNat '0' ++ ds) :=
    (areDigits_replicate _).append hds.areDigits
  have hne : List.replicate (-point).toNat '0' ++ ds ≠ [] :=
    List.append_ne_nil_of_right_ne_nil _ hds.ne_nil
  have hread := number?_places negative (isWhole_ofNat 0) hplaces hne hrest
  have hvalue : natOfDigits (Text.ofNat 0 ++ (List.replicate (-point).toNat '0' ++ ds)) =
      natOfDigits ds := by
    have hzeros : Text.ofNat 0 = List.replicate 1 '0' := rfl
    rw [hzeros, natOfDigits_zeros_append, natOfDigits_zeros_append]
  have hexponent : -((List.replicate (-point).toNat '0' ++ ds).length : Int) = point - ds.length := by
    rw [List.length_append, List.length_replicate]
    omega
  have htext : "0." ++ List.replicate (-point).toNat '0' ++ ds ++ rest =
      Text.ofNat 0 ++ ('.' :: (List.replicate (-point).toNat '0' ++ ds) ++ rest) := by
    simp only [List.append_assoc, List.cons_append]
    rfl
  rw [htext, hread, hvalue, hexponent]

/-- The point stands behind all digits. -/
lemma number?_large (negative : Bool) (hds : IsSignificant ds) {point : Int}
    (hpoint : (ds.length : Int) ≤ point) (hrest : EndsNumber rest) :
    number? (signText negative ++
        (ds ++ List.replicate (point.toNat - ds.length) '0' ++ ".0" ++ rest)) =
      some (real (.ofDecimal negative (natOfDigits ds) (point - ds.length)), rest) := by
  have hread := number?_places negative (hds.append (areDigits_replicate (point.toNat - ds.length))).isWhole
    (areDigits_replicate 1) (List.cons_ne_nil _ _) hrest
  have hexponent : (-1 : Int) + ((point.toNat - ds.length + 1 : Nat) : Int) = point - ds.length := by
    omega
  have hvalue : natOfDigits (ds ++ List.replicate (point.toNat - ds.length) '0' ++
      List.replicate 1 '0') = natOfDigits ds * 10 ^ (point.toNat - ds.length + 1) := by
    rw [List.append_assoc, ← List.replicate_add, natOfDigits_append_zeros]
  have htext : ds ++ List.replicate (point.toNat - ds.length) '0' ++ ".0" ++ rest =
      ds ++ List.replicate (point.toNat - ds.length) '0' ++
        ('.' :: List.replicate 1 '0' ++ rest) := List.append_assoc ..
  rw [htext, hread, hvalue, Binary64.ofDecimal_shift]
  exact congrArg (fun e => some (real (Binary64.ofDecimal negative (natOfDigits ds) e), rest)) hexponent

/-- The point stands between the digits. -/
lemma number?_between (negative : Bool) (hds : IsSignificant ds) {n : Nat} (hpos : 0 < n)
    (hlt : n < ds.length) (hrest : EndsNumber rest) :
    number? (signText negative ++ (ds.take n ++ "." ++ ds.drop n ++ rest)) =
      some (real (.ofDecimal negative (natOfDigits ds) (n - ds.length)), rest) := by
  have hplaces : AreDigits (ds.drop n) := fun c hc => hds.areDigits c (List.mem_of_mem_drop hc)
  have hread := number?_places negative (hds.take hpos).isWhole hplaces (by simpa using hlt) hrest
  have hexponent : -((ds.drop n).length : Int) = n - ds.length := by
    rw [List.length_drop]
    omega
  have htext : ds.take n ++ "." ++ ds.drop n ++ rest =
      ds.take n ++ ('.' :: ds.drop n ++ rest) := by
    simp only [List.append_assoc]
    rfl
  rw [htext, hread, List.take_append_drop, hexponent]

/-- The point stands behind the first digit, and an exponent follows. -/
lemma number?_scientific (negative : Bool) (hds : IsSignificant ds) (point : Int)
    (hrest : EndsNumber rest) :
    number? (signText negative ++ (ds.take 1 ++ placesText (ds.drop 1) ++
        exponentText (point - 1) ++ rest)) =
      some (real (.ofDecimal negative (natOfDigits ds) (point - ds.length)), rest) := by
  have hplaces : AreDigits (ds.drop 1) := fun c hc => hds.areDigits c (List.mem_of_mem_drop hc)
  have hread := number?_exponent negative (hds.take Nat.one_pos).isWhole hplaces (point - 1) hrest
  have hlength := List.length_pos_iff.2 hds.ne_nil
  have hexponent : point - 1 - ((ds.drop 1).length : Int) = point - ds.length := by
    rw [List.length_drop]
    omega
  rw [List.append_assoc, List.append_assoc, hread, List.take_append_drop, hexponent]

/-- Positional and exponent notation stand for the digits with the point moved. -/
lemma number?_positionalOrExponent (negative : Bool) (hds : IsSignificant ds)
    (point : Int) (hrest : EndsNumber rest) :
    number? (signText negative ++ (Binary64.positionalOrExponent ds point ++ rest)) =
      some (real (.ofDecimal negative (natOfDigits ds) (point - ds.length)), rest) := by
  unfold Binary64.positionalOrExponent
  split
  · split
    · rename_i hpoint
      exact number?_fraction negative hds hpoint hrest
    · rename_i hpoint
      simp only
      split
      · rename_i hle
        exact number?_large negative hds (by omega) hrest
      · have hread := number?_between negative hds (n := point.toNat) (by omega) (by omega) hrest
        rwa [Int.toNat_of_nonneg (by omega)] at hread
  · have hread := number?_scientific negative hds point hrest
    simp only [exponentText, List.append_assoc] at hread ⊢
    match ds, hread with
    | [], hread => exact hread
    | [_], hread => exact hread
    | _ :: _ :: _, hread => exact hread

lemma number?_magnitudeText {units : Nat} (h : Binary64.IsMagnitude units) (negative : Bool)
    (hrest : EndsNumber rest) :
    number? (signText negative ++ (Binary64.magnitudeText units ++ rest)) =
      some (real (.finite negative units), rest) := by
  unfold Binary64.magnitudeText
  split
  · rename_i hzero
    rw [hzero]
    exact number?_places negative (isWhole_ofNat 0) (areDigits_ofNat 0) (List.cons_ne_nil _ _) hrest
  · rename_i hne
    have hread := Binary64.ofDecimal_shortest h negative
    have hdigits : (Binary64.shortest units).digits ≠ 0 := by
      intro hzero
      rw [hzero, Binary64.ofDecimal_zero, Binary64.finite.injEq] at hread
      exact hne hread.2.symm
    obtain ⟨n, hwhole, hvalue, hlength⟩ := exists_significantDigits _ hdigits
    have hpoint : ((Text.ofNat (Binary64.shortest units).digits).length : Int) +
        (Binary64.shortest units).exponent -
          (Binary64.significantDigits (Binary64.shortest units)).length =
        (Binary64.shortest units).exponent + n := by
      omega
    simp only
    rw [number?_positionalOrExponent negative hwhole _ hrest, hpoint,
      ← Binary64.ofDecimal_shift, hvalue, hread]

/-! ## Values without quotes and brackets -/

lemma exists_of_wholePart? {s : Text} {found : Text × Text} (h : wholePart? s = some found) :
    ∃ d t, s = d :: t ∧ d.isDigit = true := by
  unfold wholePart? at h
  split at h
  · exact ⟨'0', _, rfl, rfl⟩
  · cases s with
    | nil => cases h
    | cons d t =>
      refine ⟨d, t, rfl, ?_⟩
      by_contra hd
      simp [digits, hd] at h

/-- A number starts with a digit, up to its sign. -/
lemma exists_of_number? {s : Text} {found : Json × Text} (h : number? s = some found) :
    ∃ d t, d.isDigit = true ∧ (s = d :: t ∨ s = '-' :: d :: t) := by
  unfold number? at h
  obtain ⟨parts, hparts, -⟩ := Option.bind_eq_some_iff.1 h
  split at hparts
  · obtain ⟨d, t, rfl, hd⟩ := exists_of_wholePart? hparts
    exact ⟨d, t, hd, .inr rfl⟩
  · obtain ⟨d, t, hs, hd⟩ := exists_of_wholePart? hparts
    exact ⟨d, t, hd, .inl hs⟩

/-- No word is mistaken for a number. -/
lemma scalar?_of_number? {s : Text} {found : Json × Text} (h : number? s = some found) :
    scalar? s = some found := by
  obtain ⟨d, t, hd, rfl | rfl⟩ := exists_of_number? h
  · have hne : ∀ c : Char, c.isDigit = false → c ≠ d := by
      rintro c hc rfl
      rw [hc] at hd
      cases hd
    simp [scalar?, word?, hne 'n' rfl, hne 't' rfl, hne 'f' rfl, hne 'N' rfl, hne 'I' rfl,
      hne '-' rfl, h]
  · have hne : 'I' ≠ d := by
      rintro rfl
      cases hd
    simp [scalar?, word?, hne, h]

/-- Integers among the values. -/
lemma scalar?_ofInt (n : Int) (hrest : EndsNumber rest) :
    scalar? (Text.ofInt n ++ rest) = some (int n, rest) :=
  scalar?_of_number? (number?_ofInt n hrest)

/-- **A number of double precision is read back**, and so are the values that have no digits. -/
theorem scalar?_realText {x : Binary64} (h : x.IsRepresentable) (hrest : EndsNumber rest) :
    scalar? (realText x ++ rest) = some (real x, rest) := by
  cases x with
  | nan => rfl
  | infinite negative => cases negative <;> rfl
  | finite negative units =>
    refine scalar?_of_number? ?_
    have hread := number?_magnitudeText h negative hrest
    rw [realText, Binary64.text, List.append_assoc]
    exact hread

end Scaffold.Json
