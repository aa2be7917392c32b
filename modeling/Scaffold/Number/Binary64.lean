import Scaffold.Text.Basic

/-!
# Double precision numbers as exact data

Settings and documents hold numbers of the binary interchange format with a 53-bit significand.
Every finite one is a whole multiple of the smallest subnormal, `2 ^ (-1074)`, so a finite number
is kept as its sign and that multiple, and nothing about it is left to the machine's arithmetic.

`ofRatio` rounds a quotient to the nearest number, ties to the even significand, and is the only
way in which a number is made from a decimal.
-/

namespace Scaffold

/-- A number of the binary interchange format: a finite one counts smallest subnormals. -/
inductive Binary64 where
  | nan
  | infinite (negative : Bool)
  | finite (negative : Bool) (units : Nat)
  deriving DecidableEq, Repr

namespace Binary64

/-- Smallest subnormals in one. -/
def unitsPerOne : Nat := Nat.pow 2 1074

/-- The first magnitude, in smallest subnormals, that overflows. -/
def overflowUnits : Nat := Nat.pow 2 2098

/-- A quotient rounded to the nearest natural number, ties to even. -/
def roundDiv (num den : Nat) : Nat :=
  let q := num / den
  let r := num % den
  if 2 * r < den then q
  else if den < 2 * r then q + 1
  else if q % 2 = 0 then q else q + 1

/-- The magnitude nearest to a quotient, in smallest subnormals: a significand of at most 53 bits
scaled by a power of two. -/
def roundUnits (num den : Nat) : Nat :=
  let exact := num * unitsPerOne
  let surplus := Nat.log2 (exact / den) + 1 - 53
  roundDiv exact (den * Nat.pow 2 surplus) * Nat.pow 2 surplus

/-- The number nearest to a quotient of natural numbers with the given sign. -/
def ofRatio (negative : Bool) (num den : Nat) : Binary64 :=
  let units := roundUnits num den
  if overflowUnits ≤ units then infinite negative else finite negative units

/-- Decimal digits of a magnitude, written as a natural number, times a power of ten.  Exponents
far outside the range are cut short before any power is formed. -/
def ofDecimal (negative : Bool) (digits : Nat) (exponent : Int) : Binary64 :=
  if digits = 0 then finite negative 0
  else
    let size : Int := (Text.ofNat digits).length
    if 400 < size + exponent then infinite negative
    else if size + exponent < -400 then finite negative 0
    else match exponent with
      | .ofNat e => ofRatio negative (digits * Nat.pow 10 e) 1
      | .negSucc e => ofRatio negative digits (Nat.pow 10 (e + 1))

/-- An integer as a number. -/
def ofInt (n : Int) : Binary64 := ofDecimal (decide (n < 0)) n.natAbs 0

/-- Whether a number is greater than zero. -/
def isPositive : Binary64 → Bool
  | nan => false
  | infinite negative => !negative
  | finite negative units => !negative && units != 0

/-- Whether a number equals an integer. -/
def equalsInt (x : Binary64) (n : Int) : Bool :=
  match x with
  | finite negative units => n * unitsPerOne == (if negative then -(units : Int) else units)
  | _ => false

/-- Numeric equality: the two zeros are equal, and so are two results that are no number, because
a document holds only one such value. -/
def sameValue : Binary64 → Binary64 → Bool
  | nan, nan => true
  | infinite a, infinite b => a == b
  | finite a m, finite b n => m == n && (a == b || m == 0)
  | _, _ => false

/-- A number with a fixed count of decimals, ties to even. -/
def fixed (places : Nat) : Binary64 → Text
  | nan => "nan"
  | infinite negative => if negative then "-inf" else "inf"
  | finite negative units =>
    let digits := Text.ofNat (roundDiv (units * Nat.pow 10 places) unitsPerOne)
    let padded := Text.padLeft (places + 1) '0' digits
    let whole := padded.length - places
    (if negative then ['-'] else []) ++ padded.take whole ++
      (if places = 0 then [] else '.' :: padded.drop whole)

end Binary64

end Scaffold
