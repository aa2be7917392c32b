import Scaffold.Number.Binary64

/-!
# The shortest decimal that reads back

A number is written with the fewest significant digits whose decimal reads back as the same
number.  For every count of digits the only candidates are the two neighbours of the number on the
decimal grid of that count, so the search tries them in turn; of two neighbours that both read back
the nearer one is taken.  Reading back is the test itself, hence a decimal found by the search
reads back by construction.
-/

namespace Scaffold.Binary64

/-- Decimal digits of a magnitude, times a power of ten. -/
structure Decimal where
  digits : Nat
  exponent : Int
  deriving DecidableEq, Repr

/-- The number of decimal digits before the point: the least `k` with magnitude below `10 ^ k`,
for a magnitude given in smallest subnormals. -/
def pointPosition (units : Nat) : Int :=
  let k : Int := (Text.ofNat units).length - (Text.ofNat unitsPerOne).length
  let below : Bool := match k with
    | .ofNat e => units < Nat.pow 10 e * unitsPerOne
    | .negSucc e => units * Nat.pow 10 (e + 1) < unitsPerOne
  if below then k else k + 1

/-- The multiple of a power of ten just below a magnitude, and whether the next multiple is
nearer; a magnitude halfway between them goes to the even one. -/
def gridBelow (units : Nat) (exponent : Int) : Nat × Bool :=
  let (num, den) : Nat × Nat := match exponent with
    | .ofNat e => (units, Nat.pow 10 e * unitsPerOne)
    | .negSucc e => (units * Nat.pow 10 (e + 1), unitsPerOne)
  let below := num / den
  let rest := num % den
  (below, decide (den < 2 * rest) || (decide (2 * rest = den) && below % 2 == 1))

/-- The neighbours of a magnitude on a decimal grid, the nearer one first. -/
def neighbours (units : Nat) (exponent : Int) : List Decimal :=
  let (below, above) := gridBelow units exponent
  if above then [⟨below + 1, exponent⟩, ⟨below, exponent⟩]
  else [⟨below, exponent⟩, ⟨below + 1, exponent⟩]

/-- The decimals that are tried for a magnitude, fewer digits first; seventeen always suffice, and
the exact decimal stands last. -/
def candidates (units : Nat) : List Decimal :=
  let k := pointPosition units
  (List.range 17).flatMap (fun n => neighbours units (k - (n + 1 : Nat))) ++
    [⟨units * Nat.pow 5 1074, -1074⟩]

/-- The shortest decimal of a magnitude. -/
def shortest (units : Nat) : Decimal :=
  ((candidates units).find? fun d => ofDecimal false d.digits d.exponent == finite false units).getD
    ⟨units * Nat.pow 5 1074, -1074⟩

/-- Removes trailing zeros of a decimal's digits. -/
def significantDigits (d : Decimal) : Text := Text.dropRightWhile (· == '0') (Text.ofNat d.digits)

/-- Positional or exponent notation of digits with the point after `point` of them.  The exponent
has a sign and at least two digits. -/
def positionalOrExponent (digits : Text) (point : Int) : Text :=
  if -4 < point && point ≤ 16 then
    if point ≤ 0 then "0." ++ List.replicate (-point).toNat '0' ++ digits
    else
      let whole := point.toNat
      if digits.length ≤ whole then
        digits ++ List.replicate (whole - digits.length) '0' ++ ".0"
      else digits.take whole ++ "." ++ digits.drop whole
  else
    let e := point - 1
    let mantissa := match digits with
      | first :: second :: rest => first :: '.' :: second :: rest
      | single => single
    mantissa ++ "e" ++ (if e < 0 then "-" else "+") ++ Text.padLeft 2 '0' (Text.ofNat e.natAbs)

/-- The text of a finite magnitude: positional from `0.0001` below ten to the sixteenth, always with a
point or an exponent. -/
def magnitudeText (units : Nat) : Text :=
  if units = 0 then "0.0"
  else
    let d := shortest units
    positionalOrExponent (significantDigits d) ((Text.ofNat d.digits).length + d.exponent)

/-- The text of a number, given the words for the values that have no digits. -/
def text (nanWord infinityWord : Text) : Binary64 → Text
  | nan => nanWord
  | infinite negative => (if negative then ['-'] else []) ++ infinityWord
  | finite negative units => (if negative then ['-'] else []) ++ magnitudeText units

end Scaffold.Binary64
