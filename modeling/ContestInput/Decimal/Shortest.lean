import ContestInput.Decimal.Binary64
/-!
# The shortest decimal of a double

A double is written with the fewest digits that still read back as the same double, and of the
decimals with that many digits the nearest one is taken. On each grid of decimals only the two
neighbours of the exact value have to be tried.
-/

namespace ContestInput.Decimal

/-- The decimal `digits * 10 ^ exponent`, read with the point behind the last digit. -/
structure Scaled where
  digits : Nat
  exponent : Int
  deriving DecidableEq, Repr

/-- The quotient of two numbers as a quotient in units of `10 ^ exponent`. -/
def inUnits (num den : Nat) (exponent : Int) : Nat × Nat :=
  (num * Nat.pow 10 (-exponent).toNat, den * Nat.pow 10 exponent.toNat)

/-- The exponent of the leading decimal digit of a positive quotient. -/
def leadingExponent (num den : Nat) : Int :=
  let guess : Int := (Nat.toDigits 10 num).length - (Nat.toDigits 10 den).length
  let (n, d) := inUnits num den guess
  if d ≤ n then guess else guess - 1

namespace Scaled

def toBinary64? (x : Scaled) : Option Binary64 :=
  Binary64.ofRatio? (x.digits * Nat.pow 10 x.exponent.toNat)
    (Nat.pow 10 (-x.exponent).toNat)

def nearest (x : Binary64) (exponent : Int) : Scaled :=
  let (num, den) := inUnits x.ratio.1 x.ratio.2 exponent
  ⟨roundQuotient num den, exponent⟩

/-- The multiple of `10 ^ exponent` that is nearest to a double among its two neighbours that
read back as it. -/
def neighbour? (x : Binary64) (exponent : Int) : Option Scaled :=
  let (num, den) := inUnits x.ratio.1 x.ratio.2 exponent
  let below : Scaled := ⟨num / den, exponent⟩
  let above : Scaled := ⟨num / den + 1, exponent⟩
  match below.toBinary64? == some x, above.toBinary64? == some x with
  | true, true => some (nearest x exponent)
  | true, false => some below
  | false, true => some above
  | false, false => none

end Scaled

/-- The shortest decimal of a double other than zero. Seventeen digits are always enough, so the
grid with that many needs no test. -/
def Binary64.shortest (x : Binary64) : Scaled :=
  let leading := leadingExponent x.ratio.1 x.ratio.2
  ((List.range 16).findSome? fun (n : Nat) => Scaled.neighbour? x (leading - n)).getD
    (Scaled.nearest x (leading - 16))

end ContestInput.Decimal
