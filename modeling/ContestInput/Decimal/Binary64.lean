/-!
# Double-precision magnitudes

The non-negative finite values of a binary floating-point format with 53 significant bits, in
exact arithmetic. Every operation gives the value nearest to its exact result, of two equally
near ones the one with the even significand, and no value beyond the largest.
-/

namespace ContestInput.Decimal

/-- The value `significand * 2 ^ exponent`. -/
structure Binary64 where
  significand : Nat
  exponent : Int
  deriving DecidableEq, Repr

/-- The whole number nearest to a quotient, the even one of two. -/
def roundQuotient (num den : Nat) : Nat :=
  let q := num / den
  let twice := 2 * (num % den)
  if twice < den || (twice = den && q % 2 = 0) then q else q + 1

namespace Binary64

def minExponent : Int := -1074

def maxExponent : Int := 971

/-- The significand of one, and the least that uses all 53 bits. -/
def unit : Nat := Nat.pow 2 52

/-- Rounds `num / den` to a multiple of `2 ^ exponent`, where that leaves 53 bits at most. -/
def roundAt (num den : Nat) (exponent : Int) : Option Binary64 :=
  let m := roundQuotient (num * Nat.pow 2 (-exponent).toNat) (den * Nat.pow 2 exponent.toNat)
  let x : Binary64 := if m = 2 * unit then ⟨unit, exponent + 1⟩ else ⟨m, exponent⟩
  if x.exponent ≤ maxExponent then some x else none

/-- The value nearest to `num / den`, if the format reaches that far. -/
def ofRatio? (num den : Nat) : Option Binary64 :=
  if num = 0 then some ⟨0, minExponent⟩
  else
    let low := max minExponent ((Nat.log2 num : Int) - Nat.log2 den - 53)
    if num * Nat.pow 2 (-low).toNat < 2 * unit * (den * Nat.pow 2 low.toNat) then
      roundAt num den low
    else roundAt num den (low + 1)

def ofScaled? (num den : Nat) (exponent : Int) : Option Binary64 :=
  ofRatio? (num * Nat.pow 2 exponent.toNat) (den * Nat.pow 2 (-exponent).toNat)

def mul? (x y : Binary64) : Option Binary64 :=
  ofScaled? (x.significand * y.significand) 1 (x.exponent + y.exponent)

def div? (x y : Binary64) : Option Binary64 :=
  ofScaled? x.significand y.significand (x.exponent - y.exponent)

def tenPow? (n : Nat) : Option Binary64 :=
  ofRatio? (Nat.pow 10 n) 1

def ratio (x : Binary64) : Nat × Nat :=
  (x.significand * Nat.pow 2 x.exponent.toNat, Nat.pow 2 (-x.exponent).toNat)

/-- The largest power of ten that is a value of the format. -/
def tenStep : Nat := 308

/-- The value times a power of ten, in steps that stay within the powers of the format; each
step is rounded. -/
def scaleTen? (x : Binary64) (power : Int) : Option Binary64 :=
  if power.natAbs ≤ tenStep then do
    let step ← tenPow? power.natAbs
    if 0 ≤ power then x.mul? step else x.div? step
  else if x.significand = 0 then some x
  else if 0 ≤ power then none
  else do
    let step ← tenPow? tenStep
    let y ← x.div? step
    y.scaleTen? (power + tenStep)
termination_by power.natAbs
decreasing_by
  unfold tenStep at *
  omega

end Binary64

end ContestInput.Decimal
