import ContestInput.Decimal.Shortest
/-!
# The text of a double

Which of its two written forms a double takes, and how each looks: the positional form always
shows a point, the other one always the sign of its exponent.
-/

namespace ContestInput.Decimal

/-- The decimal exponents that are written positionally. -/
def isPositional (exponent : Int) : Bool :=
  -5 ≤ exponent && exponent ≤ 15

/-- Digits with the point behind the one whose exponent is zero. -/
def positional (digits : List Char) (exponent : Int) : List Char :=
  if exponent < 0 then
    ['0', '.'] ++ List.replicate (-exponent - 1).toNat '0' ++ digits
  else
    let whole := exponent.toNat + 1
    let padded := digits ++ List.replicate (whole - digits.length) '0'
    let fraction := digits.drop whole
    padded.take whole ++ ['.'] ++ (if fraction.isEmpty then ['0'] else fraction)

/-- One digit before the point, and an exponent with its sign and no leading zeros. -/
def scientific (digits : List Char) (exponent : Int) : List Char :=
  let fraction := digits.drop 1
  digits.take 1 ++ (if fraction.isEmpty then [] else '.' :: fraction) ++
    ['e', if exponent < 0 then '-' else '+'] ++ Nat.toDigits 10 exponent.natAbs

def Binary64.text (x : Binary64) : List Char :=
  if x.significand = 0 then positional ['0'] 0
  else
    let s := x.shortest
    let digits := Nat.toDigits 10 s.digits
    let exponent := s.exponent + digits.length - 1
    let digits := (digits.reverse.dropWhile (· = '0')).reverse
    if isPositional exponent then positional digits exponent else scientific digits exponent

example : (Binary64.ofRatio? 3 2).map (String.ofList ·.text) = some "1.5" := by decide +kernel

example : (Binary64.ofRatio? 1000 1).map (String.ofList ·.text) = some "1000.0" := by
  decide +kernel

example : (Binary64.ofRatio? UInt64.size 1).map (String.ofList ·.text) =
    some "1.8446744073709552e+19" := by
  decide +kernel

example : (Binary64.ofRatio? 1 3000000).map (String.ofList ·.text) =
    some "3.3333333333333335e-7" := by
  decide +kernel

end ContestInput.Decimal
