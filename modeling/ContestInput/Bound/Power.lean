/-!
# Powers that fit a word

Multiplication and powers of 64-bit words that give no answer where the exact number needs more
than 64 bits. The power squares its base once for each binary digit of the exponent, but never
once too often: a square is taken only where the result has to contain it.
-/

namespace ContestInput.Bound

def mul? (a b : UInt64) : Option UInt64 :=
  if a.toNat * b.toNat < UInt64.size then some (a * b) else none

/-- `acc` times the `exponent`-th power of `base`, if it fits. -/
def powTimes? (acc base : UInt64) (exponent : Nat) : Option UInt64 :=
  if exponent = 0 then some acc
  else if exponent = 1 then mul? acc base
  else do
    let acc ← if exponent % 2 = 1 then mul? acc base else some acc
    let square ← mul? base base
    powTimes? acc square (exponent / 2)
termination_by exponent
decreasing_by omega

/-- The power of a word, if it fits; the zeroth power of zero is one. -/
def pow? (base : UInt64) (exponent : Nat) : Option UInt64 :=
  powTimes? 1 base exponent

end ContestInput.Bound
