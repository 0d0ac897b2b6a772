import ContestInput.Bound.Clause
import ContestInput.Bound.Power
import ContestInput.Constant
import ContestInput.Fault
/-!
# Extracting constants

Each clause of a description becomes one constant, in the order of the text. An identifier that
is bounded twice gives two constants, and the first bound that does not fit ends the extraction.
-/

namespace ContestInput

namespace Bound

/-- The value of a bound. The base has to fit 64 bits, the exponent 32 and the power 64. -/
def value? (base : List Char) (exponent : Option (List Char)) : Option UInt64 := do
  let b ← Text.word? base
  match exponent with
  | none => some b
  | some digits =>
    if Text.ofDigits digits < UInt32.size then pow? b (Text.ofDigits digits) else none

def written (base : List Char) (exponent : Option (List Char)) : String :=
  match exponent with
  | none => String.ofList base
  | some digits => String.ofList (base ++ '^' :: digits)

def value (base : List Char) (exponent : Option (List Char)) : Except Fault UInt64 :=
  match value? base exponent with
  | some v => .ok v
  | none => .error (.constantOverflow (written base exponent))

def Clause.constant (c : Clause) : Except Fault Constant := do
  let v ← value c.base c.exponent
  return ⟨constantName (String.ofList c.identifier), v⟩

def extract (description : String) : Except Fault (List Constant) :=
  (clauses (normalize description)).mapM Clause.constant

end Bound

/-- Where the constants of a description come from. -/
abbrev Extractor := String → Except Fault (List Constant)

end ContestInput
