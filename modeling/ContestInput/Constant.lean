import ContestInput.Text.UpperCase
/-!
# Constants

Named upper bounds. A bound on an identifier and a size that mentions the identifier meet in the
constant's name, which does not depend on the case of either.
-/

namespace ContestInput

/-- The name of the constant that bounds an identifier. -/
def constantName (identifier : String) : String :=
  String.ofList (Text.upper identifier.toList) ++ "_MAX"

theorem constantName_ofList (identifier : List Char) :
    constantName (String.ofList identifier) = String.ofList (Text.upper identifier) ++ "_MAX" := by
  rw [constantName, String.toList_ofList]

structure Constant where
  name : String
  value : UInt64
  deriving DecidableEq, Repr, Inhabited

namespace Constant

def text (c : Constant) : String :=
  c.name ++ " = " ++ toString c.value.toNat

def declares (constants : List Constant) (name : String) : Bool :=
  constants.any (·.name = name)

end Constant

end ContestInput
