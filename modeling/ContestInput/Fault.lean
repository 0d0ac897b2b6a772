import ContestInput.Definition
import ContestInput.Json.Misfit
/-!
# Faults

Everything that can be wrong with a problem, and how it is told.
-/

namespace ContestInput

inductive Fault where
  /-- The layout cannot hold values of this kind. -/
  | unsupportedCombination (layout : Layout) (item : Item)
  /-- No constant bounds the symbol of a size. -/
  | unresolvedSize (symbol constant : String)
  /-- No constant bounds the length of a string. -/
  | unresolvedWidth (name constant : String)
  | sizeArity (layout : Layout) (expected found : Nat)
  | emptyNames (layout : Layout)
  | nameCount (layout : Layout) (found : Nat)
  | duplicateName (name : String)
  /-- A bound, as written, needs more than 64 bits. -/
  | constantOverflow (bound : String)
  | badSize (cause : Size.Defect)
  | badJson (cause : Json.Misfit)
  deriving DecidableEq, Repr

def Fault.message : Fault → String
  | .unsupportedCombination layout item =>
    "Unsupported combination: " ++ layout.text ++ " of " ++ item.text
  | .unresolvedSize symbol constant =>
    "Unresolved size: '" ++ symbol ++ "' needs constant " ++ constant
  | .unresolvedWidth name constant =>
    "Unresolved width: string '" ++ name ++ "' needs constant " ++ constant
  | .sizeArity layout expected found =>
    "Size arity mismatch for " ++ layout.text ++ ": expected " ++ toString expected ++
      ", found " ++ toString found
  | .emptyNames layout => "Empty names in " ++ layout.text ++ " definition"
  | .nameCount layout found =>
    "Name count for " ++ layout.text ++ ": expected 1, found " ++ toString found
  | .duplicateName name => "Duplicate name '" ++ name ++ "' in definition"
  | .constantOverflow bound => "Constant overflow: " ++ bound
  | .badSize cause => "Invalid definition: " ++ cause.message
  | .badJson cause => "Invalid definition: " ++ cause.message

end ContestInput
