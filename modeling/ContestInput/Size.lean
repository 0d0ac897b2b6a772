import ContestInput.Text.Blank
import ContestInput.Text.Digits
/-!
# Sizes

One array dimension: a count, or the name of the variable that holds it.
-/

namespace ContestInput

inductive Size where
  | literal (count : UInt64)
  | symbol (name : String)
  deriving DecidableEq, Repr

inductive Size.Defect where
  | empty
  /-- The digits denote 2^64 or more. -/
  | tooLarge (digits : String)
  deriving DecidableEq, Repr

namespace Size

def text : Size → String
  | .literal count => toString count.toNat
  | .symbol name => name

/-- Reads a size: white space around it is ignored, digits alone are a count, and any other text
is a name. -/
def read (s : String) : Except Defect Size :=
  let body := Text.trim s.toList
  if body.isEmpty then .error .empty
  else if body.all Char.isDigit then
    match Text.word? body with
    | some count => .ok (.literal count)
    | none => .error (.tooLarge (String.ofList body))
  else .ok (.symbol (String.ofList body))

def Defect.message : Defect → String
  | .empty => "empty size expression"
  | .tooLarge digits => "size '" ++ digits ++ "': number too large to fit in target type"

end Size

end ContestInput
