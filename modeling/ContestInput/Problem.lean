import ContestInput.Definition
/-!
# Problems

A contest problem as it is handed from tool to tool: its identifier, the text with its limits,
the definitions of its input, and the programs written for it so far.
-/

namespace ContestInput

structure Source where
  extension : String
  text : String
  deriving DecidableEq, Repr, Inhabited

structure Problem where
  id : String
  description : String
  definitions : List Definition
  sources : List Source
  deriving DecidableEq, Repr, Inhabited

namespace Problem

def empty : Problem := ⟨"", "", [], []⟩

def addSource (p : Problem) (s : Source) : Problem :=
  { p with sources := p.sources ++ [s] }

end Problem

end ContestInput
