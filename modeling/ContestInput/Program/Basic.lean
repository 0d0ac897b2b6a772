import ContestInput.Bound.Extract
import ContestInput.Problem
import ContestInput.Program.Template
import ContestInput.Program.Text
/-!
# Programs

The program for a list of definitions and a description. The constants come from the description,
the declarations from the definitions and the constants, and the input statements from the
definitions; of several faults the first in this order is told.
-/

namespace ContestInput

structure Program where
  constants : List Constant
  declarations : List Program.Declaration
  reads : List Program.ReadStatement
  deriving DecidableEq, Repr

namespace Program

def ofDefinitions (constants : List Constant) (ds : List Definition) : Except Fault Program := do
  let declarations ← declarationsOf constants ds
  let reads ← readStatementsOf ds
  return ⟨constants, declarations, reads⟩

def text (p : Program) : String :=
  Template.fill (p.constants.map Constant.line) (p.declarations.map Declaration.text)
    (p.reads.map ReadStatement.text)

def generate (extractor : Extractor) (ds : List Definition) (description : String) :
    Except Fault String := do
  let constants ← extractor description
  let program ← ofDefinitions constants ds
  return program.text

def extension : String := "cxx"

end Program

namespace Problem

def generate (extractor : Extractor) (p : Problem) : Except Fault String :=
  Program.generate extractor p.definitions p.description

def process (extractor : Extractor) (p : Problem) : Except Fault Problem := do
  let text ← p.generate extractor
  return p.addSource ⟨Program.extension, text⟩

end Problem

end ContestInput
