import ContestInput.Form
/-!
# Input statements

The statements by which a program reads its input. One statement reads one definition: a loop for
each dimension that is not the width of a text, and inside them one read for each variable.
-/

namespace ContestInput

namespace Program

/-- The variables that loops run over, the outer one first. -/
inductive Index where
  | i
  | j
  deriving DecidableEq, Repr

structure Loop where
  index : Index
  bound : Size
  deriving DecidableEq, Repr

inductive Conversion where
  | decimal
  /-- Characters up to white space. -/
  | word
  deriving DecidableEq, Repr

/-- Where a value goes. -/
inductive Target where
  /-- The address of a variable's element. -/
  | element (name : String) (indices : List Index)
  /-- A variable's element that is an array itself, and so an address. -/
  | buffer (name : String) (indices : List Index)
  /-- The address at some distance behind the start of an array. -/
  | offset (name : String) (index : Index)
  deriving DecidableEq, Repr

structure ReadStatement where
  /-- The loops, the outermost first. -/
  loops : List Loop
  reads : List (Conversion × Target)
  deriving DecidableEq, Repr

end Program

open Program

namespace Form

def indices (f : Form) : List Index :=
  [Index.i, Index.j].take f.loopDepth

def conversion (f : Form) : Conversion :=
  match f.item with
  | .number => .decimal
  | .string | .char => .word

def target (f : Form) (name : String) : Target :=
  match f.item, f.indices with
  | .number, [index] => .offset name index
  | .number, indices => .element name indices
  | .string, indices => .buffer name indices
  | .char, indices => .buffer name indices

def readStatement (f : Form) (sizes : List Size) (names : List String) : ReadStatement where
  loops := f.indices.zipWith (⟨·, ·⟩) sizes
  reads := names.map fun name => (f.conversion, f.target name)

end Form

def Definition.readStatement (d : Definition) : Except Fault ReadStatement := do
  let form ← d.form
  return form.readStatement d.sizes d.names

def Program.readStatementsOf (ds : List Definition) : Except Fault (List ReadStatement) :=
  ds.mapM Definition.readStatement

end ContestInput
