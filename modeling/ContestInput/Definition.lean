import ContestInput.Size
/-!
# Input definitions

The typed description of one part of a problem's standard input: which variables it holds, how
they are laid out, and what their values are.
-/

namespace ContestInput

/-- How the values of a definition are laid out. -/
inductive Layout where
  /-- Independent values, one for each name. -/
  | single
  /-- One variable indexed along one dimension. -/
  | harray
  /-- Parallel arrays that are read row by row. -/
  | varray
  /-- One variable with two dimensions. -/
  | matrix
  deriving DecidableEq, Repr, Inhabited

inductive Item where
  | number
  | string
  /-- A run of characters of fixed width, read as one text. -/
  | char
  deriving DecidableEq, Repr, Inhabited

namespace Layout

/-- The number of sizes that a definition with this layout has. -/
def arity : Layout → Nat
  | .single => 0
  | .harray | .varray => 1
  | .matrix => 2

def oneName : Layout → Bool
  | .harray | .matrix => true
  | .single | .varray => false

def text : Layout → String
  | .single => "single"
  | .harray => "harray"
  | .varray => "varray"
  | .matrix => "matrix"

end Layout

def Item.text : Item → String
  | .number => "number"
  | .string => "string"
  | .char => "char"

structure Definition where
  layout : Layout
  item : Item
  names : List String
  sizes : List Size
  deriving DecidableEq, Repr, Inhabited

end ContestInput
