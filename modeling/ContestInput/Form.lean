import ContestInput.Fault
/-!
# Forms

The form of a definition is its layout together with a kind of value that the layout can hold.
Only arrays have runs of characters, so there is no form of single characters or of parallel
arrays of them. A run's own dimension is the width of a text that is read at once; every other
dimension is run over by a loop. A definition has a form only if its names and sizes fit its
layout.
-/

namespace ContestInput

def Layout.holds : Layout → Item → Bool
  | .single, .char => false
  | .varray, .char => false
  | _, _ => true

structure Form where
  layout : Layout
  item : Item
  holds : layout.holds item = true
  deriving DecidableEq, Repr

namespace Form

def of (layout : Layout) (item : Item) : Except Fault Form :=
  if h : layout.holds item = true then .ok ⟨layout, item, h⟩
  else .error (.unsupportedCombination layout item)

def arity (f : Form) : Nat :=
  f.layout.arity

/-- The number of dimensions that loops run over. -/
def loopDepth (f : Form) : Nat :=
  match f.item with
  | .char => f.arity - 1
  | .number | .string => f.arity

end Form

/-- The first name that is among `seen` or the names before it. -/
def firstRepeated? (seen : List String) : List String → Option String
  | [] => none
  | name :: names => if name ∈ seen then some name else firstRepeated? (name :: seen) names

namespace Definition

/-- Checks what a definition promises whatever the constants are: names, no two of them equal,
one alone where the layout is for one variable, and a size for each dimension. -/
def validate (d : Definition) : Except Fault Unit :=
  if d.names.isEmpty then .error (.emptyNames d.layout)
  else if d.layout.oneName && d.names.length ≠ 1 then
    .error (.nameCount d.layout d.names.length)
  else match firstRepeated? [] d.names with
    | some name => .error (.duplicateName name)
    | none =>
      if d.sizes.length ≠ d.layout.arity then
        .error (.sizeArity d.layout d.layout.arity d.sizes.length)
      else .ok ()

def form (d : Definition) : Except Fault Form := do
  d.validate
  Form.of d.layout d.item

end Definition

end ContestInput
