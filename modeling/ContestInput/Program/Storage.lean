import ContestInput.Constant
import ContestInput.Form
/-!
# Storage

The variables that a program declares for its input. An array has the dimensions of its
definition, with a constant in the place of a symbol; a string or a run of characters has one
more place for its end mark.
-/

namespace ContestInput

namespace Program

inductive BaseType where
  | int
  | char
  deriving DecidableEq, Repr

/-- A size as a declaration has it: a number, or the name of a constant. -/
inductive Count where
  | literal (value : UInt64)
  | constant (name : String)
  deriving DecidableEq, Repr

/-- One dimension of an array. One that holds text has a place for its end mark. -/
structure Extent where
  count : Count
  terminated : Bool
  deriving DecidableEq, Repr

structure Variable where
  name : String
  extents : List Extent
  deriving DecidableEq, Repr

structure Declaration where
  base : BaseType
  declared : List Variable
  deriving DecidableEq, Repr

/-- The extents of runs of text, whose last dimension holds the text. -/
def terminateLast : List Count → List Extent
  | [] => []
  | [c] => [⟨c, true⟩]
  | c :: cs => ⟨c, false⟩ :: terminateLast cs

end Program

open Program

namespace Form

def base (f : Form) : BaseType :=
  match f.item with
  | .number => .int
  | .string | .char => .char

/-- The extents of a variable. The width of a string is bounded by the constant of the variable's
own name. -/
def extents (f : Form) (counts : List Count) (name : String) : List Extent :=
  match f.item with
  | .number => counts.map (⟨·, false⟩)
  | .string => counts.map (⟨·, false⟩) ++ [⟨.constant (constantName name), true⟩]
  | .char => terminateLast counts

/-- The lines that declare variables of the form. Single numbers share a line. -/
def declarations (f : Form) (counts : List Count) (names : List String) : List Declaration :=
  let declared : List Variable := names.map fun name => ⟨name, f.extents counts name⟩
  match f.layout, f.item with
  | .single, .number => [⟨f.base, declared⟩]
  | _, _ => declared.map fun v => ⟨f.base, [v]⟩

end Form

/-- The count that a size stands for. A symbol needs a constant. -/
def Size.resolve (constants : List Constant) : Size → Except Fault Count
  | .literal value => .ok (.literal value)
  | .symbol name =>
    if Constant.declares constants (constantName name) then .ok (.constant (constantName name))
    else .error (.unresolvedSize name (constantName name))

namespace Definition

def declarations (constants : List Constant) (d : Definition) :
    Except Fault (List Declaration) := do
  let form ← d.form
  let counts ← d.sizes.mapM (Size.resolve constants)
  return form.declarations counts d.names

/-- The constants of string widths that are missing, a fault for each, whatever else may be wrong
with the definition. -/
def missingWidths (constants : List Constant) (d : Definition) : List Fault :=
  match d.item with
  | .string =>
    (d.names.filter fun name => !Constant.declares constants (constantName name)).map fun name =>
      .unresolvedWidth name (constantName name)
  | .number | .char => []

end Definition

def Program.declarationsOf (constants : List Constant) (ds : List Definition) :
    Except Fault (List Declaration) := do
  return (← ds.mapM (Definition.declarations constants)).flatten

end ContestInput
