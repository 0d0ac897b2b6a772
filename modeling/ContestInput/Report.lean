import ContestInput.Bound.Extract
import ContestInput.Program.Input
import ContestInput.Program.Storage
import ContestInput.Problem
/-!
# Reports

What a check finds in a list of definitions, each definition judged by itself: its fault if it
has one, and else a warning for each string whose width no constant bounds. A description whose
constants cannot be extracted is the only finding of its check.
-/

namespace ContestInput

inductive Severity where
  | error
  | warning
  deriving DecidableEq, Repr

/-- A finding, and the position of the definition that it concerns; one without a position
concerns the description. -/
structure Diagnostic where
  severity : Severity
  index : Option Nat
  fault : Fault
  deriving DecidableEq, Repr

def Severity.text : Severity → String
  | .error => "error"
  | .warning => "warning"

def Diagnostic.text (d : Diagnostic) : String :=
  match d.index with
  | some index => "definition " ++ toString index ++ ": " ++ d.fault.message
  | none => "description: " ++ d.fault.message

abbrev Report := List Diagnostic

namespace Report

def errors (r : Report) : List Diagnostic :=
  r.filter (·.severity = .error)

def warnings (r : Report) : List Diagnostic :=
  r.filter (·.severity = .warning)

/-- Whether a report has no errors. Warnings do not count. -/
def isValid (r : Report) : Bool :=
  !r.any (·.severity = .error)

end Report

def Definition.findings (constants : List Constant) (index : Nat) (d : Definition) : Report :=
  match d.declarations constants *> d.readStatement with
  | .ok _ => (d.missingWidths constants).map (⟨.warning, some index, ·⟩)
  | .error fault => [⟨.error, some index, fault⟩]

namespace Report

def ofDefinitions (constants : List Constant) (ds : List Definition) : Report :=
  (ds.mapIdx (Definition.findings constants)).flatten

def check (extractor : Extractor) (ds : List Definition) (description : String) : Report :=
  match extractor description with
  | .ok constants => ofDefinitions constants ds
  | .error fault => [⟨.error, none, fault⟩]

end Report

def Problem.check (extractor : Extractor) (p : Problem) : Report :=
  Report.check extractor p.definitions p.description

end ContestInput
