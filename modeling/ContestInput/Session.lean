import ContestInput.Program.Basic
import ContestInput.Report
import ContestInput.Wire.Problem
/-!
# Sessions

A session edits one problem step by step. Each step gives an answer and the problem after it; a
step that fails leaves the problem as it was.
-/

namespace ContestInput.Session

inductive Step where
  /-- A problem with nothing but an identifier. -/
  | new (id : String)
  /-- The empty problem. -/
  | clear
  /-- The problem that a JSON text holds. -/
  | load (text : String)
  | describe (description : String)
  | addDefinition (definition : Definition)
  | define (definitions : List Definition)
  | addSource (source : Source)
  /-- Adds the problem's program to its sources. -/
  | process (extractor : Extractor)
  | generate (extractor : Extractor)
  | check (extractor : Extractor)
  /-- The constants of the description. -/
  | constants
  /-- The problem as JSON. -/
  | write
  /-- Writes the problem as JSON and reads it again. -/
  | reload

inductive Answer where
  | done
  | text (text : String)
  | report (report : Report)
  | constants (constants : List Constant)
  /-- Whether the reloaded problem is the one that was written. -/
  | same (same : Bool)
  | failed (fault : Fault)
  deriving DecidableEq, Repr

/-- The answer of a step and the problem after it, if the step does not fail. -/
def Step.attempt (p : Problem) : Step → Except Fault (Answer × Problem)
  | .new id => .ok (.done, { Problem.empty with id := id })
  | .clear => .ok (.done, .empty)
  | .load text => return (.done, ← Problem.read text)
  | .describe description => .ok (.done, { p with description := description })
  | .addDefinition d => .ok (.done, { p with definitions := p.definitions ++ [d] })
  | .define ds => .ok (.done, { p with definitions := ds })
  | .addSource source => .ok (.done, p.addSource source)
  | .process extractor => return (.done, ← p.process extractor)
  | .generate extractor => return (.text (← p.generate extractor), p)
  | .check extractor => .ok (.report (p.check extractor), p)
  | .constants => return (.constants (← Bound.extract p.description), p)
  | .write => .ok (.text p.write, p)
  | .reload => do
    let q ← Problem.read p.write
    return (.same (q = p), q)

def Step.apply (p : Problem) (s : Step) : Answer × Problem :=
  match s.attempt p with
  | .ok next => next
  | .error fault => (.failed fault, p)

/-- Takes steps in order: the answer of each one and the problem after it. -/
def run (p : Problem) : List Step → List (Answer × Problem)
  | [] => []
  | s :: steps => s.apply p :: run (s.apply p).2 steps

end ContestInput.Session
