import ContestInput.FileError
import ContestInput.Program.Basic
import ContestInput.Wire.Problem
import ContestInput.Wire.Report
/-!
# The command line

The commands, over any place that files can be read from and written to. A command has exit
code 0 where it succeeds, 1 where the problem is at fault and 2 where it could not do its work;
only a success prints anything but messages.
-/

namespace ContestInput.CommandLine

inductive Command where
  /-- Writes the program of the problem in a file, to another file if one is named. -/
  | generate (file : String) (output : Option String)
  /-- Lists the constants of a problem. -/
  | constants (file : String) (json : Bool)
  /-- Checks a problem without writing its program. -/
  | check (file : String) (json : Bool)
  | version
  deriving DecidableEq, Repr

structure Invocation where
  /-- Whether messages of success are left out. -/
  quiet : Bool
  command : Command
  deriving DecidableEq, Repr

structure Outcome where
  code : Nat
  output : String
  messages : String
  deriving DecidableEq, Repr

/-- A place for files. -/
structure Files (m : Type → Type) where
  read : (path : String) → m (Except FileError String)
  write : (path content : String) → m (Except FileError Unit)

def errorLine (text : String) : String :=
  "error: " ++ text ++ "\n"

def success (output : String) : Outcome :=
  ⟨0, output, ""⟩

/-- The end of a command whose problem is at fault. -/
def invalid (text : String) : Outcome :=
  ⟨1, "", errorLine text⟩

/-- The end of a command that cannot do its work. -/
def failure (text : String) : Outcome :=
  ⟨2, "", errorLine text⟩

def problem (file : String) (content : Except FileError String) : Except Outcome Problem :=
  match content with
  | .error e => .error (failure ("cannot read " ++ file ++ ": " ++ e.message))
  | .ok text =>
    match Problem.read text with
    | .ok p => .ok p
    | .error fault => .error (failure (file ++ ": " ++ fault.message))

def listConstants (json : Bool) (p : Problem) : Outcome :=
  match Bound.extract p.description with
  | .error fault => invalid (p.id ++ ": " ++ fault.message)
  | .ok constants =>
    if json then success ((Constant.listToJson constants).indentedText ++ "\n")
    else success (String.join (constants.map fun c => c.text ++ "\n"))

def report (quiet json : Bool) (p : Problem) : Outcome :=
  let r := p.check Bound.extract
  let code := if r.isValid then 0 else 1
  if json then ⟨code, (r.toJson p.id).text ++ "\n", ""⟩
  else
    ⟨code, if r.isValid && !quiet then "✓ " ++ p.id ++ " is valid\n" else "",
      String.join (r.map fun d => d.severity.text ++ ": " ++ d.text ++ "\n")⟩

/-- The program of a problem: the last of its sources once the program is added to them. Sources
that the problem came with are not told. -/
def program (p : Problem) : Except Outcome String :=
  match p.process Bound.extract with
  | .error fault => .error (invalid (p.id ++ ": " ++ fault.message))
  | .ok processed =>
    match processed.sources.getLast? with
    | some source => .ok source.text
    | none => .error ⟨2, "", ""⟩

def written (quiet : Bool) (id file : String) : Except FileError Unit → Outcome
  | .ok _ => ⟨0, "", if quiet then "" else "generated " ++ id ++ " → " ++ file ++ "\n"⟩
  | .error e => failure ("cannot write " ++ file ++ ": " ++ e.message)

def versionText : String :=
  "skelgen 0.1.0 (skelgen-core 0.1.0)\n"

def run {m : Type → Type} [Monad m] (files : Files m) (invocation : Invocation) : m Outcome :=
  match invocation.command with
  | .version => pure (success versionText)
  | .constants file json => do
    match problem file (← files.read file) with
    | .ok p => pure (listConstants json p)
    | .error outcome => pure outcome
  | .check file json => do
    match problem file (← files.read file) with
    | .ok p => pure (report invocation.quiet json p)
    | .error outcome => pure outcome
  | .generate file output => do
    match problem file (← files.read file) with
    | .error outcome => pure outcome
    | .ok p =>
      match program p, output with
      | .error outcome, _ => pure outcome
      | .ok text, none => pure (success text)
      | .ok text, some target => do
        return written invocation.quiet p.id target (← files.write target text)

end ContestInput.CommandLine
