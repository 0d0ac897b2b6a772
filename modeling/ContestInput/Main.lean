import ContestInput.CommandLine
/-!
# The program

The command line on the files of the machine.
-/

namespace ContestInput.Main

open CommandLine

def fileError : IO.Error → FileError
  | .noFileOrDirectory .. => .notFound
  | .noSuchThing .. => .notFound
  | .permissionDenied .. => .permissionDenied
  | .inappropriateType _ code _ => if code = 20 then .notFolder else .isFolder
  | e => .other e.toString

def read (path : String) : IO (Except FileError String) := do
  try
    let bytes ← IO.FS.readBinFile path
    match String.fromUTF8? bytes with
    | some text => return .ok text
    | none => return .error (.other "stream did not contain valid UTF-8")
  catch e => return .error (fileError e)

def write (path content : String) : IO (Except FileError Unit) := do
  try
    IO.FS.writeFile path content
    return .ok ()
  catch e => return .error (fileError e)

/-- What a list of arguments asks for. Options may stand anywhere. -/
def invocation? (arguments : List String) : Option Invocation :=
  let quiet := arguments.contains "--quiet"
  match arguments.filter (· ≠ "--quiet") with
  | ["version"] => some ⟨quiet, .version⟩
  | ["generate", file] => some ⟨quiet, .generate file none⟩
  | ["generate", file, "--output", target] => some ⟨quiet, .generate file (some target)⟩
  | ["generate", file, "-o", target] => some ⟨quiet, .generate file (some target)⟩
  | ["generate", "--output", target, file] => some ⟨quiet, .generate file (some target)⟩
  | ["generate", "-o", target, file] => some ⟨quiet, .generate file (some target)⟩
  | ["consts", file] => some ⟨quiet, .constants file false⟩
  | ["consts", file, "--json"] => some ⟨quiet, .constants file true⟩
  | ["consts", "--json", file] => some ⟨quiet, .constants file true⟩
  | ["check", file] => some ⟨quiet, .check file false⟩
  | ["check", file, "--json"] => some ⟨quiet, .check file true⟩
  | ["check", "--json", file] => some ⟨quiet, .check file true⟩
  | _ => none

def usage : String :=
  "usage: skelgen [--quiet] generate FILE [--output FILE] | consts FILE [--json] | " ++
    "check FILE [--json] | version"

end ContestInput.Main

open ContestInput in
def main (arguments : List String) : IO UInt32 := do
  match Main.invocation? arguments with
  | none =>
    IO.eprintln Main.usage
    return 2
  | some invocation =>
    let outcome ← CommandLine.run ⟨Main.read, Main.write⟩ invocation
    IO.print outcome.output
    IO.eprint outcome.messages
    return outcome.code.toUInt32
