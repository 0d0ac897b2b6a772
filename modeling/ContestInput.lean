import ContestInput.Folder
import ContestInput.Main
import ContestInput.Session
import ContestInput.Proofs.Fallible
import ContestInput.Proofs.Verdict
import ContestInput.Proofs.Bound.Signs
import ContestInput.Proofs.Bound.Value
import ContestInput.Proofs.Bound.Match
import ContestInput.Proofs.Bound.Reading
import ContestInput.Proofs.Bound.Extract
import ContestInput.Proofs.Json.Lexeme
import ContestInput.Proofs.Json.Document
import ContestInput.Proofs.Json.Outline
import ContestInput.Proofs.Json.Presentation
import ContestInput.Proofs.Json.Record
import ContestInput.Proofs.Wire.Presented
import ContestInput.Proofs.Json.Compact
import ContestInput.Proofs.Wire.RoundTrip
import ContestInput.Proofs.Wire.Canonical
import ContestInput.Proofs.Form
import ContestInput.Proofs.Program.Lines
import ContestInput.Proofs.Constant
import ContestInput.Proofs.Program.Storage
import ContestInput.Proofs.Program.Input
import ContestInput.Proofs.Program.Typing
import ContestInput.Proofs.Program.Execution
import ContestInput.Proofs.Program.References
import ContestInput.Proofs.Program.Template
import ContestInput.Proofs.Bound.Names
import ContestInput.Proofs.Program.Source
import ContestInput.Proofs.Bound.Case
import ContestInput.Proofs.Bound.Constraints
import ContestInput.Proofs.Bound.Separator
import ContestInput.Proofs.Bound.Comma
import ContestInput.Proofs.Program.Constants
import ContestInput.Proofs.Program.Scope
import ContestInput.Proofs.Program.Range
import ContestInput.Proofs.Locality
import ContestInput.Proofs.Session
import ContestInput.Proofs.Folder
import ContestInput.Proofs.CommandLine
import ContestInput.Proofs.Faults
import ContestInput.Proofs.Bound.Resolution
import ContestInput.Proofs.Json.Indented
import ContestInput.Proofs.Wire.Output
import ContestInput.Proofs.Program.Monotone
import ContestInput.Proofs.Wire.Size
import ContestInput.Proofs.Program.Positions
