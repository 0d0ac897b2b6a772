import ContestInput.Json.Value
import ContestInput.Report
/-!
# Reports as JSON

The written form of a report on the problem with a given identifier, with the keys of each object
in alphabetical order.
-/

namespace ContestInput

open Json (Value)

def Diagnostic.toJson (d : Diagnostic) : Value :=
  .object
    [("index", d.index.elim .null .number),
     ("message", .string d.fault.message),
     ("severity", .string d.severity.text)]

def Report.toJson (id : String) (r : Report) : Value :=
  .object
    [("diagnostics", .array (r.map Diagnostic.toJson)),
     ("errors", .number r.errors.length),
     ("q", .string id),
     ("valid", .bool r.isValid),
     ("warnings", .number r.warnings.length)]

end ContestInput
