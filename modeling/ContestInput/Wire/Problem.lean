import ContestInput.Constant
import ContestInput.Problem
import ContestInput.Wire.Definition
/-!
# Problems and constants as JSON

The written form of problems and of lists of constants.
-/

namespace ContestInput

open Json (Reader Record Field Value)

namespace Constant

def record : Record Constant where
  title := "NamedConstant"
  blank := ⟨"", 0⟩
  fields :=
    [Field.of "name" true Reader.string fun x c => { c with name := x },
     Field.of "value" true Reader.word fun x c => { c with value := x }]

def toJson (c : Constant) : Value :=
  .object [("name", .string c.name), ("value", .number c.value.toNat)]

def listToJson (cs : List Constant) : Value :=
  .array (cs.map toJson)

def readList (s : String) : Except Fault (List Constant) :=
  ((Reader.list record.read).text s).mapError .badJson

end Constant

namespace Source

def record : Record Source where
  title := "SourceSample"
  blank := ⟨"", ""⟩
  fields :=
    [Field.of "ext" true Reader.string fun x s => { s with extension := x },
     Field.of "txt" true Reader.string fun x s => { s with text := x }]

def toJson (s : Source) : Value :=
  .object [("ext", .string s.extension), ("txt", .string s.text)]

end Source

namespace Problem

def record : Record Problem where
  title := "Problem"
  blank := empty
  fields :=
    [Field.of "q" true Reader.string fun x p => { p with id := x },
     Field.of "desc" false Reader.string fun x p => { p with description := x },
     Field.of "defs" false (Reader.list (Definition.record 2).read) fun x p =>
       { p with definitions := x },
     Field.of "srcs" false (Reader.list Source.record.read) fun x p => { p with sources := x }]

def toJson (p : Problem) : Value :=
  .object
    [("q", .string p.id),
     ("desc", .string p.description),
     ("defs", Definition.listToJson p.definitions),
     ("srcs", .array (p.sources.map Source.toJson))]

def write (p : Problem) : String :=
  p.toJson.text

def read (s : String) : Except Fault Problem :=
  (record.read.text s).mapError .badJson

end Problem

end ContestInput
