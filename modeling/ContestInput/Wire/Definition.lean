import ContestInput.Fault
import ContestInput.Json.Reader
import ContestInput.Json.Value
/-!
# Definitions as JSON

The written form of sizes and definitions. A size is a number or a string; layouts and items go
by name, some by two. A size is read as a whole before its type is looked at, so all of it has to
be sound, and sound values nest only so deeply.
-/

namespace ContestInput

open Json (Reader Record Field Misfit Tree Value)

/-- The number of nested containers, from the root of a text, within which a value is sound. -/
def Json.nestingLimit : Nat := 127

namespace Size

/-- Reads a size inside `depth` containers. -/
def ofJson (depth : Nat) : Reader Size := fun t =>
  if !t.isSound (Json.nestingLimit - depth) then .error .malformed
  else match t with
    | .number (.natural n) => .ok (.literal n)
    | .string (some s) =>
      match Size.read s with
      | .ok size => .ok size
      | .error cause => .error (.rejected (Fault.badSize cause).message)
    | _ => .error (.noVariant "RawSize")

def toJson : Size → Value
  | .literal n => .number n.toNat
  | .symbol name => .string name

end Size

def Layout.names : List (String × Layout) :=
  [("single", .single), ("h-array", .harray), ("harray", .harray), ("v-array", .varray),
   ("varray", .varray), ("matrix", .matrix)]

def Item.names : List (String × Item) :=
  [("number", .number), ("string", .string), ("char", .char), ("character", .char)]

namespace Definition

/-- How a definition inside `depth` containers is read. -/
def record (depth : Nat) : Record Definition where
  title := "InputDef"
  blank := ⟨.single, .number, [], []⟩
  fields :=
    [Field.of "container" true (Reader.tag Layout.names) fun x d => { d with layout := x },
     Field.of "item" true (Reader.tag Item.names) fun x d => { d with item := x },
     Field.of "names" true (Reader.list Reader.string) fun x d => { d with names := x },
     Field.of "size" false (Reader.list (Size.ofJson (depth + 2))) fun x d => { d with sizes := x }]

def toJson (d : Definition) : Value :=
  .object
    [("container", .string d.layout.text),
     ("item", .string d.item.text),
     ("names", .array (d.names.map .string)),
     ("size", .array (d.sizes.map Size.toJson))]

def listToJson (ds : List Definition) : Value :=
  .array (ds.map toJson)

def readList (s : String) : Except Fault (List Definition) :=
  ((Reader.list (record 1).read).text s).mapError .badJson

end Definition

def Size.readJson (s : String) : Except Fault Size :=
  (Reader.text (Size.ofJson 0) s).mapError .badJson

end ContestInput
