import ContestInput.Json.Misfit
/-!
# Readers

Reading values out of an outline. Every reader goes through its tree in text order and reports
the first misfit. A record may be written as an object, with its fields in any order and other
members between them, or as a list of its fields in their own order.
-/

namespace ContestInput.Json

/-- A reader of values of one type. -/
abbrev Reader (α : Type) := Tree → Except Misfit α

namespace Reader

def string : Reader String
  | .string (some s) => .ok s
  | t => .error (t.misfit "a string")

def word : Reader UInt64
  | .number (.natural n) => .ok n
  | .number (.negative m) => .error (.negative m "u64")
  | t => .error (t.misfit "u64")

def unit : Reader Unit
  | .null => .ok ()
  | t => .error (t.misfit "unit")

def list {α : Type} (item : Reader α) : Reader (List α)
  | .array items closed => do
    let values ← items.mapM item
    if closed then .ok values else .error .malformed
  | t => .error (t.misfit "a sequence")

def choose {α : Type} (choices : List (String × α)) (name : String) : Except Misfit α :=
  match choices.lookup name with
  | some a => .ok a
  | none => .error (.unknownVariant name (choices.map (·.1)))

/-- One of several named choices, as a string or as an object whose only key is the name and
whose only value is null. -/
def tag {α : Type} (choices : List (String × α)) : Reader α
  | .string (some name) => choose choices name
  | .object ((some name, value) :: members) closed => do
    let a ← choose choices name
    unit value
    if members.isEmpty && closed then .ok a else .error .malformed
  | _ => .error .malformed

end Reader

/-- A field of a record: how its value is read into a record that may be incomplete. -/
structure Field (α : Type) where
  name : String
  required : Bool
  read : Tree → α → Except Misfit α

/-- How a type of records is read: its title, the record before any field is read, which gives
the fields that are absent their values, and the fields in order. -/
structure Record (α : Type) where
  title : String
  blank : α
  fields : List (Field α)

def Field.of {α β : Type} (name : String) (required : Bool) (reader : Reader β)
    (put : β → α → α) : Field α :=
  ⟨name, required, fun t a => do return put (← reader t) a⟩

namespace Record

variable {α : Type} (r : Record α)

/-- Reads the members of an object on top of a record whose fields `seen` are read: the fields
read by then, and the record. -/
def readMembers : List (Option String × Tree) → List String → α → Except Misfit (List String × α)
  | [], seen, a => .ok (seen, a)
  | (some key, value) :: members, seen, a =>
    match r.fields.find? (·.name = key) with
    | some field =>
      if key ∈ seen then .error (.duplicateField key)
      else do
        let a ← field.read value a
        readMembers members (key :: seen) a
    | none =>
      if value.isComplete then readMembers members seen a else .error .malformed
  | (none, _) :: _, _, _ => .error .malformed

/-- Reads a list of items into the fields that are left, `count` of them being read before. Only
fields that may be absent can be left at the end. -/
def readItems (closed : Bool) :
    (count : Nat) → List (Field α) → List Tree → α → Except Misfit α
  | count, field :: fields, item :: items, a => do
    let a ← field.read item a
    readItems closed (count + 1) fields items a
  | count, fields, [], a =>
    if !closed then .error .malformed
    else if fields.any (·.required) then
      .error (.wrongLength count r.title r.fields.length)
    else .ok a
  | _, [], _ :: _, _ => .error .malformed

def read : Reader α
  | .object members closed => do
    let (seen, a) ← r.readMembers members [] r.blank
    if !closed then .error .malformed
    else match r.fields.find? fun field => field.required && field.name ∉ seen with
      | some field => .error (.missingField field.name)
      | none => .ok a
  | .array items closed => r.readItems closed 0 r.fields items r.blank
  | t => .error (t.misfit ("struct " ++ r.title))

end Record

/-- Reads a whole text. Text behind the value is looked at last. -/
def Reader.text {α : Type} (reader : Reader α) (s : String) : Except Misfit α := do
  let outline := Outline.ofText s
  let a ← reader outline.root
  if outline.trailing then .error .malformed else .ok a

end ContestInput.Json
