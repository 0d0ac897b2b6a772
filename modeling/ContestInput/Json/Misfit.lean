import ContestInput.Json.Outline
import ContestInput.Text.Quoted
/-!
# Misfits

Why a JSON text does not present the value that a reader looks for: its grammar is broken, or it
holds something else than is wanted. The wording of a broken grammar is left to a marker.
-/

namespace ContestInput.Json

/-- What stands where something else was wanted. -/
inductive Found where
  | null
  | bool (value : Bool)
  | natural (value : UInt64)
  | negative (magnitude : Nat)
  | real (negative : Bool) (magnitude : Decimal.Binary64)
  | string (value : String)
  | sequence
  | map
  deriving DecidableEq, Repr

inductive Misfit where
  /-- The grammar of JSON is broken, or a value has no meaning at all. -/
  | malformed
  | wrongType (found : Found) (wanted : String)
  | negative (magnitude : Nat) (wanted : String)
  /-- A list has too few items for the record it stands for. -/
  | wrongLength (found : Nat) (record : String) (fields : Nat)
  | duplicateField (name : String)
  | missingField (name : String)
  | unknownVariant (name : String) (known : List String)
  /-- The value has none of the types that an alternative allows. -/
  | noVariant (alternative : String)
  /-- The value has the right type, but its own reader refuses it. -/
  | rejected (reason : String)
  deriving DecidableEq, Repr

namespace Found

def text : Found → String
  | .null => "null"
  | .bool b => "boolean `" ++ toString b ++ "`"
  | .natural n => "integer `" ++ toString n.toNat ++ "`"
  | .negative m => "integer `-" ++ toString m ++ "`"
  | .real s m =>
    "floating point `" ++ (if s then "-" else "") ++ String.ofList m.text ++ "`"
  | .string s => "string " ++ Text.quoted s
  | .sequence => "sequence"
  | .map => "map"

end Found

def Misfit.namesText (names : List String) : String :=
  ", ".intercalate (names.map fun name => "`" ++ name ++ "`")

def Misfit.message : Misfit → String
  | .malformed => "<json syntax>"
  | .wrongType found wanted => "invalid type: " ++ found.text ++ ", expected " ++ wanted
  | .negative m wanted =>
    "invalid value: " ++ (Found.negative m).text ++ ", expected " ++ wanted
  | .wrongLength found record fields =>
    "invalid length " ++ toString found ++ ", expected struct " ++ record ++ " with " ++
      toString fields ++ " elements"
  | .duplicateField name => "duplicate field " ++ namesText [name]
  | .missingField name => "missing field " ++ namesText [name]
  | .unknownVariant name known =>
    "unknown variant " ++ namesText [name] ++ ", expected one of " ++ namesText known
  | .noVariant alternative =>
    "data did not match any variant of untagged enum " ++ alternative
  | .rejected reason => reason

namespace Tree

/-- What a tree shows to a reader that wants something else. The type of a container is seen at
its opening bracket. -/
def found? : Tree → Option Found
  | .null => some .null
  | .bool b => some (.bool b)
  | .number (.natural n) => some (.natural n)
  | .number (.negative m) => some (.negative m)
  | .number (.real s m) => some (.real s m)
  | .number .outOfRange => none
  | .string s => s.map .string
  | .array _ _ => some .sequence
  | .object _ _ => some .map
  | .broken => none

def misfit (t : Tree) (wanted : String) : Misfit :=
  match t.found? with
  | some found => .wrongType found wanted
  | none => .malformed

end Tree

end ContestInput.Json
