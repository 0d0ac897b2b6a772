import ContestInput.Program.Input
import ContestInput.Program.Storage
/-!
# The text of a program's lines

How constants, declarations and input statements are spelled.
-/

namespace ContestInput

def Constant.line (c : Constant) : String :=
  "const int " ++ c.text ++ ";"

namespace Program

def BaseType.text : BaseType → String
  | .int => "int"
  | .char => "char"

def Count.text : Count → String
  | .literal value => toString value.toNat
  | .constant name => name

def Extent.text (e : Extent) : String :=
  "[" ++ e.count.text ++ (if e.terminated then " + 1" else "") ++ "]"

def Variable.text (v : Variable) : String :=
  v.name ++ String.join (v.extents.map Extent.text)

def Declaration.text (d : Declaration) : String :=
  d.base.text ++ " " ++ ", ".intercalate (d.declared.map Variable.text) ++ ";"

def Index.text : Index → String
  | .i => "i"
  | .j => "j"

def Loop.text (l : Loop) : String :=
  "REP(" ++ l.index.text ++ ", " ++ l.bound.text ++ ") "

def Conversion.text : Conversion → String
  | .decimal => "%d"
  | .word => "%s"

def subscripted (name : String) (indices : List Index) : String :=
  name ++ String.join (indices.map fun index => "[" ++ index.text ++ "]")

def Target.text : Target → String
  | .element name indices => "&" ++ subscripted name indices
  | .buffer name indices => subscripted name indices
  | .offset name index => name ++ " + " ++ index.text

def ReadStatement.text (r : ReadStatement) : String :=
  String.join (r.loops.map Loop.text) ++
    "scanf(\"" ++ String.join (r.reads.map (·.1.text)) ++ "\", " ++
    ", ".intercalate (r.reads.map (·.2.text)) ++ ");"

end Program

end ContestInput
