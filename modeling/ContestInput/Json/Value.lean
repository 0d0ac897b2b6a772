/-!
# JSON values and their text

The values that the program writes, and two written forms of them: a compact one on a single line
and an indented one. Only quotes, backslashes and control characters are escaped.
-/

namespace ContestInput.Json

inductive Value where
  | null
  | bool (value : Bool)
  | number (value : Nat)
  | string (value : String)
  | array (items : List Value)
  | object (members : List (String × Value))
  deriving Repr, Inhabited

def escape : Char → List Char
  | '"' => ['\\', '"']
  | '\\' => ['\\', '\\']
  | '\x08' => ['\\', 'b']
  | '\x0c' => ['\\', 'f']
  | '\n' => ['\\', 'n']
  | '\r' => ['\\', 'r']
  | '\t' => ['\\', 't']
  | c =>
    if c < ' ' then
      ['\\', 'u', '0', '0', Nat.digitChar (c.toNat / 16), Nat.digitChar (c.toNat % 16)]
    else [c]

def stringText (s : String) : List Char :=
  ['"'] ++ s.toList.flatMap escape ++ ['"']

namespace Value

mutual

def compact : Value → List Char
  | .null => ['n', 'u', 'l', 'l']
  | .bool true => ['t', 'r', 'u', 'e']
  | .bool false => ['f', 'a', 'l', 's', 'e']
  | .number n => Nat.toDigits 10 n
  | .string s => stringText s
  | .array items => ['['] ++ compactItems items ++ [']']
  | .object members => ['{'] ++ compactMembers members ++ ['}']

def compactItems : List Value → List Char
  | [] => []
  | [item] => item.compact
  | item :: items => item.compact ++ [','] ++ compactItems items

def compactMembers : List (String × Value) → List Char
  | [] => []
  | [(key, value)] => stringText key ++ [':'] ++ value.compact
  | (key, value) :: members =>
    stringText key ++ [':'] ++ value.compact ++ [','] ++ compactMembers members

end

/-- A line break and the indentation of the line behind it, two spaces for each level. -/
def newline (level : Nat) : List Char :=
  '\n' :: List.replicate (2 * level) ' '

mutual

/-- The text of a value with each part of a container on a line of its own; the lines of the
value's own parts are indented by one level more than `level`. -/
def indented (level : Nat) : Value → List Char
  | .array [] => ['[', ']']
  | .array (item :: items) =>
    ['['] ++ indentedItems (level + 1) (item :: items) ++ newline level ++ [']']
  | .object [] => ['{', '}']
  | .object (member :: members) =>
    ['{'] ++ indentedMembers (level + 1) (member :: members) ++ newline level ++ ['}']
  | value => value.compact

def indentedItems (level : Nat) : List Value → List Char
  | [] => []
  | [item] => newline level ++ item.indented level
  | item :: items =>
    newline level ++ item.indented level ++ [','] ++ indentedItems level items

def indentedMembers (level : Nat) : List (String × Value) → List Char
  | [] => []
  | [(key, value)] => newline level ++ stringText key ++ [':', ' '] ++ value.indented level
  | (key, value) :: members =>
    newline level ++ stringText key ++ [':', ' '] ++ value.indented level ++ [','] ++
      indentedMembers level members

end

def text (v : Value) : String :=
  String.ofList v.compact

def indentedText (v : Value) : String :=
  String.ofList (v.indented 0)

end Value

end ContestInput.Json
