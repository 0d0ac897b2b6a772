import ContestInput.Text.Visible
/-!
# Quoted text

Text between double quotes for a message: quotes and backslashes are escaped, and a character
that does not show is written by its number, so that a reader sees exactly what the text holds.
-/

namespace ContestInput.Text

def quotedChar : Char → List Char
  | '\x00' => ['\\', '0']
  | '\t' => ['\\', 't']
  | '\n' => ['\\', 'n']
  | '\r' => ['\\', 'r']
  | '"' => ['\\', '"']
  | '\\' => ['\\', '\\']
  | c => if isVisible c then [c] else ['\\', 'u', '{'] ++ Nat.toDigits 16 c.toNat ++ ['}']

def quoted (s : String) : String :=
  String.ofList (['"'] ++ s.toList.flatMap quotedChar ++ ['"'])

example : quoted "a\"\n\u200b" = "\"a\\\"\\n\\u\x7b200b\x7d\"" := by decide +kernel

end ContestInput.Text
