import Phrasebook.Text.Pieces

namespace Phrasebook.Text

def hexDigits (n : Nat) : List Char :=
  Nat.toDigits 16 n

def literalChar (c : Char) : List Char :=
  match c with
  | '"' => ['\\', '"']
  | '\\' => ['\\', '\\']
  | '\n' => ['\\', 'n']
  | '\r' => ['\\', 'r']
  | '\t' => ['\\', 't']
  | '\x08' => ['\\', 'b']
  | '\x0c' => ['\\', 'f']
  | c => if c.toNat < 32 then ['\\', 'u'] ++ padLeft '0' 4 (hexDigits c.toNat) else [c]

/-- A text as a string literal of JSON and of scripts. -/
def literal (s : String) : String :=
  String.ofList ('"' :: s.toList.flatMap literalChar ++ ['"'])

end Phrasebook.Text
